import Carpark.Store.Write

/-!
The binary form of commits. Numbers have a fixed width and come lowest byte first; texts and
lists are led by their length in eight bytes; the cases of a type are numbered in four. For each
writer there is a reader, which takes its value off the front and leaves the rest.
-/

namespace Carpark.Binary

abbrev Reader := StateT (List UInt8) Option

/-! ### Numbers -/

def nat : (width : Nat) → (n : Nat) → List UInt8
  | 0, _ => []
  | w + 1, n => UInt8.ofNat n :: nat w (n / 256)

def toNat : List UInt8 → Nat
  | [] => 0
  | b :: rest => b.toNat + 256 * toNat rest

def take : Nat → List UInt8 → Option (List UInt8 × List UInt8)
  | 0, s => some ([], s)
  | _ + 1, [] => none
  | n + 1, b :: s => (take n s).map fun (t, rest) => (b :: t, rest)

def readNat (width : Nat) : Reader Nat := return toNat (← take width)

def int (n : Int) : List UInt8 := nat 8 (n % 0x1_0000_0000_0000_0000).toNat

def readInt : Reader Int := do
  let n ← readNat 8
  return if n < 0x8000_0000_0000_0000 then (n : Int) else (n : Int) - 0x1_0000_0000_0000_0000

def bool (b : Bool) : List UInt8 := nat 1 b.toNat

def readTag : Reader Bool := do
  match ← readNat 1 with
  | 0 => return false
  | 1 => return true
  | _ => failure

/-! ### Texts, options and lists -/

def string (s : String) : List UInt8 :=
  nat 8 s.toByteArray.size ++ s.toByteArray.data.toList

def readString : Reader String := do
  let bytes ← take (← readNat 8)
  String.fromUTF8? ⟨bytes.toArray⟩

def ulid (u : Ulid) : List UInt8 := string u.text

def readUlid : Reader Ulid := do Ulid.parse? (← readString)

def option {α : Type} (write : α → List UInt8) : Option α → List UInt8
  | none => bool false
  | some a => bool true ++ write a

def readOption {α : Type} (read : Reader α) : Reader (Option α) := do
  if ← readTag then return some (← read) else return none

def list {α : Type} (write : α → List UInt8) (l : List α) : List UInt8 :=
  nat 8 l.length ++ l.flatMap write

def readMany {α : Type} (read : Reader α) : Nat → Reader (List α)
  | 0 => return []
  | n + 1 => do
    let a ← read
    return a :: (← readMany read n)

def readList {α : Type} (read : Reader α) : Reader (List α) := do readMany read (← readNat 8)

/-! ### Rows -/

def case {α : Type} [DecidableEq α] (cases : List α) (a : α) : List UInt8 := nat 4 (cases.idxOf a)

def readCase {α : Type} (cases : List α) : Reader α := do cases[← readNat 4]?

def sectorKinds : List SectorKind := [.covered, .uncovered, .underground]

def statuses : List Status := [.created, .cancelled, .expired, .ended]

def gateKinds : List GateKind := [.entry, .exit]

def address (a : Address) : List UInt8 := string a.city ++ string a.zip ++ string a.street

def readAddress : Reader Address := do
  return { city := ← readString, zip := ← readString, street := ← readString }

def parking (p : Parking) : List UInt8 :=
  ulid p.id ++ address p.address ++ list ulid p.sectors ++ case Policy.all p.policy ++
    nat 8 p.version

def readParking : Reader Parking := do
  return {
    id := ← readUlid, address := ← readAddress, sectors := ← readList readUlid
    policy := ← readCase Policy.all, version := ← readNat 8 }

def sector (s : Sector) : List UInt8 :=
  ulid s.id ++ ulid s.parking ++ string s.name ++ case sectorKinds s.kind ++ nat 4 s.maxPlaces ++
    nat 4 s.availablePlaces ++ nat 4 s.weight ++ bool s.active ++ option int s.deactivation ++
    nat 8 s.version

def readSector : Reader Sector := do
  return {
    id := ← readUlid, parking := ← readUlid, name := ← readString, kind := ← readCase sectorKinds
    maxPlaces := ← readNat 4, availablePlaces := ← readNat 4, weight := ← readNat 4
    active := ← readTag, deactivation := ← readOption readInt, version := ← readNat 8 }

def span (s : Span) : List UInt8 := int s.start ++ int s.stop

def readSpan : Reader Span := do return { start := ← readInt, stop := ← readInt }

def reservation (r : Reservation) : List UInt8 :=
  ulid r.id ++ option ulid r.client ++ ulid r.parking ++ ulid r.sector ++ span r.window ++
    case statuses r.status ++ bool r.booked ++ option string r.code ++ nat 8 r.version

def readReservation : Reader Reservation := do
  return {
    id := ← readUlid, client := ← readOption readUlid, parking := ← readUlid
    sector := ← readUlid, window := ← readSpan, status := ← readCase statuses
    booked := ← readTag, code := ← readOption readString, version := ← readNat 8 }

def event (e : GateEvent) : List UInt8 :=
  ulid e.id ++ ulid e.reservation ++ int e.time ++ case gateKinds e.kind ++ bool e.forced

def readEvent : Reader GateEvent := do
  return {
    id := ← readUlid, reservation := ← readUlid, time := ← readInt
    kind := ← readCase gateKinds, forced := ← readTag }

/-! ### Writes and commits -/

def write : Write → List UInt8
  | .putParking p => nat 4 0 ++ parking p
  | .deleteParking id => nat 4 1 ++ ulid id
  | .putSector s => nat 4 2 ++ sector s
  | .deleteSector id => nat 4 3 ++ ulid id
  | .putReservation r => nat 4 4 ++ reservation r
  | .appendEvent e => nat 4 5 ++ event e

def readWrite : Reader Write := do
  match ← readNat 4 with
  | 0 => return .putParking (← readParking)
  | 1 => return .deleteParking (← readUlid)
  | 2 => return .putSector (← readSector)
  | 3 => return .deleteSector (← readUlid)
  | 4 => return .putReservation (← readReservation)
  | 5 => return .appendEvent (← readEvent)
  | _ => failure

def commit (c : Commit) : List UInt8 := list write c

def readCommit : Reader Commit := readList readWrite

/-- Bytes after the commit are not looked at. -/
def commit? (bytes : List UInt8) : Option Commit := (readCommit.run bytes).map (·.1)

end Carpark.Binary
