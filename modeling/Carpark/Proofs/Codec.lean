import Carpark.Log.Binary
import Mathlib.Algebra.Group.Int.Defs
import Mathlib.Algebra.Group.Nat.Defs

/-!
What is written in binary form is read back. Numbers have to fit the width that the form gives
them.
-/

namespace Carpark

namespace Binary

variable {α β : Type}

def FitsInt (n : Int) : Prop := -2 ^ 63 ≤ n ∧ n < 2 ^ 63

def FitsText (s : String) : Prop := s.utf8ByteSize < 2 ^ 64

instance (n : Int) : Decidable (FitsInt n) := inferInstanceAs (Decidable (_ ∧ _))

instance (s : String) : Decidable (FitsText s) := inferInstanceAs (Decidable (_ < _))

/-- Off the front of any bytes that begin with these, the reader takes the value and no more. -/
def Reads (read : Reader α) (bytes : List UInt8) (a : α) : Prop :=
  ∀ rest, read.run (bytes ++ rest) = some (a, rest)

namespace Reads

theorem pure (a : α) : Reads (Pure.pure a) [] a := fun _ => rfl

theorem bind {read : Reader α} {f : α → Reader β} {bytes bytes' : List UInt8} {a : α} {b : β}
    (h : Reads read bytes a) (h' : Reads (f a) bytes' b) :
    Reads (read >>= f) (bytes ++ bytes') b := by
  intro rest
  rw [StateT.run_bind, List.append_assoc, h]
  exact h' rest

theorem map {read : Reader α} {bytes : List UInt8} {a : α} (h : Reads read bytes a) (f : α → β) :
    Reads (do return f (← read)) bytes (f a) := by
  simpa using h.bind (f := fun a => Pure.pure (f a)) (pure (f a))

end Reads

/-! ### Numbers -/

theorem length_nat (width n : Nat) : (nat width n).length = width := by
  induction width generalizing n with
  | zero => rfl
  | succ w ih => simp [nat, ih]

theorem toNat_nat (width n : Nat) : toNat (nat width n) = n % 256 ^ width := by
  induction width generalizing n with
  | zero => simp [nat, toNat, Nat.mod_one]
  | succ w ih =>
    simp only [nat, toNat, ih, UInt8.toNat_ofNat', Nat.reducePow]
    rw [Nat.pow_succ, Nat.mul_comm (256 ^ w), Nat.mod_mul]

theorem toNat_nat_of_lt {width n : Nat} (h : n < 256 ^ width) : toNat (nat width n) = n := by
  rw [toNat_nat, Nat.mod_eq_of_lt h]

theorem toNat_lt (bytes : List UInt8) : toNat bytes < 256 ^ bytes.length := by
  induction bytes with
  | nil => decide
  | cons b bytes ih =>
    have := b.toNat_lt
    rw [toNat, List.length_cons, Nat.pow_succ]
    omega

theorem nat_toNat (bytes : List UInt8) : nat bytes.length (toNat bytes) = bytes := by
  induction bytes with
  | nil => rfl
  | cons b bytes ih =>
    have hb := b.toNat_lt
    have rest : (b.toNat + 256 * toNat bytes) / 256 = toNat bytes := by omega
    have low : UInt8.ofNat (b.toNat + 256 * toNat bytes) = b := by
      apply UInt8.toNat_inj.1
      rw [UInt8.toNat_ofNat']
      omega
    rw [List.length_cons, toNat, nat, rest, ih, low]

theorem take_append (bytes rest : List UInt8) :
    take bytes.length (bytes ++ rest) = some (bytes, rest) := by
  induction bytes with
  | nil => rfl
  | cons b bytes ih =>
    rw [List.length_cons, List.cons_append, take, ih]
    rfl

theorem reads_take {bytes : List UInt8} {n : Nat} (h : bytes.length = n) :
    Reads (take n) bytes bytes := by
  subst h
  exact take_append bytes

theorem reads_nat (width : Nat) {n : Nat} (h : n < 256 ^ width) :
    Reads (readNat width) (nat width n) n := by
  have := (reads_take (length_nat width n)).map toNat
  rwa [toNat_nat_of_lt h] at this

theorem reads_int {n : Int} (h : FitsInt n) : Reads readInt (int n) n := by
  obtain ⟨hle, hlt⟩ := h
  have fits : (n % 0x1_0000_0000_0000_0000).toNat < 256 ^ 8 := by omega
  have read := (reads_nat 8 fits).map fun m =>
    if m < 0x8000_0000_0000_0000 then (m : Int) else (m : Int) - 0x1_0000_0000_0000_0000
  have value : (if (n % 0x1_0000_0000_0000_0000).toNat < 0x8000_0000_0000_0000
      then ((n % 0x1_0000_0000_0000_0000).toNat : Int)
      else ((n % 0x1_0000_0000_0000_0000).toNat : Int) - 0x1_0000_0000_0000_0000) = n := by
    split <;> omega
  rwa [value] at read

theorem reads_bool (b : Bool) : Reads readTag (bool b) b := by
  cases b <;> exact (reads_nat 1 (by decide)).bind (.pure _)

/-! ### Texts, options and lists -/

theorem fromUTF8?_toByteArray (s : String) : String.fromUTF8? s.toByteArray = some s := by
  rw [String.fromUTF8?, dif_pos s.isValidUTF8]
  rfl

theorem reads_string {s : String} (h : FitsText s) : Reads readString (string s) s := by
  have size : s.toByteArray.size < 256 ^ 8 := h
  have text : Reads (liftM (String.fromUTF8? ⟨s.toByteArray.data.toList.toArray⟩) : Reader String)
      [] s := by
    intro rest
    rw [Array.toArray_toList, fromUTF8?_toByteArray]
    rfl
  have bytes : s.toByteArray.data.toList.length = s.toByteArray.size := by
    simp
  have read := (reads_take bytes).bind (f := fun b => liftM (String.fromUTF8? ⟨b.toArray⟩)) text
  rw [List.append_nil] at read
  exact (reads_nat 8 size).bind read

/-! ### Identifiers -/

theorem digitValue?_digitChar : ∀ d < 32, Ulid.digitValue? (Ulid.digitChar d) = some d := by
  decide

theorem length_digits (k n : Nat) : (Ulid.digits k n).length = k := by
  induction k generalizing n with
  | zero => rfl
  | succ k ih => simp [Ulid.digits, ih]

theorem mapM_digits (k n : Nat) :
    ∃ ds, (Ulid.digits k n).mapM Ulid.digitValue? = some ds ∧
      ds.foldl (fun n d => 32 * n + d) 0 = n % 32 ^ k := by
  induction k generalizing n with
  | zero => exact ⟨[], rfl, by simp [Nat.mod_one]⟩
  | succ k ih =>
    obtain ⟨ds, hds, hfold⟩ := ih (n / 32)
    have last : Ulid.digitValue? (Ulid.digitChar n) = some (n % 32) := by
      have := digitValue?_digitChar (n % 32) (Nat.mod_lt _ (by decide))
      rwa [Ulid.digitChar, Nat.mod_mod] at this
    refine ⟨ds ++ [n % 32], ?_, ?_⟩
    · rw [Ulid.digits, List.mapM_append, hds]
      simp [last]
    · rw [List.foldl_append, hfold, Nat.pow_succ, Nat.mul_comm (32 ^ k), Nat.mod_mul]
      simp [Nat.add_comm]

theorem parse?_text (u : Ulid) : Ulid.parse? u.text = some u := by
  obtain ⟨ds, hds, hfold⟩ := mapM_digits 26 u.val
  have small : u.val % 32 ^ 26 % 2 ^ 128 = u.val := by
    have := u.isLt
    omega
  simp only [Ulid.parse?, Ulid.text, String.toList_ofList, length_digits, if_true, hds,
    Option.map_some, hfold, Option.some.injEq]
  exact Ulid.ext_val small

theorem utf8ByteSize_ofList_le (l : List Char) : (String.ofList l).utf8ByteSize ≤ 4 * l.length := by
  induction l with
  | nil => simp
  | cons c l ih =>
    have := c.utf8Size_le_four
    rw [String.ofList_cons, String.utf8ByteSize_append, String.utf8ByteSize_singleton,
      List.length_cons]
    omega

theorem fitsText_text (u : Ulid) : FitsText u.text := by
  have := utf8ByteSize_ofList_le (Ulid.digits 26 u.val)
  rw [length_digits] at this
  exact Nat.lt_of_le_of_lt this (by decide)

theorem reads_ulid (u : Ulid) : Reads readUlid (ulid u) u := by
  have parsed : Reads (liftM (Ulid.parse? u.text) : Reader Ulid) [] u := by
    intro rest
    rw [parse?_text]
    rfl
  have read := (reads_string (fitsText_text u)).bind (f := fun s => liftM (Ulid.parse? s)) parsed
  rwa [List.append_nil] at read

theorem reads_option {read : Reader α} (write : α → List UInt8) {o : Option α}
    (h : ∀ a, o = some a → Reads read (write a) a) :
    Reads (readOption read) (option write o) o := by
  cases o with
  | none => exact (reads_bool false).bind (.pure _)
  | some a => exact (reads_bool true).bind ((h a rfl).map some)

theorem reads_many {read : Reader α} {write : α → List UInt8} {l : List α}
    (h : ∀ a ∈ l, Reads read (write a) a) : Reads (readMany read l.length) (l.flatMap write) l := by
  induction l with
  | nil => exact .pure _
  | cons a l ih =>
    have tail := ih fun a' ha' => h a' (List.mem_cons_of_mem _ ha')
    exact (h a List.mem_cons_self).bind (tail.map (a :: ·))

theorem reads_list {read : Reader α} (write : α → List UInt8) {l : List α}
    (hlength : l.length < 2 ^ 64) (h : ∀ a ∈ l, Reads read (write a) a) :
    Reads (readList read) (list write l) l :=
  (reads_nat 8 hlength).bind (reads_many h)

theorem reads_case [DecidableEq α] (cases : List α) (hlength : cases.length < 2 ^ 32) {a : α}
    (h : a ∈ cases) : Reads (readCase cases) (case cases a) a := by
  have hlt := List.idxOf_lt_length_of_mem h
  have found : Reads (liftM cases[cases.idxOf a]? : Reader α) [] a := by
    intro rest
    rw [List.getElem?_eq_getElem hlt, List.getElem_idxOf]
    rfl
  have read := (reads_nat 4 (Nat.lt_trans hlt hlength)).bind
    (f := fun i => liftM cases[i]?) found
  rwa [List.append_nil] at read

end Binary

/-! ### Rows -/

open Binary

def Address.Fits (a : Address) : Prop := FitsText a.city ∧ FitsText a.zip ∧ FitsText a.street

structure Parking.Fits (p : Parking) : Prop where
  address : p.address.Fits
  sectors : p.sectors.length < 2 ^ 64
  version : p.version < 2 ^ 64

structure Sector.Fits (s : Sector) : Prop where
  name : FitsText s.name
  maxPlaces : s.maxPlaces < 2 ^ 32
  availablePlaces : s.availablePlaces < 2 ^ 32
  weight : s.weight < 2 ^ 32
  deactivation : ∀ time, s.deactivation = some time → FitsInt time
  version : s.version < 2 ^ 64

structure Reservation.Fits (r : Reservation) : Prop where
  start : FitsInt r.window.start
  stop : FitsInt r.window.stop
  code : ∀ c, r.code = some c → FitsText c
  version : r.version < 2 ^ 64

def GateEvent.Fits (e : GateEvent) : Prop := FitsInt e.time

def Write.Fits : Write → Prop
  | .putParking p => p.Fits
  | .putSector s => s.Fits
  | .putReservation r => r.Fits
  | .appendEvent e => e.Fits
  | .deleteParking _ | .deleteSector _ => True

def Commit.Fits (c : Commit) : Prop := c.length < 2 ^ 64 ∧ ∀ w ∈ c, w.Fits

instance (a : Address) : Decidable a.Fits := inferInstanceAs (Decidable (_ ∧ _ ∧ _))

instance (p : Parking) : Decidable p.Fits :=
  decidable_of_iff (p.address.Fits ∧ p.sectors.length < 2 ^ 64 ∧ p.version < 2 ^ 64)
    ⟨fun ⟨address, sectors, version⟩ => ⟨address, sectors, version⟩,
      fun ⟨address, sectors, version⟩ => ⟨address, sectors, version⟩⟩

instance (s : Sector) : Decidable s.Fits :=
  decidable_of_iff (FitsText s.name ∧ s.maxPlaces < 2 ^ 32 ∧ s.availablePlaces < 2 ^ 32 ∧
      s.weight < 2 ^ 32 ∧ (∀ time ∈ s.deactivation, FitsInt time) ∧ s.version < 2 ^ 64)
    ⟨fun ⟨name, most, free, weight, time, version⟩ => ⟨name, most, free, weight, time, version⟩,
      fun ⟨name, most, free, weight, time, version⟩ => ⟨name, most, free, weight, time, version⟩⟩

instance (r : Reservation) : Decidable r.Fits :=
  decidable_of_iff (FitsInt r.window.start ∧ FitsInt r.window.stop ∧
      (∀ c ∈ r.code, FitsText c) ∧ r.version < 2 ^ 64)
    ⟨fun ⟨start, stop, code, version⟩ => ⟨start, stop, code, version⟩,
      fun ⟨start, stop, code, version⟩ => ⟨start, stop, code, version⟩⟩

instance (e : GateEvent) : Decidable e.Fits := inferInstanceAs (Decidable (FitsInt _))

instance : (w : Write) → Decidable w.Fits
  | .putParking p => inferInstanceAs (Decidable p.Fits)
  | .putSector s => inferInstanceAs (Decidable s.Fits)
  | .putReservation r => inferInstanceAs (Decidable r.Fits)
  | .appendEvent e => inferInstanceAs (Decidable e.Fits)
  | .deleteParking _ | .deleteSector _ => isTrue trivial

instance (c : Commit) : Decidable c.Fits := inferInstanceAs (Decidable (_ ∧ _))

namespace Binary

theorem reads_address {a : Address} (h : a.Fits) : Reads readAddress (address a) a := by
  obtain ⟨city, zip, street⟩ := h
  have last := (reads_string street).map fun street => ({ a with street } : Address)
  simp only [address, List.append_assoc]
  exact (reads_string city).bind ((reads_string zip).bind last)

theorem reads_parking {p : Parking} (h : p.Fits) : Reads readParking (parking p) p := by
  have policy := reads_case Policy.all (by decide) (Policy.mem_all p.policy)
  have sectors := reads_list ulid h.sectors fun u _ => reads_ulid u
  have last := (reads_nat 8 h.version).map fun version =>
    ({ p with version } : Parking)
  simp only [parking, List.append_assoc]
  exact (reads_ulid p.id).bind ((reads_address h.address).bind (sectors.bind (policy.bind last)))

theorem reads_sector {s : Sector} (h : s.Fits) : Reads readSector (sector s) s := by
  have kind := reads_case sectorKinds (by decide) (a := s.kind) (by cases s.kind <;> decide)
  have deactivation := reads_option int fun time ht => reads_int (h.deactivation time ht)
  have last := (reads_nat 8 h.version).map fun version =>
    ({ s with version } : Sector)
  simp only [sector, List.append_assoc]
  exact (reads_ulid s.id).bind ((reads_ulid s.parking).bind ((reads_string h.name).bind
    (kind.bind ((reads_nat 4 h.maxPlaces).bind ((reads_nat 4 h.availablePlaces).bind
      ((reads_nat 4 h.weight).bind ((reads_bool s.active).bind (deactivation.bind last))))))))

theorem reads_span {w : Span} (hstart : FitsInt w.start) (hstop : FitsInt w.stop) :
    Reads readSpan (span w) w := by
  have last := (reads_int hstop).map fun stop => ({ w with stop } : Span)
  exact (reads_int hstart).bind last

theorem reads_reservation {r : Reservation} (h : r.Fits) :
    Reads readReservation (reservation r) r := by
  have client := reads_option ulid (o := r.client) fun u _ => reads_ulid u
  have status := reads_case statuses (by decide) (a := r.status) (by cases r.status <;> decide)
  have code := reads_option string fun c hc => reads_string (h.code c hc)
  have last := (reads_nat 8 h.version).map fun version =>
    ({ r with version } : Reservation)
  simp only [reservation, List.append_assoc]
  exact (reads_ulid r.id).bind (client.bind ((reads_ulid r.parking).bind ((reads_ulid r.sector).bind
    ((reads_span h.start h.stop).bind (status.bind ((reads_bool r.booked).bind
      (code.bind last)))))))

theorem reads_event {e : GateEvent} (h : e.Fits) : Reads readEvent (event e) e := by
  have kind := reads_case gateKinds (by decide) (a := e.kind) (by cases e.kind <;> decide)
  have last := (reads_bool e.forced).map fun forced => ({ e with forced } : GateEvent)
  simp only [event, List.append_assoc]
  exact (reads_ulid e.id).bind ((reads_ulid e.reservation).bind ((reads_int h).bind
    (kind.bind last)))

/-! ### Commits -/

theorem reads_write {w : Write} (h : w.Fits) : Reads readWrite (write w) w := by
  cases w with
  | putParking p => exact (reads_nat 4 (by decide)).bind ((reads_parking h).map _)
  | deleteParking id => exact (reads_nat 4 (by decide)).bind ((reads_ulid id).map _)
  | putSector s => exact (reads_nat 4 (by decide)).bind ((reads_sector h).map _)
  | deleteSector id => exact (reads_nat 4 (by decide)).bind ((reads_ulid id).map _)
  | putReservation r =>
    exact (reads_nat 4 (by decide)).bind ((reads_reservation h).map _)
  | appendEvent e => exact (reads_nat 4 (by decide)).bind ((reads_event h).map _)

theorem reads_commit {c : Commit} (h : c.Fits) : Reads readCommit (commit c) c :=
  reads_list write h.1 fun w hw => reads_write (h.2 w hw)

theorem commit?_commit {c : Commit} (h : c.Fits) : commit? (commit c) = some c := by
  have read := reads_commit h []
  rw [List.append_nil] at read
  rw [commit?, read]
  rfl

end Binary

end Carpark
