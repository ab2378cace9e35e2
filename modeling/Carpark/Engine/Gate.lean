import Carpark.Engine.Access
import Carpark.Engine.Ledger
import Carpark.Engine.Program

/-!
Driving in, with a booking or without, and driving out.
-/

namespace Carpark

structure Ticket where
  reservation : Ulid
  code : String
  parking : Ulid
  sector : Ulid
  sectorName : String
  entered : Ms
  deriving DecidableEq, Repr

namespace Gate

variable (settings : Settings) (ctx : Context)

def enterAttempt (id : Ulid) : Lookup (Plan Ticket) := do
  let r ← Lookup.reservation id
  r.requireOwner ctx.caller
  if r.status ≠ .created then throw (.invalidStatus id r.status "enter")
  if r.isOccupying (← Lookup.events id) then throw (.alreadyOccupying id)
  if ctx.now < r.window.start then throw (.reservationNotStarted id)
  if r.window.stop < ctx.now then throw (.reservationExpired id)
  let s ← Lookup.sector r.sector
  let taken ← s.takePlace ctx.now
  let code := (← Lookup.draw).code
  let event : GateEvent := {
    id := ← Lookup.draw, reservation := id, time := ctx.now, kind := .entry, forced := false }
  let r := { r with code := some code }
  return ⟨[.updateSector taken, .updateReservation r, .appendEvent event],
    { reservation := id, code, parking := s.parking, sector := s.id, sectorName := s.name
      entered := ctx.now }⟩

def enter (id : Ulid) : Program (Except Failure Ticket) := do
  let result ← Program.retrying settings .enterWithReservation (enterAttempt ctx id)
  Program.observe .enterWithReservation result
  if let .ok t := result then
    Program.info ("reservation " ++ id.text ++ " entered sector " ++ t.sectorName)
  return result

/-- The parking's policy picks the sector, and a reservation that lasts as long as the longest
booking records the stay. -/
def driveInAttempt (parking : Ulid) (client : Option Ulid) : Lookup (Plan Ticket) := do
  let p ← Lookup.parking parking
  match p.policy.choose ctx.now (← Lookup.sectorsOf p) with
  | none => throw (.cannotEnterParking parking)
  | some s =>
    let taken ← s.takePlace ctx.now
    let code := (← Lookup.draw).code
    let r : Reservation := {
      id := ← Lookup.draw, client, parking, sector := s.id
      window := ⟨ctx.now, ctx.now + settings.maxReservation⟩, status := .created, booked := false
      code := some code, version := 1 }
    let event : GateEvent := {
      id := ← Lookup.draw, reservation := r.id, time := ctx.now, kind := .entry, forced := false }
    return ⟨[.updateSector taken, .insertReservation r, .appendEvent event],
      { reservation := r.id, code, parking, sector := s.id, sectorName := s.name
        entered := ctx.now }⟩

def driveIn (parking : Ulid) (anonymous : Bool) : Program (Except Failure Ticket) := do
  let client := if anonymous then none else ctx.caller.client?
  let result ← Program.retrying settings .enterWithoutReservation
    (driveInAttempt settings ctx parking client)
  Program.observe .enterWithoutReservation result
  if let .ok t := result then
    Program.info ("drive-in " ++ t.reservation.text ++ " allocated sector " ++ t.sectorName ++
      " of parking " ++ parking.text)
  return result

/-- The stay ends if that is asked for, or if it was not booked. A booked stay that is left open
may be entered again within its window. -/
def exitAttempt (id : Ulid) (code : Option String) (ending : Bool) :
    Lookup (Plan Reservation) := do
  let r ← Lookup.reservation id
  r.authorizeExit ctx.caller code
  if r.status ≠ .created then throw (.invalidStatus id r.status "exit")
  if !r.isOccupying (← Lookup.events id) then throw (.notOccupying id)
  let s ← Lookup.sector r.sector
  let freed ← s.freePlace
  let r := { r with status := if ending || !r.booked then .ended else r.status }
  let event : GateEvent := {
    id := ← Lookup.draw, reservation := id, time := ctx.now, kind := .exit, forced := false }
  return ⟨[.updateSector freed, .updateReservation r, .appendEvent event],
    { r with version := r.version + 1 }⟩

def exit (id : Ulid) (code : Option String) (ending : Bool) :
    Program (Except Failure Reservation) := do
  let result ← Program.retrying settings .exitParking (exitAttempt ctx id code ending)
  Program.observe .exitParking result
  if let .ok r := result then
    Program.info ("reservation " ++ id.text ++ " exited, status " ++ toString r.status)
  return result

end Gate

end Carpark
