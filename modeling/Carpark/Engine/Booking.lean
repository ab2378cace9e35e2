import Carpark.Engine.Access
import Carpark.Engine.Program
import Carpark.Engine.Validation

/-!
Booking a sector for a window to come, and cancelling. No place is taken before the car drives in.
-/

namespace Carpark.Booking

variable (settings : Settings) (ctx : Context)

def admits (s : Sector) (now : Ms) (window : Span) : Bool :=
  s.isActiveAt now && s.deactivation.all (window.stop ≤ ·)

def overlapping (window : Span) (rs : List Reservation) : Nat :=
  rs.countP fun r => r.status = .created && r.window.overlaps window

/-- The sector's row is written unchanged: its version guards admission. -/
def makeAttempt (client sector : Ulid) (window : Span) : Lookup (Plan Reservation) := do
  let s ← Lookup.sector sector
  if !admits s ctx.now window then throw (.sectorInactive sector)
  let booked := overlapping window (← Lookup.reservationsOfSector sector)
  if s.maxPlaces ≤ booked then throw (.capacityExhausted sector)
  let id ← Lookup.draw
  let r : Reservation := {
    id, client := some client, parking := s.parking, sector, window, status := .created
    booked := true, code := none, version := 1 }
  return ⟨[.updateSector s, .insertReservation r], r⟩

def request (start stop : Ms) : Except Failure (Ulid × Span) := do
  match ctx.caller.client? with
  | none => throw (.forbidden "booking requires a client account")
  | some client => return (client, ← Span.ofRequest start stop ctx.now settings.maxReservation)

def make (sector : Ulid) (start stop : Ms) : Program (Except Failure Reservation) := do
  let result ← match request settings ctx start stop with
    | .error e => pure (.error e)
    | .ok (client, window) =>
      Program.retrying settings .makeReservation (makeAttempt ctx client sector window)
  Program.observe .makeReservation result
  if let .ok r := result then
    Program.info ("reservation " ++ r.id.text ++ " booked on sector " ++ sector.text ++
      " for Span \x7b start: " ++ toString r.window.start ++ ", end: " ++
      toString r.window.stop ++ " \x7d")
    Program.inform r.client (.reservationCreated r.id sector r.window.start r.window.stop)
  return result

def cancelAttempt (id : Ulid) : Lookup (Plan Reservation) := do
  let r ← Lookup.reservation id
  r.requireOwner ctx.caller
  if r.status ≠ .created then throw (.invalidStatus id r.status "cancel")
  if hasEntered (← Lookup.events id) then throw (.alreadyEntered id)
  let r := { r with status := .cancelled }
  return ⟨[.updateReservation r], { r with version := r.version + 1 }⟩

/-- Unlike the other steps of a reservation this one is not tried again. -/
def cancel (id : Ulid) : Program (Except Failure Reservation) := do
  let result ← Program.attempt (cancelAttempt ctx id)
  Program.observe .cancelReservation result
  if let .ok r := result then
    Program.info ("reservation " ++ id.text ++ " cancelled")
    Program.inform r.client (.reservationCancelled id)
  return result

end Carpark.Booking
