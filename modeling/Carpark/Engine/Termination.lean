import Carpark.Engine.Access
import Carpark.Engine.Ledger
import Carpark.Engine.Program

/-!
The ends that a stay comes to on its own. Each step checks anew whether it is due, so a
reservation that has moved on in the meantime is passed over, and a step that is done twice
changes nothing the second time.
-/

namespace Carpark

namespace Reservation

def isExpirable (r : Reservation) (events : List GateEvent) (now : Ms) : Bool :=
  r.status = .created && r.window.stop < now && !hasEntered events

def isOverstayed (r : Reservation) (events : List GateEvent) (grace now : Ms) : Bool :=
  r.isOccupying events && r.window.stop + grace < now

def isFinished (r : Reservation) (events : List GateEvent) (now : Ms) : Bool :=
  r.status = .created && r.window.stop < now && hasEntered events && !r.isOccupying events

end Reservation

namespace Termination

variable (settings : Settings) (ctx : Context)

def expireAttempt (id : Ulid) : Lookup (Plan (Option Reservation)) := do
  match ← Lookup.ask (.reservation id) with
  | none => return ⟨[], none⟩
  | some r =>
    if r.isExpirable (← Lookup.events id) ctx.now then
      let r := { r with status := .expired }
      return ⟨[.updateReservation r], some { r with version := r.version + 1 }⟩
    else return ⟨[], none⟩

/-- The place is freed and an exit is written to the gate log, as if the car had left now. -/
def forceExitAttempt (id : Ulid) : Lookup (Plan (Option Reservation)) := do
  match ← Lookup.ask (.reservation id) with
  | none => return ⟨[], none⟩
  | some r =>
    if r.isOverstayed (← Lookup.events id) settings.grace ctx.now then
      let s ← Lookup.sector r.sector
      let freed ← s.freePlace
      let r := { r with status := .ended }
      let event : GateEvent := {
        id := ← Lookup.draw, reservation := id, time := ctx.now, kind := .exit, forced := true }
      return ⟨[.updateSector freed, .updateReservation r, .appendEvent event],
        some { r with version := r.version + 1 }⟩
    else return ⟨[], none⟩

def closeAttempt (id : Ulid) : Lookup (Plan Bool) := do
  match ← Lookup.ask (.reservation id) with
  | none => return ⟨[], false⟩
  | some r =>
    if r.isFinished (← Lookup.events id) ctx.now then
      return ⟨[.updateReservation { r with status := .ended }], true⟩
    else return ⟨[], false⟩

def informing (result : Except Failure (Option Reservation)) (n : Reservation → Notification) :
    Program (Except Failure Bool) := do
  match result with
  | .error e => return .error e
  | .ok none => return .ok false
  | .ok (some r) => do
    Program.inform r.client (n r)
    return .ok true

def expire (id : Ulid) : Program (Except Failure Bool) := do
  match ctx.requirePrivileged with
  | .error e => return .error e
  | .ok () =>
    informing (← Program.retrying settings .expireReservation (expireAttempt ctx id)) fun _ =>
      .reservationExpired id

def forceExit (id : Ulid) : Program (Except Failure Bool) := do
  match ctx.requirePrivileged with
  | .error e => return .error e
  | .ok () =>
    informing (← Program.retrying settings .forceExit (forceExitAttempt settings ctx id)) fun r =>
      .forcedExit id r.sector ctx.now

def close (id : Ulid) : Program (Except Failure Bool) := do
  match ctx.requirePrivileged with
  | .error e => return .error e
  | .ok () => Program.retrying settings .closeFinished (closeAttempt ctx id)

end Termination

end Carpark
