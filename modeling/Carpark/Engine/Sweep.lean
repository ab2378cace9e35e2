import Carpark.Engine.Listing
import Carpark.Engine.Registry

/-!
Sweeps. A sweep ends what is over, phase by phase; what it finds in a phase it looks for when it
gets there. Two sweeps never run at a time.
-/

namespace Carpark

structure SweepReport where
  expired : Nat := 0
  forceEnded : Nat := 0
  closed : Nat := 0
  deactivated : Nat := 0
  failed : Nat := 0
  deriving DecidableEq, Repr

namespace SweepReport

def transitions (r : SweepReport) : Nat := r.expired + r.forceEnded + r.closed + r.deactivated

def addTransition (r : SweepReport) : SweepPhase → SweepReport
  | .expired => { r with expired := r.expired + 1 }
  | .forceEnded => { r with forceEnded := r.forceEnded + 1 }
  | .closed => { r with closed := r.closed + 1 }
  | .deactivated => { r with deactivated := r.deactivated + 1 }

def addFailure (r : SweepReport) : SweepReport := { r with failed := r.failed + 1 }

def line (r : SweepReport) : LogLine where
  level := .info
  message := "sweep finished"
  fields := [("expired", toString r.expired), ("force_ended", toString r.forceEnded),
    ("closed", toString r.closed), ("deactivated", toString r.deactivated),
    ("failed", toString r.failed)]

end SweepReport

namespace Sweep

variable (settings : Settings) (now : Ms)

def candidates : SweepPhase → Reading (List Ulid)
  | .expired => Listing.expirable now
  | .forceEnded => Listing.overstayed settings.grace now
  | .closed => Listing.finished now
  | .deactivated => Listing.lapsed now

def transition (id : Ulid) : SweepPhase → Program (Except Failure Bool)
  | .expired => Termination.expire settings ⟨.system, now⟩ id
  | .forceEnded => Termination.forceExit settings ⟨.system, now⟩ id
  | .closed => Termination.close settings ⟨.system, now⟩ id
  | .deactivated => Registry.finalizeDeactivation ⟨.system, now⟩ id

/-- A row that someone else has moved on in the meantime counts for nothing. -/
def tally (phase : SweepPhase) (id : Ulid) (r : SweepReport) :
    Except Failure Bool → Program SweepReport
  | .ok true => do
    Program.count (.sweepTransition phase)
    return r.addTransition phase
  | .ok false => return r
  | .error e => do
    Program.count .sweepFailure
    Program.line (.warn ("sweep " ++ phase.name ++ " " ++ id.text ++ " failed: " ++ e.message))
    return r.addFailure

def rows (phase : SweepPhase) : List Ulid → SweepReport → Program SweepReport
  | [], r => return r
  | id :: ids, r => do rows phase ids (← tally phase id r (← transition settings now id phase))

def phases : List SweepPhase → SweepReport → Program SweepReport
  | [], r => return r
  | phase :: rest, r => do
    let ids ← Program.ofReading (candidates settings now phase)
    phases rest (← rows settings now phase ids r)

/-- No report comes from a sweep that finds another one running. -/
def once : Program (Option SweepReport) :=
  .beginSweep fun
    | false => do
      Program.count .sweepSkipped
      return none
    | true => do
      let r ← phases settings now SweepPhase.all {}
      if 0 < r.transitions + r.failed then Program.line r.line
      .endSweep (.done (some r))

end Sweep

end Carpark
