import Carpark.Engine.Reading
import Carpark.Config
import Carpark.Notification

/-!
Operations as programs: readings and commits in turn, with what they tell on the way. A program
can be run alone (`Engine.run`) or in a group with others (`Group`).
-/

namespace Carpark

inductive OpName
  | createParking | updateParking | deleteParking
  | addSector | updateSector | activateSector | deactivateSector | deleteSector
  | makeReservation | cancelReservation
  | enterWithReservation | enterWithoutReservation | exitParking
  | expireReservation | forceExit | closeFinished
  deriving DecidableEq, Repr

def OpName.name : OpName → String
  | .createParking => "create_parking"
  | .updateParking => "update_parking"
  | .deleteParking => "delete_parking"
  | .addSector => "add_sector"
  | .updateSector => "update_sector"
  | .activateSector => "activate_sector"
  | .deactivateSector => "deactivate_sector"
  | .deleteSector => "delete_sector"
  | .makeReservation => "make_reservation"
  | .cancelReservation => "cancel_reservation"
  | .enterWithReservation => "enter_with_reservation"
  | .enterWithoutReservation => "enter_without_reservation"
  | .exitParking => "exit_parking"
  | .expireReservation => "expire_reservation"
  | .forceExit => "force_exit"
  | .closeFinished => "close_finished"

/-- What a sweep does to the rows it finds, in the order in which it goes about it. -/
inductive SweepPhase
  | expired
  | forceEnded
  | closed
  | deactivated
  deriving DecidableEq, Repr

def SweepPhase.all : List SweepPhase := [.expired, .forceEnded, .closed, .deactivated]

def SweepPhase.name : SweepPhase → String
  | .expired => "expired"
  | .forceEnded => "force_ended"
  | .closed => "closed"
  | .deactivated => "deactivated"

inductive Counter
  | operation (op : OpName) (failure : Option FailureKind)
  | contentionRetry (op : OpName)
  | notifyFailure
  | sweepTransition (phase : SweepPhase)
  | sweepFailure
  | sweepSkipped
  deriving DecidableEq, Repr

namespace Counter

def name : Counter → String
  | .operation .. => "parkd_operations_total"
  | .contentionRetry _ => "parkd_contention_retries_total"
  | .notifyFailure => "parkd_notify_failures_total"
  | .sweepTransition _ => "parkd_sweep_transitions_total"
  | .sweepFailure => "parkd_sweep_failures_total"
  | .sweepSkipped => "parkd_sweep_skipped_total"

def labels : Counter → List (String × String)
  | .operation op failure => [("op", op.name), ("status", (failure.map (·.name)).getD "ok")]
  | .contentionRetry op => [("op", op.name)]
  | .sweepTransition phase => [("kind", phase.name)]
  | .notifyFailure | .sweepFailure | .sweepSkipped => []

def text (c : Counter) : String :=
  c.name ++ "\x7b" ++ ",".intercalate (c.labels.map fun l => l.1 ++ "=" ++ l.2) ++ "\x7d"

end Counter

inductive Signal
  | line (l : LogLine)
  | count (c : Counter)
  | notice (client : Ulid) (n : Notification)
  deriving DecidableEq, Repr

namespace Signal

def line? : Signal → Option LogLine
  | .line l => some l
  | _ => none

def counter? : Signal → Option Counter
  | .count c => some c
  | _ => none

def notice? : Signal → Option (Ulid × Notification)
  | .notice client n => some (client, n)
  | _ => none

end Signal

abbrev Metrics := Table String Nat

def Metrics.add (m : Metrics) (c : Counter) : Metrics :=
  m.insert c.text ((m.get? c.text).getD 0 + 1)

def Metrics.observe (m : Metrics) (signals : List Signal) : Metrics :=
  (signals.filterMap Signal.counter?).foldl add m

inductive Program (α : Type) : Type
  | done (a : α)
  | ask (q : Query) (k : q.Answer → Program α)
  | draw (k : Ulid → Program α)
  | commit (txn : Txn) (k : Except CommitError Unit → Program α)
  | compact (k : Except CommitError Unit → Program α)
  | appends (k : Nat → Program α)
  | tell (s : Signal) (k : Program α)
  | notify (client : Ulid) (n : Notification) (k : Option String → Program α)
  | pause (ms : Nat) (k : Program α)
  /-- True where no sweep is running; one is from now on. -/
  | beginSweep (k : Bool → Program α)
  | endSweep (k : Program α)

namespace Program

variable {α β : Type}

def bind (f : α → Program β) : Program α → Program β
  | .done a => f a
  | .ask q k => .ask q fun r => (k r).bind f
  | .draw k => .draw fun u => (k u).bind f
  | .commit t k => .commit t fun r => (k r).bind f
  | .compact k => .compact fun r => (k r).bind f
  | .appends k => .appends fun n => (k n).bind f
  | .tell s k => .tell s (k.bind f)
  | .notify c n k => .notify c n fun r => (k r).bind f
  | .pause ms k => .pause ms (k.bind f)
  | .beginSweep k => .beginSweep fun b => (k b).bind f
  | .endSweep k => .endSweep (k.bind f)

instance : Monad Program where
  pure := .done
  bind x f := x.bind f

def ofReading : Reading α → Program α
  | .done a => .done a
  | .ask q k => .ask q fun r => ofReading (k r)
  | .draw k => .draw fun u => ofReading (k u)

def ofLookup (l : Lookup α) : Program (Except Failure α) := ofReading l.run

def count (c : Counter) : Program Unit := .tell (.count c) (.done ())

def line (l : LogLine) : Program Unit := .tell (.line l) (.done ())

def info (message : String) : Program Unit := line (.info message)

def attempt (a : Lookup (Plan α)) : Program (Except Failure α) := do
  match ← ofLookup a with
  | .error e => return .error e
  | .ok plan =>
    .commit plan.txn fun
      | .ok () => .done (.ok plan.answer)
      | .error e => .done (.error (.ofCommit e))

/-- The pause after attempt number `n`, which doubles up to the seventeenth attempt. -/
def backoff (s : Settings) (n : Nat) : Nat :=
  min (s.retryBackoff * (1 <<< min (n - 1) 16)) 0xFFFF_FFFF_FFFF_FFFF

/-- Attempt number `n` with `left` more to come, should it lose a race for a row. -/
def attempts (s : Settings) (op : OpName) (a : Lookup (Plan α)) : (left n : Nat) →
    Program (Except Failure α)
  | 0, _ => attempt a
  | left + 1, n => do
    match ← attempt a with
    | .error e =>
      if e.isRowContention then
        count (.contentionRetry op)
        .pause (backoff s n) (attempts s op a left (n + 1))
      else return .error e
    | .ok answer => return .ok answer

/-- Every attempt reads anew, so one that lost a race sees what the winner has done. -/
def retrying (s : Settings) (op : OpName) (a : Lookup (Plan α)) : Program (Except Failure α) :=
  attempts s op a (s.capacityRetries - 1) 1

def failure? : Except Failure α → Option Failure
  | .ok _ => none
  | .error e => some e

def observe (op : OpName) (result : Except Failure α) : Program Unit :=
  count (.operation op ((failure? result).map (·.kind)))

def inform (client : Option Ulid) (n : Notification) : Program Unit :=
  match client with
  | none => return ()
  | some client =>
    .notify client n fun
      | none => .done ()
      | some reason => do
        count .notifyFailure
        line {
          level := .warn, message := Notifier.refusalMessage reason
          fields := [("client_id", client.text)] }

end Program

end Carpark
