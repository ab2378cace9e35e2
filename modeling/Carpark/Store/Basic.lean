import Carpark.Log.File
import Carpark.Log.Replay
import Carpark.Store.Txn

/-!
The store: the tables together with the log file they can be rebuilt from.
-/

namespace Carpark

structure Store where
  tables : Tables
  log : LogFile

def LogAnswer.result : LogAnswer → Except CommitError Nat
  | .done => .ok 0
  | .refused reason => .error (.log reason)
  | .counted n => .ok n

namespace Store

def ofFile (obstructed : Bool) (file : ByteArray) : Except Replay.Fault (Store × Replay) :=
  (Replay.ofFile file).map fun r => (⟨.ofCommits r.commits, .opened obstructed (r.rest file)⟩, r)

def apply (s : Store) (c : Commit) : Store := { s with tables := s.tables.apply c }

def appends (s : Store) : Nat := s.log.writer.appends

def order (s : Store) (command : LogCommand) : Except CommitError Nat × Store :=
  let (answer, log) := s.log.execute command
  (answer.result, { s with log })

/-- All of the transaction takes effect or none of it. Where there is nothing to write there is
nothing to refuse. -/
def commit (s : Store) (txn : Txn) : Except CommitError Unit × Store :=
  if txn.isEmpty then (.ok (), s)
  else
    match s.tables.refusal? txn with
    | some e => (.error e, s)
    | none =>
      match s.order (.append txn.writes) with
      | (.ok _, s) => (.ok (), s.apply txn.writes)
      | (.error e, s) => (.error e, s)

/-- Replaces the log by the shortest one that describes the same tables. -/
def compact (s : Store) : Except CommitError Unit × Store :=
  let (result, s) := s.order (.replace s.tables.snapshot)
  (result.map fun _ => (), s)

end Store

end Carpark
