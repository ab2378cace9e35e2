import Carpark.Engine.Basic
import Carpark.Proofs.Reading
import Carpark.Proofs.Transition

/-!
What a program that runs alone comes to, piece by piece, and what it leaves in the log.
-/

namespace Carpark

/-! ### What the log holds -/

def Store.logged (s : Store) (cs : List Commit) (txn : Txn) : List Commit :=
  if txn.isEmpty then cs
  else match s.tables.refusal? txn with
    | some _ => cs
    | none => cs ++ [txn.writes]

def Store.compacted (s : Store) (cs : List Commit) : List Commit :=
  if s.log.obstructed then cs else s.tables.snapshot

namespace Store

variable {s : Store} {txn : Txn}

theorem commit_of_isEmpty (h : txn.isEmpty = true) (cs : List Commit) :
    s.commit txn = (.ok (), s) ∧ s.logged cs txn = cs := by
  simp [commit, logged, h]

theorem commit_of_refusal {error : CommitError} (h : txn.isEmpty = false)
    (hr : s.tables.refusal? txn = some error) (cs : List Commit) :
    s.commit txn = (.error error, s) ∧ s.logged cs txn = cs := by
  simp [commit, logged, h, hr]

theorem commit_of_accepted (h : txn.isEmpty = false) (hr : s.tables.refusal? txn = none)
    (cs : List Commit) :
    s.commit txn =
        (.ok (), ⟨s.tables.apply txn.writes, (s.log.append txn.writes).flush⟩) ∧
      s.logged cs txn = cs ++ [txn.writes] := by
  simp only [commit, logged, h, hr]
  exact ⟨rfl, rfl⟩

theorem tables_commit (h : txn.isEmpty = false) (hr : s.tables.refusal? txn = none) :
    (s.commit txn).2.tables = s.tables.apply txn.writes := by
  rw [(commit_of_accepted h hr []).1]

end Store

variable {α β : Type}

/-- The commits in the log after a program, where `cs` were in it before. -/
def Engine.logged (e : Engine) (cs : List Commit) : Program α → List Commit
  | .done _ => cs
  | .ask q k => e.logged cs (k (e.tables.answer q))
  | .draw k => e.draw.2.logged cs (k e.draw.1)
  | .commit txn k =>
    { e with store := (e.store.commit txn).2 }.logged (e.store.logged cs txn)
      (k (e.store.commit txn).1)
  | .compact k =>
    { e with store := e.store.compact.2 }.logged (e.store.compacted cs) (k e.store.compact.1)
  | .appends k => e.logged cs (k e.store.appends)
  | .tell _ k => e.logged cs k
  | .notify client n k => e.logged cs (k (e.notifier.refusal client n))
  | .pause _ k => e.logged cs k
  | .beginSweep k => { e with sweeping := true }.logged cs (k !e.sweeping)
  | .endSweep k => { e with sweeping := false }.logged cs k

theorem Lookup.eval_txn (a : Lookup (Plan α)) (t : Tables) (ids : Nat → Ulid) (n : Nat) :
    a.txn.run.eval t ids n = ((a.run.eval t ids n).1.map (·.txn), (a.run.eval t ids n).2) := by
  refine (Reading.eval_bind t ids a.run _ n).trans ?_
  cases (a.run.eval t ids n).1 <;> rfl

namespace Engine

theorem run_bind_answer (e : Engine) (p : Program α) (f : α → Program β) :
    (e.run (p >>= f)).answer = ((e.run p).engine.run (f (e.run p).answer)).answer := by
  change (e.run (p.bind f)).answer = _
  induction p generalizing e with
  | done a => rfl
  | ask q k ih => exact ih _ e
  | draw k ih => exact ih _ _
  | commit txn k ih => exact ih _ _
  | compact k ih => exact ih _ _
  | appends k ih => exact ih _ e
  | tell s k ih => exact ih e
  | notify client n k ih => exact ih _ e
  | pause ms k ih => exact ih e
  | beginSweep k ih => exact ih _ _
  | endSweep k ih => exact ih _

theorem run_bind_engine (e : Engine) (p : Program α) (f : α → Program β) :
    (e.run (p >>= f)).engine = ((e.run p).engine.run (f (e.run p).answer)).engine := by
  change (e.run (p.bind f)).engine = _
  induction p generalizing e with
  | done a => rfl
  | ask q k ih => exact ih _ e
  | draw k ih => exact ih _ _
  | commit txn k ih => exact ih _ _
  | compact k ih => exact ih _ _
  | appends k ih => exact ih _ e
  | tell s k ih => exact ih e
  | notify client n k ih => exact ih _ e
  | pause ms k ih => exact ih e
  | beginSweep k ih => exact ih _ _
  | endSweep k ih => exact ih _

theorem run_bind_signals (e : Engine) (p : Program α) (f : α → Program β) :
    (e.run (p >>= f)).signals =
      (e.run p).signals ++ ((e.run p).engine.run (f (e.run p).answer)).signals := by
  change (e.run (p.bind f)).signals = _
  have after (l : List Signal) {o : Outcome β} {o' : Outcome α} {m : List Signal}
      (h : o.signals = o'.signals ++ m) : (o.after l).signals = (o'.after l).signals ++ m := by
    rw [Outcome.after, Outcome.after, h, List.append_assoc]
  induction p generalizing e with
  | done a => rfl
  | ask q k ih => exact ih _ e
  | draw k ih => exact ih _ _
  | commit txn k ih => exact ih _ _
  | compact k ih => exact ih _ _
  | appends k ih => exact ih _ e
  | tell s k ih => exact after _ (ih e)
  | notify client n k ih => exact after _ (ih _ e)
  | pause ms k ih => exact ih e
  | beginSweep k ih => exact ih _ _
  | endSweep k ih => exact ih _

theorem settings_run (e : Engine) (p : Program α) : (e.run p).engine.settings = e.settings := by
  induction p generalizing e with
  | done a => rfl
  | ask q k ih => exact ih _ e
  | draw k ih => exact ih _ e.draw.2
  | commit txn k ih => exact ih _ _
  | compact k ih => exact ih _ _
  | appends k ih => exact ih _ e
  | tell s k ih => exact ih e
  | notify client n k ih => exact ih _ e
  | pause ms k ih => exact ih e
  | beginSweep k ih => exact ih _ _
  | endSweep k ih => exact ih _

theorem logged_bind (e : Engine) (cs : List Commit) (p : Program α) (f : α → Program β) :
    e.logged cs (p >>= f) =
      (e.run p).engine.logged (e.logged cs p) (f (e.run p).answer) := by
  change e.logged cs (p.bind f) = _
  induction p generalizing e cs with
  | done a => rfl
  | ask q k ih => exact ih _ e cs
  | draw k ih => exact ih _ _ cs
  | commit txn k ih => exact ih _ _ _
  | compact k ih => exact ih _ _ _
  | appends k ih => exact ih _ e cs
  | tell s k ih => exact ih e cs
  | notify client n k ih => exact ih _ e cs
  | pause ms k ih => exact ih e cs
  | beginSweep k ih => exact ih _ _ cs
  | endSweep k ih => exact ih _ cs

theorem run_ofReading (e : Engine) (r : Reading α) :
    e.run (Program.ofReading r) =
      ⟨(r.eval e.tables e.supply e.drawn).1,
        { e with drawn := (r.eval e.tables e.supply e.drawn).2 }, []⟩ := by
  induction r generalizing e with
  | done a => rfl
  | ask q k ih => exact ih _ e
  | draw k ih => exact ih _ e.draw.2

theorem logged_ofReading (e : Engine) (cs : List Commit) (r : Reading α) :
    e.logged cs (Program.ofReading r) = cs := by
  induction r generalizing e with
  | done a => rfl
  | ask q k ih => exact ih _ e
  | draw k ih => exact ih _ _

/-! ### Attempts -/

theorem run_attempt_error {e : Engine} {a : Lookup (Plan α)} {f : Failure} {n : Nat}
    (h : a.run.eval e.tables e.supply e.drawn = (.error f, n)) (cs : List Commit) :
    (e.run (Program.attempt a)).answer = .error f ∧
      (e.run (Program.attempt a)).engine = { e with drawn := n } ∧
      e.logged cs (Program.attempt a) = cs := by
  rw [Program.attempt, Program.ofLookup, run_bind_answer, run_bind_engine, logged_bind,
    run_ofReading, logged_ofReading, h]
  exact ⟨rfl, rfl, rfl⟩

theorem run_attempt_ok {e : Engine} {a : Lookup (Plan α)} {plan : Plan α} {n : Nat}
    (h : a.run.eval e.tables e.supply e.drawn = (.ok plan, n)) (cs : List Commit) :
    (e.run (Program.attempt a)).answer =
        ((e.store.commit plan.txn).1.mapError Failure.ofCommit).map (fun _ => plan.answer) ∧
      (e.run (Program.attempt a)).engine =
        { e with drawn := n, store := (e.store.commit plan.txn).2 } ∧
      e.logged cs (Program.attempt a) = e.store.logged cs plan.txn := by
  rw [Program.attempt, Program.ofLookup, run_bind_answer, run_bind_engine, logged_bind,
    run_ofReading, logged_ofReading, h]
  simp only [run, logged]
  cases (e.store.commit plan.txn).1 <;> exact ⟨rfl, rfl, rfl⟩

end Engine

end Carpark
