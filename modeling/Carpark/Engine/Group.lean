import Carpark.Engine.Basic
import Carpark.Store.Shared

/-!
Programs that run side by side. They take turns in the order of a list, and each runs in its turn
until it has to wait: for a lock, for the log, or for the end of a pause. After every round of
turns the log carries out what has come to its queue, so the commits of a round are one batch.
The clock goes on only when all wait for the end of a pause.
-/

namespace Carpark

inductive Task (α : Type)
  | ready (p : Program α)
  | working (job : Job) (stage : Stage) (k : Except CommitError Nat → Program α)
  | asleep (wake : Nat) (p : Program α)
  | finished (a : α)

structure Commons where
  engine : Engine
  shared : SharedStore
  signals : List Signal
  clock : Nat

namespace Commons

def ofEngine (e : Engine) : Commons := ⟨e, .ofStore e.store, [], 0⟩

def tell (c : Commons) (signals : List Signal) : Commons :=
  { c with signals := c.signals ++ signals }

/-- Goes on with a job as far as it gets without waiting. -/
def work (c : Commons) (task : TaskId) (job : Job) (stage : Stage) : Commons × Stage :=
  let (shared, stage) := c.shared.advance task job stage
  ({ c with shared }, stage)

end Commons

variable {α : Type}

def Program.turn (task : TaskId) : Program α → Commons → Commons × Task α
  | .done a, c => (c, .finished a)
  | .ask q k, c => (k (c.shared.store.tables.answer q)).turn task c
  | .draw k, c => (k c.engine.draw.1).turn task { c with engine := c.engine.draw.2 }
  | .commit txn k, c =>
    match c.work task (.commit txn) .start with
    | (c, .finished result) => (k (result.map fun _ => ())).turn task c
    | (c, stage) => (c, .working (.commit txn) stage fun result => k (result.map fun _ => ()))
  | .compact k, c =>
    match c.work task .compact .start with
    | (c, .finished result) => (k (result.map fun _ => ())).turn task c
    | (c, stage) => (c, .working .compact stage fun result => k (result.map fun _ => ()))
  | .appends k, c =>
    match c.work task .count .start with
    | (c, .finished result) => (k (result.toOption.getD 0)).turn task c
    | (c, stage) => (c, .working .count stage fun result => k (result.toOption.getD 0))
  | .tell s k, c => k.turn task (c.tell [s])
  | .notify client n k, c =>
    (k (c.engine.notifier.refusal client n)).turn task (c.tell (c.engine.noticeSignals client n))
  | .pause ms k, c => if ms = 0 then k.turn task c else (c, .asleep (c.clock + ms) k)
  | .beginSweep k, c =>
    (k !c.engine.sweeping).turn task { c with engine := { c.engine with sweeping := true } }
  | .endSweep k, c => k.turn task { c with engine := { c.engine with sweeping := false } }

namespace Task

def turn (task : TaskId) (c : Commons) : Task α → Commons × Task α
  | .ready p => p.turn task c
  | .working job stage k =>
    match c.work task job stage with
    | (c, .finished result) => (k result).turn task c
    | (c, stage) => (c, .working job stage k)
  | .asleep wake p => if wake ≤ c.clock then p.turn task c else (c, .asleep wake p)
  | .finished a => (c, .finished a)

def canMove (task : TaskId) (c : Commons) : Task α → Bool
  | .ready _ => true
  | .working job stage _ => (c.shared.step task job stage).isSome
  | .asleep wake _ => wake ≤ c.clock
  | .finished _ => false

def wake? : Task α → Option Nat
  | .asleep wake _ => some wake
  | _ => none

def answer? : Task α → Option α
  | .finished a => some a
  | _ => none

end Task

structure Group (α : Type) where
  commons : Commons
  tasks : List (Task α)

namespace Group

def ofPrograms (e : Engine) (programs : List (Program α)) : Group α :=
  ⟨.ofEngine e, programs.map .ready⟩

def turns (c : Commons) (task : TaskId) : List (Task α) → Group α
  | [] => ⟨c, []⟩
  | t :: rest =>
    let (c, t) := t.turn task c
    let g := turns c (task + 1) rest
    { g with tasks := t :: g.tasks }

def serve (g : Group α) : Group α :=
  { g with commons := { g.commons with shared := g.commons.shared.serve } }

def canMove (g : Group α) : Bool := (g.tasks.zipIdx.any fun (t, i) => t.canMove i g.commons)

def waitForFirst (g : Group α) : Group α :=
  match (g.tasks.filterMap Task.wake?).min? with
  | some wake => { g with commons := { g.commons with clock := max g.commons.clock wake } }
  | none => g

def round (g : Group α) : Group α :=
  let g := (turns g.commons 0 g.tasks).serve
  if g.canMove then g else g.waitForFirst

def answers? (g : Group α) : Option (List α) := g.tasks.mapM Task.answer?

def rounds : (most : Nat) → Group α → Group α
  | 0, g => g
  | n + 1, g => if g.answers?.isSome then g else rounds n g.round

end Group

def Engine.runGroup (e : Engine) (rounds : Nat) (programs : List (Program α)) :
    Option (Outcome (List α)) :=
  let g := Group.rounds rounds (.ofPrograms e programs)
  g.answers?.map fun answers =>
    ⟨answers, { g.commons.engine with store := g.commons.shared.store }, g.commons.signals⟩

def Store.commitTogether (s : Store) (rounds : Nat) (txns : List Txn) :
    Option (List (Except CommitError Unit) × Store) :=
  let idle := Engine.ofStore {} .silent (fun _ => default) s
  (idle.runGroup rounds (txns.map fun txn => .commit txn .done)).map fun o =>
    (o.answer, o.engine.store)

end Carpark
