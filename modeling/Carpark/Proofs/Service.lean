import Carpark.Proofs.Apart
import Carpark.Proofs.Crew
import Carpark.Proofs.Frames

/-!
The service while it runs. Attempts read at instants of their own, and hand over what they have
staged; commits, compactions and counts work on the store side by side; and one writer carries out
the commands in the queue of the log, the appends among them in batches.
-/

namespace Carpark

/-! ### The state -/

inductive Work
  | commit (ctx : Context) (op : Operation) (ids : List Ulid) (txn : Txn)
  | compact
  | count

def Work.job : Work → Job
  | .commit _ _ _ txn => .commit txn
  | .compact => .compact
  | .count => .count

structure Member where
  task : TaskId
  work : Work
  stage : Stage

def Member.worker (m : Member) : Worker := ⟨m.task, m.work.job, m.stage⟩

inductive Desk
  | idle
  | gathering (batch : List (TaskId × Commit))
  | writing (batch : List (TaskId × Commit))
  | answering (rest : List (TaskId × Commit))
  | drafting (task : TaskId) (commits : List Commit)
  | announcing (task : TaskId) (answer : LogAnswer)

structure Service where
  shared : SharedStore
  spent : Ulid → Prop
  attempts : List Attempt
  crew : List Member
  desk : Desk
  carried : Option (TaskId × LogCommand)
  /-- For the record: the commits that have passed their checks, in that order. -/
  passed : List Commit
  /-- For the record: the commits that have been acknowledged, in that order. -/
  answered : List Commit

/-! ### The commands under way -/

def LogCommand.commit? : LogCommand → Option Commit
  | .append c => some c
  | .replace _ | .count => none

def LogCommand.Readable : LogCommand → Prop
  | .append c => c.Readable
  | .replace commits => ∀ c ∈ commits, c.Readable
  | .count => True

namespace Desk

def take (log : LogFile) : TaskId × LogCommand → Desk
  | (task, .append c) => .gathering [(task, c)]
  | (task, .replace commits) => .drafting task commits
  | (task, .count) => .announcing task (.counted log.writer.appends)

def commands : Desk → List (TaskId × LogCommand)
  | .gathering batch | .writing batch | .answering batch => batch.map fun (i, c) => (i, .append c)
  | .drafting task commits => [(task, .replace commits)]
  | .idle | .announcing .. => []

def replies : Desk → List (TaskId × LogAnswer)
  | .announcing task answer => [(task, answer)]
  | _ => []

/-- Commits in the file that have not been acknowledged. -/
def written : Desk → List Commit
  | .answering rest => rest.map Prod.snd
  | _ => []

end Desk

namespace Service

def rest (store : Store) (spent : Ulid → Prop) : Service :=
  ⟨.ofStore store, spent, [], [], .idle, none, [], []⟩

def tables (S : Service) : Tables := S.shared.store.tables

def log (S : Service) : LogFile := S.shared.store.log

def commands (S : Service) : List (TaskId × LogCommand) :=
  S.desk.commands ++ (S.carried.toList ++ S.shared.queue)

def replies (S : Service) : List (TaskId × LogAnswer) := S.desk.replies ++ S.shared.answers

def waiting (S : Service) : List Commit := S.commands.filterMap (·.2.commit?)

/-- This may be the log file at this instant: any part of a batch may have got there, and a new file
takes the place of the old one at once. -/
def OnDisk (S : Service) (file : ByteArray) : Prop :=
  match S.desk with
  | .writing batch =>
    ∃ n, file = S.log.bytes ++ (LogWriter.fileOf (batch.map Prod.snd)).extract 0 n
  | _ => file = S.log.bytes

/-! ### Steps -/

/-- The writer goes on. -/
inductive Writes : Service → Service → Prop
  | resume {S : Service} {m : TaskId × LogCommand} : S.desk = .idle → S.carried = some m →
    Writes S { S with desk := .take S.log m, carried := none }
  | receive {S : Service} {m : TaskId × LogCommand} {queue : List (TaskId × LogCommand)} :
    S.desk = .idle → S.carried = none → S.shared.queue = m :: queue →
    Writes S { S with desk := .take S.log m, shared := { S.shared with queue } }
  | gather {S : Service} {batch : List (TaskId × Commit)} {i : TaskId} {c : Commit}
      {queue : List (TaskId × LogCommand)} :
    S.desk = .gathering batch → S.shared.queue = (i, .append c) :: queue →
    Writes S { S with desk := .gathering (batch ++ [(i, c)]), shared := { S.shared with queue } }
  | carry {S : Service} {batch : List (TaskId × Commit)} {m : TaskId × LogCommand}
      {queue : List (TaskId × LogCommand)} :
    S.desk = .gathering batch → S.shared.queue = m :: queue → m.2.commit? = none →
    Writes S { S with
      desk := .writing batch, carried := some m, shared := { S.shared with queue } }
  | close {S : Service} {batch : List (TaskId × Commit)} :
    S.desk = .gathering batch → S.shared.queue = [] → Writes S { S with desk := .writing batch }
  | flush {S : Service} {batch : List (TaskId × Commit)} : S.desk = .writing batch →
    Writes S { S with
      desk := .answering batch
      shared := { S.shared with
        store := { S.shared.store with log := S.log.writeBatch (batch.map Prod.snd) } } }
  | answer {S : Service} {i : TaskId} {c : Commit} {rest : List (TaskId × Commit)} :
    S.desk = .answering ((i, c) :: rest) →
    Writes S { S with
      desk := .answering rest
      shared := { S.shared with answers := S.shared.answers ++ [(i, .done)] }
      answered := S.answered ++ [c] }
  | done {S : Service} : S.desk = .answering [] → Writes S { S with desk := .idle }
  | swap {S : Service} {i : TaskId} {commits : List Commit} : S.desk = .drafting i commits →
    Writes S { S with
      desk := .announcing i (S.log.replace commits).1
      shared := { S.shared with
        store := { S.shared.store with log := (S.log.replace commits).2 } } }
  | announce {S : Service} {i : TaskId} {answer : LogAnswer} : S.desk = .announcing i answer →
    Writes S { S with
      desk := .idle, shared := { S.shared with answers := S.shared.answers ++ [(i, answer)] } }

end Service

def Work.passes : Work → Stage → Stage → List Commit
  | .commit _ _ _ txn, .locking .., .logging _ => [txn.writes]
  | _, _, _ => []

namespace Service

inductive Step (settings : Settings) : Service → Service → Prop
  | read {S : Service} {spent : Ulid → Prop} {attempts : List Attempt} :
    Traffic.Step settings ⟨S.tables, S.spent, S.attempts⟩ ⟨S.tables, spent, attempts⟩ →
    Step settings S { S with spent, attempts }
  | hand {S : Service} {attempts : List Attempt} {ctx : Context} {op : Operation}
      {ids : List Ulid} {txn : Txn} {i : TaskId} :
    S.attempts.Perm (⟨ctx, op, ids, .done (.ok txn)⟩ :: attempts) → (∀ m ∈ S.crew, m.task ≠ i) →
    Step settings S { S with attempts, crew := ⟨i, .commit ctx op ids txn, .start⟩ :: S.crew }
  | upkeep {S : Service} {work : Work} {i : TaskId} : work = .compact ∨ work = .count →
    (∀ m ∈ S.crew, m.task ≠ i) → Step settings S { S with crew := ⟨i, work, .start⟩ :: S.crew }
  /-- A job goes on. What it sends is no larger than the log can hold. -/
  | work {S : Service} {others : List Member} {i : TaskId} {work : Work} {stage stage' : Stage}
      {shared : SharedStore} :
    S.crew.Perm (⟨i, work, stage⟩ :: others) →
    S.shared.stride i work.job stage = some (shared, stage') →
    (∀ m ∈ shared.queue, m.2.Readable) →
    Step settings S { S with
      shared, crew := ⟨i, work, stage'⟩ :: others, passed := S.passed ++ work.passes stage stage' }
  | retire {S : Service} {others : List Member} {i : TaskId} {work : Work}
      {result : Except CommitError Nat} :
    S.crew.Perm (⟨i, work, .finished result⟩ :: others) →
    Step settings S { S with crew := others }
  | write {S S' : Service} : Writes S S' → Step settings S S'

/-- What comes about from an engine at rest that has these tables. -/
inductive Reachable (settings : Settings) : Tables → Service → Prop
  | rest {e : Engine} {cs : List Commit} {spent : Ulid → Prop} :
    e.Reachable cs → (∀ c ∈ cs, c.Readable) → (∀ u, ¬ spent u → e.tables.Lacks u) →
    Reachable settings e.tables (.rest e.store spent)
  | step {base : Tables} {S S' : Service} : Reachable settings base S → Step settings S S' →
    Reachable settings base S'

/-! ### The writer by itself -/

def served (S : Service) (commands : List (TaskId × LogCommand)) : Service :=
  { S with
    shared := { S.shared with
      store := { S.shared.store with log := (S.log.serve (commands.map Prod.snd)).2 }
      queue := []
      answers := S.shared.answers ++
        (commands.map Prod.fst).zip (S.log.serve (commands.map Prod.snd)).1 }
    desk := .idle
    carried := none
    answered := S.answered ++ commands.filterMap (·.2.commit?) }

theorem shared_served (S : Service) : (S.served S.shared.queue).shared = S.shared.serve := rfl

namespace Writes

open Relation

variable {S : Service}

theorem batch {batch : List (TaskId × Commit)} {queue : List (TaskId × LogCommand)}
    (desk : S.desk = .gathering batch) (carried : S.carried = none)
    (hqueue : S.shared.queue = queue) :
    ∃ more carried' queue', ReflTransGen Writes S { S with
        desk := .writing (batch ++ more), carried := carried'
        shared := { S.shared with queue := queue' } } ∧
      queue = more.map (fun (i, c) => (i, .append c)) ++ (carried'.toList ++ queue') ∧
      LogFile.batch (queue.map Prod.snd) =
        (more.map Prod.snd, (carried'.toList ++ queue').map Prod.snd) := by
  induction queue generalizing S batch with
  | nil =>
    refine ⟨[], none, [], .single ?_, rfl, rfl⟩
    have step := Writes.close desk hqueue
    rw [List.append_nil]
    convert step using 1
    rw [carried, ← hqueue]
  | cons p queue ih =>
    obtain ⟨i, command⟩ := p
    cases command with
    | append c =>
      obtain ⟨more, carried', queue', steps, split, hbatch⟩ := ih
        (S := { S with desk := .gathering (batch ++ [(i, c)]), shared := { S.shared with queue } })
        rfl carried rfl
      refine ⟨(i, c) :: more, carried', queue', .head (.gather desk hqueue) ?_, ?_, ?_⟩
      · simpa using steps
      · simp [split]
      · simp [LogFile.batch, hbatch]
    | replace commits =>
      refine ⟨[], some (i, .replace commits), queue, .single ?_, rfl, rfl⟩
      rw [List.append_nil]
      exact .carry desk hqueue rfl
    | count =>
      refine ⟨[], some (i, .count), queue, .single ?_, rfl, rfl⟩
      rw [List.append_nil]
      exact .carry desk hqueue rfl

theorem answers {batch : List (TaskId × Commit)} (desk : S.desk = .answering batch) :
    ReflTransGen Writes S { S with
      desk := .idle
      shared := { S.shared with
        answers := S.shared.answers ++ batch.map (fun p => (p.1, .done)) }
      answered := S.answered ++ batch.map Prod.snd } := by
  induction batch generalizing S with
  | nil => simpa using ReflTransGen.single (Writes.done desk)
  | cons p batch ih =>
    refine .head (.answer desk) ?_
    simpa using ih (S := { S with
      desk := .answering batch
      shared := { S.shared with answers := S.shared.answers ++ [(p.1, .done)] }
      answered := S.answered ++ [p.2] }) rfl

theorem begins {m : TaskId × LogCommand} {rest : List (TaskId × LogCommand)}
    (desk : S.desk = .idle) (commands : S.carried.toList ++ S.shared.queue = m :: rest) :
    Writes S { S with
      desk := .take S.log m, carried := none, shared := { S.shared with queue := rest } } := by
  cases hcarried : S.carried with
  | none =>
    rw [hcarried] at commands
    have step := Writes.receive desk hcarried commands
    rwa [hcarried] at step
  | some p =>
    rw [hcarried] at commands
    cases commands
    exact .resume desk hcarried

end Writes

theorem commits_of_batch (batch : List (TaskId × Commit)) :
    (batch.map fun (i, c) => (i, LogCommand.append c)).filterMap (·.2.commit?) =
      batch.map Prod.snd := by
  simp [List.filterMap_map, LogCommand.commit?]

theorem served_batch {S : Service} {i : TaskId} {c : Commit} {more : List (TaskId × Commit)}
    {queue rest : List (TaskId × LogCommand)}
    (split : queue = more.map (fun (i, c) => (i, .append c)) ++ rest)
    (hbatch : LogFile.batch (queue.map Prod.snd) = (more.map Prod.snd, rest.map Prod.snd)) :
    S.served ((i, .append c) :: queue) = { S with
      shared := { S.shared with
        store := { S.shared.store with log := S.log.writeBatch (c :: more.map Prod.snd) }
        answers := S.shared.answers ++ ((i, c) :: more).map (fun p => (p.1, .done)) }
      answered := S.answered ++ c :: more.map Prod.snd : Service }.served rest := by
  have told : (more.map Prod.fst).zip (more.map fun _ => LogAnswer.done) =
      more.map fun p => (p.1, .done) := by
    rw [List.zip_map']
  simp only [served, List.map_cons, LogFile.serve, hbatch, log]
  simp only [split, List.map_append, List.map_map, Function.comp_def, List.zip_cons_cons,
    List.cons_append]
  rw [List.zip_append (by simp), told, List.filterMap_cons, List.filterMap_append,
    commits_of_batch]
  simp [LogCommand.commit?]

theorem served_execute {S : Service} {i : TaskId} {command : LogCommand}
    {rest : List (TaskId × LogCommand)} (other : command.commit? = none) :
    S.served ((i, command) :: rest) = { S with
      shared := { S.shared with
        store := { S.shared.store with log := (S.log.execute command).2 }
        answers := S.shared.answers ++ [(i, (S.log.execute command).1)] }
      : Service }.served rest := by
  cases command with
  | append c => cases other
  | _ => simp [served, LogFile.serve, log, LogCommand.commit?]

theorem Writes.serves {S : Service} (desk : S.desk = .idle) :
    Relation.ReflTransGen Writes S (S.served (S.carried.toList ++ S.shared.queue)) := by
  generalize hcommands : S.carried.toList ++ S.shared.queue = commands
  induction hn : commands.length using Nat.strong_induction_on generalizing S commands with
  | _ n ih =>
    cases commands with
    | nil =>
      obtain ⟨nothing, empty⟩ := List.append_eq_nil_iff.1 hcommands
      have same : S.served [] = S := by
        obtain ⟨⟨_, _, _, queue, _⟩, spent, attempts, crew, desk, carried, _⟩ := S
        cases carried with
        | none => simp_all [served, LogFile.serve, log]
        | some p => cases nothing
      rw [same]
    | cons p rest =>
      refine .head (begins desk hcommands) ?_
      obtain ⟨i, command⟩ := p
      cases command with
      | append c =>
        obtain ⟨more, carried', queue', steps, split, hbatch⟩ := Writes.batch (S := { S with
          desk := .gathering [(i, c)], carried := none
          shared := { S.shared with queue := rest } }) rfl rfl (Eq.refl rest)
        refine (steps.tail (.flush rfl)).trans ((Writes.answers rfl).trans ?_)
        have shorter : (carried'.toList ++ queue').length < n := by
          have length := congrArg List.length split
          simp only [List.length_append, List.length_map] at length hn ⊢
          rw [← hn, List.length_cons, length]
          omega
        rw [served_batch split hbatch]
        exact ih _ shorter (S := { S with
          desk := .idle, carried := carried'
          shared := { S.shared with
            store := { S.shared.store with log := S.log.writeBatch (c :: more.map Prod.snd) }
            queue := queue'
            answers := S.shared.answers ++ ((i, c) :: more).map (fun p => (p.1, .done)) }
          answered := S.answered ++ c :: more.map Prod.snd }) rfl _ rfl rfl
      | replace commits =>
        refine .head (.swap rfl) (.head (.announce rfl) ?_)
        rw [served_execute rfl]
        exact ih rest.length (by rw [← hn]; exact Nat.lt_succ_self _) rfl _ rfl rfl
      | count =>
        refine .head (.announce rfl) ?_
        rw [served_execute rfl]
        exact ih rest.length (by rw [← hn]; exact Nat.lt_succ_self _) rfl _ rfl rfl

end Service

end Carpark
