import Carpark.Store.Basic
import Carpark.Store.Locks

/-!
A store that several tasks use at a time. What a task wants done is a job, and a job goes through
its stages one step after another; between two steps of one job there may be any number of steps
of others. Commits share a lock that a compaction takes for itself, and each holds the locks of
the rows it touches from before it looks at their versions until its writes are in the tables.
-/

namespace Carpark

inductive Job
  | commit (txn : Txn)
  | compact
  | count

inductive Stage
  | start
  | joined
  /-- Collects row locks, the last of which may still be waited for. -/
  | locking (taken : List Nat) (rest : List RowKey)
  /-- Has looked the next row lock up, and is not in its queue yet. -/
  | fetched (taken : List Nat) (lock : Nat) (rest : List RowKey)
  /-- Waits for the answer of the log. -/
  | logging (taken : List Nat)
  | applying (taken : List Nat) (rest : Commit)
  | unlocking (taken : List Nat) (result : Except CommitError Nat)
  /-- Has released the lock, and still has its reference to it. -/
  | released (lock : Nat) (taken : List Nat) (result : Except CommitError Nat)
  /-- Tidies up behind its row locks. -/
  | tidying (rest : List RowKey) (result : Except CommitError Nat)
  | finished (result : Except CommitError Nat)

structure SharedStore where
  store : Store
  sharing : SharedLock
  rows : RowLocks
  queue : List (TaskId × LogCommand)
  answers : List (TaskId × LogAnswer)

namespace SharedStore

def ofStore (store : Store) : SharedStore := ⟨store, .free, .none, [], []⟩

def send (s : SharedStore) (task : TaskId) (command : LogCommand) : SharedStore :=
  { s with queue := s.queue ++ [(task, command)] }

def answer? (s : SharedStore) (task : TaskId) : Option LogAnswer := s.answers.lookup task

def pickUp (s : SharedStore) (task : TaskId) : SharedStore :=
  { s with answers := s.answers.filter (·.1 ≠ task) }

def serve (s : SharedStore) : SharedStore :=
  let (answers, log) := s.store.log.serve (s.queue.map Prod.snd)
  { s with
    store := { s.store with log }
    queue := []
    answers := s.answers ++ (s.queue.map Prod.fst).zip answers }

def holdsAll (s : SharedStore) (task : TaskId) (taken : List Nat) : Bool :=
  taken.all (s.rows.holds task)

def stepCommit (s : SharedStore) (task : TaskId) (txn : Txn) : Stage → Option (SharedStore × Stage)
  | .start =>
    if txn.isEmpty then some (s, .finished (.ok 0))
    else some ({ s with sharing := s.sharing.join task .shared }, .joined)
  | .joined => if s.sharing.holds task then some (s, .locking [] txn.lockKeys) else none
  | .locking taken (key :: rest) =>
    if s.holdsAll task taken then
      let (lock, rows) := s.rows.fetch task key
      some ({ s with rows }, .fetched taken lock rest)
    else none
  | .fetched taken lock rest =>
    some ({ s with rows := s.rows.join task lock }, .locking (taken ++ [lock]) rest)
  | .locking taken [] =>
    if s.holdsAll task taken then
      match s.store.tables.refusal? txn with
      | some e => some (s, .unlocking taken (.error e))
      | none => some (s.send task (.append txn.writes), .logging taken)
    else none
  | .logging taken =>
    (s.answer? task).map fun answer =>
      match answer.result with
      | .ok _ => (s.pickUp task, .applying taken txn.writes.ordered)
      | .error e => (s.pickUp task, .unlocking taken (.error e))
  | .applying taken (w :: rest) =>
    some ({ s with store := { s.store with tables := s.store.tables.write w } },
      .applying taken rest)
  | .applying taken [] => some (s, .unlocking taken (.ok 0))
  | .unlocking (lock :: taken) result =>
    some ({ s with rows := s.rows.leave task lock }, .released lock taken result)
  | .released lock taken result =>
    some ({ s with rows := s.rows.drop task lock }, .unlocking taken result)
  | .unlocking [] result =>
    some ({ s with sharing := s.sharing.leave task }, .tidying txn.lockKeys result)
  | .tidying (key :: rest) result => some ({ s with rows := s.rows.tidy key }, .tidying rest result)
  | .tidying [] result => some (s, .finished result)
  | .finished _ => none

def stepCompact (s : SharedStore) (task : TaskId) : Stage → Option (SharedStore × Stage)
  | .start => some ({ s with sharing := s.sharing.join task .exclusive }, .joined)
  | .joined =>
    if s.sharing.holds task then
      some (s.send task (.replace s.store.tables.snapshot), .logging [])
    else none
  | .logging _ =>
    (s.answer? task).map fun answer =>
      ({ s.pickUp task with sharing := s.sharing.leave task }, .finished answer.result)
  | _ => none

def stepCount (s : SharedStore) (task : TaskId) : Stage → Option (SharedStore × Stage)
  | .start => some (s.send task .count, .logging [])
  | .logging _ => (s.answer? task).map fun answer => (s.pickUp task, .finished answer.result)
  | _ => none

def step (s : SharedStore) (task : TaskId) : Job → Stage → Option (SharedStore × Stage)
  | .commit txn, stage => s.stepCommit task txn stage
  | .compact, stage => s.stepCompact task stage
  | .count, stage => s.stepCount task stage

end SharedStore

/-! ### As far as it goes -/

def Job.left (job : Job) (stage : Stage) : Nat :=
  match job, stage with
  | .commit txn, .start => 5 * txn.lockKeys.length + txn.writes.ordered.length + 7
  | .commit txn, .joined => 5 * txn.lockKeys.length + txn.writes.ordered.length + 6
  | .commit txn, .locking taken rest => 4 * rest.length + 2 * taken.length +
    txn.lockKeys.length + txn.writes.ordered.length + 5
  | .commit txn, .fetched taken _ rest => 4 * rest.length + 2 * taken.length +
    txn.lockKeys.length + txn.writes.ordered.length + 8
  | .commit txn, .logging taken =>
    2 * taken.length + txn.lockKeys.length + txn.writes.ordered.length + 4
  | .commit txn, .applying taken rest => 2 * taken.length + txn.lockKeys.length + rest.length + 3
  | .commit txn, .unlocking taken _ => 2 * taken.length + txn.lockKeys.length + 2
  | .commit txn, .released _ taken _ => 2 * taken.length + txn.lockKeys.length + 3
  | .commit _, .tidying rest _ => rest.length + 1
  | _, .start => 3
  | _, .joined => 2
  | _, .logging _ => 1
  | _, _ => 0

namespace SharedStore

theorem left_lt_of_step {s s' : SharedStore} {task : TaskId} {job : Job} {stage stage' : Stage}
    (h : s.step task job stage = some (s', stage')) : job.left stage' < job.left stage := by
  cases job with
  | commit txn =>
    simp only [step] at h
    fun_cases stepCommit <;> simp_all [stepCommit, Job.left] <;> grind [Job.left]
  | compact =>
    simp only [step] at h
    fun_cases stepCompact <;> simp_all [stepCompact, Job.left] <;> grind [Job.left]
  | count =>
    simp only [step] at h
    fun_cases stepCount <;> simp_all [stepCount, Job.left] <;> grind [Job.left]

def advance (s : SharedStore) (task : TaskId) (job : Job) (stage : Stage) : SharedStore × Stage :=
  match _h : s.step task job stage with
  | none => (s, stage)
  | some (s', stage') => s'.advance task job stage'
termination_by job.left stage
decreasing_by exact left_lt_of_step _h

end SharedStore

end Carpark
