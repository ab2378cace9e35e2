import Carpark.Store.RowKey

/-!
Locks that tasks wait for in turn: locks on rows, and the one lock that commits share and a
compaction takes for itself.
-/

namespace Carpark

abbrev TaskId := Nat

/-! ### The shared lock -/

inductive Hold
  | shared
  | exclusive
  deriving DecidableEq, Repr

/-- Whoever comes behind one that wants the lock exclusively waits for that one. -/
structure SharedLock where
  queue : List (TaskId × Hold)
  deriving DecidableEq, Repr

namespace SharedLock

def free : SharedLock := ⟨[]⟩

def join (l : SharedLock) (task : TaskId) (hold : Hold) : SharedLock := ⟨l.queue ++ [(task, hold)]⟩

def leave (l : SharedLock) (task : TaskId) : SharedLock := ⟨l.queue.filter (·.1 ≠ task)⟩

def holds (l : SharedLock) (task : TaskId) : Bool :=
  match l.queue.dropWhile (·.1 ≠ task) with
  | [] => false
  | (_, .exclusive) :: _ => (l.queue.takeWhile (·.1 ≠ task)).isEmpty
  | (_, .shared) :: _ => (l.queue.takeWhile (·.1 ≠ task)).all (·.2 = .shared)

end SharedLock

/-! ### Row locks -/

structure RowLock where
  /-- Those who have a reference to it, the table apart. -/
  users : List TaskId
  /-- Those who hold it or wait for it. The first holds it. -/
  queue : List TaskId
  deriving DecidableEq, Repr

/-- A row has a lock only while someone uses it. `entries` says which of the `locks` ever made
that is. -/
structure RowLocks where
  entries : List (RowKey × Nat)
  locks : List RowLock
  deriving DecidableEq, Repr

namespace RowLocks

def none : RowLocks := ⟨[], []⟩

def lock? (l : RowLocks) (key : RowKey) : Option Nat := l.entries.lookup key

def users (l : RowLocks) (lock : Nat) : List TaskId := (l.locks[lock]?).elim [] RowLock.users

def queue (l : RowLocks) (lock : Nat) : List TaskId := (l.locks[lock]?).elim [] RowLock.queue

def holds (l : RowLocks) (task : TaskId) (lock : Nat) : Bool := (l.queue lock).head? = some task

def modifyUsers (l : RowLocks) (lock : Nat) (f : List TaskId → List TaskId) : RowLocks :=
  { l with locks := l.locks.modify lock fun r => { r with users := f r.users } }

def modifyQueue (l : RowLocks) (lock : Nat) (f : List TaskId → List TaskId) : RowLocks :=
  { l with locks := l.locks.modify lock fun r => { r with queue := f r.queue } }

def fetch (l : RowLocks) (task : TaskId) (key : RowKey) : Nat × RowLocks :=
  match l.lock? key with
  | some lock => (lock, l.modifyUsers lock (· ++ [task]))
  | Option.none =>
    let lock := l.locks.length
    (lock, ⟨(key, lock) :: l.entries, l.locks ++ [⟨[task], []⟩]⟩)

def join (l : RowLocks) (task : TaskId) (lock : Nat) : RowLocks :=
  l.modifyQueue lock (· ++ [task])

def leave (l : RowLocks) (task : TaskId) (lock : Nat) : RowLocks :=
  l.modifyQueue lock (·.erase task)

def drop (l : RowLocks) (task : TaskId) (lock : Nat) : RowLocks :=
  l.modifyUsers lock (·.erase task)

/-- Drops the entry of a row to whose lock nobody has a reference. -/
def tidy (l : RowLocks) (key : RowKey) : RowLocks :=
  match l.lock? key with
  | some lock =>
    if (l.users lock).isEmpty then { l with entries := l.entries.filter (·.1 ≠ key) } else l
  | Option.none => l

end RowLocks

end Carpark
