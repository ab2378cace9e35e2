import Carpark.Proofs.Locks
import Carpark.Proofs.Visibility

/-!
Several jobs on one store, one step of one of them at a time. Those that are behind the check of
their versions hold the locks of all their rows, so no two of them have a row in common, and a
compaction that is under way has the store for itself.
-/

namespace Carpark

/-! ### Steps -/

namespace SharedStore

/-- A step of a job, but that a commit makes all of its writes in one. -/
def stride (s : SharedStore) (task : TaskId) : Job → Stage → Option (SharedStore × Stage)
  | .commit _, .applying taken c =>
    some ({ s with store := { s.store with tables := c.foldl Tables.write s.store.tables } },
      .unlocking taken (.ok 0))
  | job, stage => s.step task job stage

theorem steps_applying_eq_stride (s : SharedStore) (task : TaskId) (txn : Txn) (taken : List Nat)
    (c : Commit) : steps task txn (c.length + 1) (s, .applying taken c) =
      s.stride task (.commit txn) (.applying taken c) := by
  induction c generalizing s with
  | nil => rfl
  | cons w c ih => exact ih _

inductive Moves (s : SharedStore) (i : TaskId) : Job → Stage → SharedStore → Stage → Prop
  | skip {txn : Txn} : txn.isEmpty = true → Moves s i (.commit txn) .start s (.finished (.ok 0))
  | share {txn : Txn} : txn.isEmpty = false →
    Moves s i (.commit txn) .start { s with sharing := s.sharing.join i .shared } .joined
  | enter {txn : Txn} : s.sharing.holds i = true →
    Moves s i (.commit txn) .joined s (.locking [] txn.lockKeys)
  | fetch {txn : Txn} {taken : List Nat} {key : RowKey} {rest : List RowKey} :
    s.holdsAll i taken = true →
    Moves s i (.commit txn) (.locking taken (key :: rest))
      { s with rows := (s.rows.fetch i key).2 } (.fetched taken (s.rows.fetch i key).1 rest)
  | lock {txn : Txn} {taken : List Nat} {lock : Nat} {rest : List RowKey} :
    Moves s i (.commit txn) (.fetched taken lock rest) { s with rows := s.rows.join i lock }
      (.locking (taken ++ [lock]) rest)
  | refuse {txn : Txn} {taken : List Nat} {e : CommitError} : s.holdsAll i taken = true →
    s.store.tables.refusal? txn = some e →
    Moves s i (.commit txn) (.locking taken []) s (.unlocking taken (.error e))
  | pass {txn : Txn} {taken : List Nat} : s.holdsAll i taken = true →
    s.store.tables.refusal? txn = none →
    Moves s i (.commit txn) (.locking taken []) (s.send i (.append txn.writes)) (.logging taken)
  | logged {txn : Txn} {taken : List Nat} {answer : LogAnswer} {n : Nat} :
    s.answer? i = some answer → answer.result = .ok n →
    Moves s i (.commit txn) (.logging taken) (s.pickUp i) (.applying taken txn.writes.ordered)
  | lost {txn : Txn} {taken : List Nat} {answer : LogAnswer} {e : CommitError} :
    s.answer? i = some answer → answer.result = .error e →
    Moves s i (.commit txn) (.logging taken) (s.pickUp i) (.unlocking taken (.error e))
  | write {txn : Txn} {taken : List Nat} {c : Commit} :
    Moves s i (.commit txn) (.applying taken c)
      { s with store := { s.store with tables := c.foldl Tables.write s.store.tables } }
      (.unlocking taken (.ok 0))
  | unlock {txn : Txn} {lock : Nat} {taken : List Nat} {result : Except CommitError Nat} :
    Moves s i (.commit txn) (.unlocking (lock :: taken) result)
      { s with rows := s.rows.leave i lock } (.released lock taken result)
  | drop {txn : Txn} {lock : Nat} {taken : List Nat} {result : Except CommitError Nat} :
    Moves s i (.commit txn) (.released lock taken result) { s with rows := s.rows.drop i lock }
      (.unlocking taken result)
  | leave {txn : Txn} {result : Except CommitError Nat} :
    Moves s i (.commit txn) (.unlocking [] result) { s with sharing := s.sharing.leave i }
      (.tidying txn.lockKeys result)
  | tidy {txn : Txn} {key : RowKey} {rest : List RowKey} {result : Except CommitError Nat} :
    Moves s i (.commit txn) (.tidying (key :: rest) result) { s with rows := s.rows.tidy key }
      (.tidying rest result)
  | finish {txn : Txn} {result : Except CommitError Nat} :
    Moves s i (.commit txn) (.tidying [] result) s (.finished result)
  | claim : Moves s i .compact .start { s with sharing := s.sharing.join i .exclusive } .joined
  | snapshot : s.sharing.holds i = true →
    Moves s i .compact .joined (s.send i (.replace s.store.tables.snapshot)) (.logging [])
  | compacted {taken : List Nat} {answer : LogAnswer} : s.answer? i = some answer →
    Moves s i .compact (.logging taken) { s.pickUp i with sharing := s.sharing.leave i }
      (.finished answer.result)
  | count : Moves s i .count .start (s.send i .count) (.logging [])
  | counted {taken : List Nat} {answer : LogAnswer} : s.answer? i = some answer →
    Moves s i .count (.logging taken) (s.pickUp i) (.finished answer.result)

namespace Moves

variable {s s' : SharedStore} {i : TaskId} {stage stage' : Stage}

theorem of_commit {txn : Txn} (h : s.stride i (.commit txn) stage = some (s', stage')) :
    s.Moves i (.commit txn) stage s' stage' := by
  cases stage with
  | start =>
    simp only [stride, step, stepCommit] at h
    split at h
    next empty => cases h; exact .skip empty
    next writes => cases h; exact .share (Bool.eq_false_iff.2 writes)
  | joined =>
    simp only [stride, step, stepCommit] at h
    split at h
    next holds => cases h; exact .enter holds
    next => cases h
  | locking taken rest =>
    cases rest with
    | nil =>
      simp only [stride, step, stepCommit] at h
      split at h
      next holds =>
        split at h
        next e refused => cases h; exact .refuse holds refused
        next accepted => cases h; exact .pass holds accepted
      next => cases h
    | cons key rest =>
      simp only [stride, step, stepCommit] at h
      split at h
      next holds => cases h; exact .fetch holds
      next => cases h
  | logging taken =>
    simp only [stride, step, stepCommit, Option.map_eq_some_iff] at h
    obtain ⟨answer, ha, h⟩ := h
    split at h
    next n ok => cases h; exact .logged ha ok
    next e error => cases h; exact .lost ha error
  | applying taken c => cases h; exact .write
  | fetched taken lock rest => cases h; exact .lock
  | unlocking taken result =>
    cases taken with
    | nil => cases h; exact .leave
    | cons lock taken => cases h; exact .unlock
  | released lock taken result => cases h; exact .drop
  | tidying rest result =>
    cases rest with
    | nil => cases h; exact .finish
    | cons key rest => cases h; exact .tidy
  | finished result => cases h

theorem of_compact (h : s.stride i .compact stage = some (s', stage')) :
    s.Moves i .compact stage s' stage' := by
  cases stage with
  | start => cases h; exact .claim
  | joined =>
    simp only [stride, step, stepCompact] at h
    split at h
    next holds => cases h; exact .snapshot holds
    next => cases h
  | logging taken =>
    simp only [stride, step, stepCompact, Option.map_eq_some_iff] at h
    obtain ⟨answer, ha, h⟩ := h
    cases h
    exact .compacted ha
  | _ => cases h

theorem of_count (h : s.stride i .count stage = some (s', stage')) :
    s.Moves i .count stage s' stage' := by
  cases stage with
  | start => cases h; exact .count
  | logging taken =>
    simp only [stride, step, stepCount, Option.map_eq_some_iff] at h
    obtain ⟨answer, ha, h⟩ := h
    cases h
    exact .counted ha
  | _ => cases h

theorem of_stride : {job : Job} → s.stride i job stage = some (s', stage') →
    s.Moves i job stage s' stage'
  | .commit _ => of_commit
  | .compact => of_compact
  | .count => of_count

end Moves

end SharedStore

/-! ### Locks -/

structure Worker where
  task : TaskId
  job : Job
  stage : Stage

def Job.hold? : Job → Stage → Option Hold
  | .commit _, .joined | .commit _, .locking .. | .commit _, .fetched .. | .commit _, .logging _
  | .commit _, .applying .. | .commit _, .unlocking .. | .commit _, .released .. => some .shared
  | .compact, .joined | .compact, .logging _ => some .exclusive
  | _, _ => none

def Job.isInside : Job → Stage → Bool
  | .commit _, .locking .. | .commit _, .fetched .. | .commit _, .logging _
  | .commit _, .applying .. | .commit _, .unlocking .. | .commit _, .released ..
  | .compact, .logging _ => true
  | _, _ => false

def Job.isChecked : Job → Stage → Bool
  | .commit _, .logging _ | .commit _, .applying .. => true
  | _, _ => false

theorem Job.isInside_of_isChecked {job : Job} {stage : Stage} (h : job.isChecked stage = true) :
    job.isInside stage = true := by
  cases job with
  | commit txn =>
    cases stage with
    | logging taken => rfl
    | applying taken c => rfl
    | _ => cases h
  | _ => cases h

/-- The task has a reference to the lock of each row that it has asked for, and behind the check
it holds all of these locks. -/
def RowLocks.Serves (l : RowLocks) (i : TaskId) : Job → Stage → Prop
  | .commit txn, .locking taken rest =>
    ∃ asked, txn.lockKeys = asked ++ rest ∧ List.Forall₂ (l.Refers i) asked taken
  | .commit txn, .fetched taken lock rest =>
    ∃ asked, txn.lockKeys = asked ++ rest ∧ List.Forall₂ (l.Refers i) asked (taken ++ [lock])
  | .commit txn, .logging taken | .commit txn, .applying taken _ =>
    List.Forall₂ (l.Refers i) txn.lockKeys taken ∧ ∀ lock ∈ taken, l.holds i lock = true
  | _, _ => True

theorem RowLocks.Keeps.serves {l l' : RowLocks} {i : TaskId} {job : Job} {stage : Stage}
    (h : l.Keeps i l') (hs : l.Serves i job stage) : l'.Serves i job stage := by
  have all {keys : List RowKey} {taken : List Nat} (hall : List.Forall₂ (l.Refers i) keys taken) :
      List.Forall₂ (l'.Refers i) keys taken := hall.imp fun _ _ => h.refers
  cases job with
  | commit txn =>
    cases stage with
    | locking taken rest | fetched taken lock rest =>
      obtain ⟨asked, keys, hall⟩ := hs
      exact ⟨asked, keys, all hall⟩
    | logging taken | applying taken c => exact ⟨all hs.1, fun lock mem => h.holds (hs.2 lock mem)⟩
    | _ => trivial
  | _ => cases stage <;> trivial

namespace SharedStore

structure Guarded (s : SharedStore) (ws : List Worker) : Prop where
  tasks : (ws.map (·.task)).Nodup
  wanted : ∀ p ∈ s.sharing.queue, ∃ w ∈ ws, w.task = p.1 ∧ w.job.hold? w.stage = some p.2
  once : (s.sharing.queue.map Prod.fst).Nodup
  inside : ∀ w ∈ ws, w.job.isInside w.stage = true → s.sharing.holds w.task = true
  bounded : s.rows.Bounded
  rows : ∀ w ∈ ws, s.rows.Serves w.task w.job w.stage

namespace Guarded

variable {s s' : SharedStore} {ws ws' : List Worker} {w w' : Worker} {i : TaskId} {job : Job}
  {stage stage' : Stage}

theorem ofStore (store : Store) : Guarded (.ofStore store) [] where
  tasks := .nil
  wanted := fun _ hp => absurd hp List.not_mem_nil
  once := .nil
  inside := fun _ hw => absurd hw List.not_mem_nil
  bounded := .none
  rows := fun _ hw => absurd hw List.not_mem_nil

theorem perm (h : Guarded s ws) (hp : ws.Perm ws') : Guarded s ws' where
  tasks := (hp.map _).nodup_iff.1 h.tasks
  wanted := fun p hq => by
    obtain ⟨w, hw, hp'⟩ := h.wanted p hq
    exact ⟨w, hp.mem_iff.1 hw, hp'⟩
  once := h.once
  inside := fun w hw => h.inside w (hp.mem_iff.2 hw)
  bounded := h.bounded
  rows := fun w hw => h.rows w (hp.mem_iff.2 hw)

theorem eq_of_task (h : Guarded s ws) (hw : w ∈ ws) (hw' : w' ∈ ws) (same : w.task = w'.task) :
    w = w' := List.inj_on_of_nodup_map h.tasks hw hw' same

theorem disjoint (h : Guarded s ws) {txn txn' : Txn} (hw : w ∈ ws) (hw' : w' ∈ ws)
    (other : w.task ≠ w'.task) (job : w.job = .commit txn) (job' : w'.job = .commit txn')
    (checked : w.job.isChecked w.stage = true) (checked' : w'.job.isChecked w'.stage = true) :
    txn.lockKeys.Disjoint txn'.lockKeys := by
  have held {w : Worker} {txn : Txn} (hw : w ∈ ws) (job : w.job = .commit txn)
      (checked : w.job.isChecked w.stage = true) {key : RowKey} (hkey : key ∈ txn.lockKeys) :
      ∃ lock, s.rows.lock? key = some lock ∧ s.rows.holds w.task lock = true := by
    have serves := h.rows w hw
    rw [job] at serves checked
    have all : ∃ taken, List.Forall₂ (s.rows.Refers w.task) txn.lockKeys taken ∧
        ∀ lock ∈ taken, s.rows.holds w.task lock = true := by
      cases hstage : w.stage with
      | logging taken => exact ⟨taken, by rwa [hstage] at serves⟩
      | applying taken c => exact ⟨taken, by rwa [hstage] at serves⟩
      | _ => rw [hstage] at checked; cases checked
    obtain ⟨taken, refers, holds⟩ := all
    obtain ⟨n, hn, rfl⟩ := List.getElem_of_mem hkey
    have hn' : n < taken.length := refers.length_eq ▸ hn
    exact ⟨taken[n], ((List.forall₂_iff_get.1 refers).2 n hn hn').1, holds _ (List.getElem_mem hn')⟩
  intro key hkey hkey'
  obtain ⟨lock, hlock, holds⟩ := held hw job checked hkey
  obtain ⟨lock', hlock', holds'⟩ := held hw' job' checked' hkey'
  cases hlock.symm.trans hlock'
  exact other (RowLocks.holds_inj holds holds')

theorem alone (h : Guarded s ws) {taken : List Nat} (hw : w ∈ ws) (job : w.job = .compact)
    (stage : w.stage = .logging taken) (hw' : w' ∈ ws)
    (inside : w'.job.isInside w'.stage = true) : w' = w := by
  have holds := h.inside w hw (by rw [job, stage]; rfl)
  obtain ⟨hold, mem⟩ := SharedLock.mem_queue_of_holds holds
  obtain ⟨v, hv, task, hold?⟩ := h.wanted _ mem
  obtain rfl := h.eq_of_task hv hw task
  rw [job, stage] at hold?
  cases hold?
  exact h.eq_of_task hw' hw (SharedLock.holds_alone h.once holds mem (h.inside w' hw' inside))

/-! ### One step -/

theorem start (h : Guarded s ws) (fresh : ∀ w ∈ ws, w.task ≠ i) :
    Guarded s (⟨i, job, .start⟩ :: ws) where
  tasks := List.nodup_cons.2 ⟨fun hmem => by
    obtain ⟨w, hw, task⟩ := List.mem_map.1 hmem
    exact fresh w hw task, h.tasks⟩
  wanted := fun p hp => by
    obtain ⟨w, hw, hw'⟩ := h.wanted p hp
    exact ⟨w, .tail _ hw, hw'⟩
  once := h.once
  inside := List.forall_mem_cons.2 ⟨fun inside => by cases job <;> contradiction, h.inside⟩
  bounded := h.bounded
  rows := List.forall_mem_cons.2 ⟨by cases job <;> trivial, h.rows⟩

theorem retire (h : Guarded s (w :: ws)) (free : w.job.hold? w.stage = none) : Guarded s ws where
  tasks := (List.nodup_cons.1 h.tasks).2
  wanted := fun p hp => by
    obtain ⟨v, hv, task, hold⟩ := h.wanted p hp
    rcases List.mem_cons.1 hv with rfl | hv
    · cases free.symm.trans hold
    · exact ⟨v, hv, task, hold⟩
  once := h.once
  inside := (List.forall_mem_cons.1 h.inside).2
  bounded := h.bounded
  rows := (List.forall_mem_cons.1 h.rows).2

theorem other (h : Guarded s (⟨i, job, stage⟩ :: ws)) (hw : w ∈ ws) : w.task ≠ i := fun same =>
  (List.nodup_cons.1 h.tasks).1 (List.mem_map.2 ⟨w, hw, same⟩)

theorem update (h : Guarded s (⟨i, job, stage⟩ :: ws))
    (wanted : ∀ p ∈ s'.sharing.queue,
      p.1 = i ∧ job.hold? stage' = some p.2 ∨ p.1 ≠ i ∧ p ∈ s.sharing.queue)
    (once : (s'.sharing.queue.map Prod.fst).Nodup)
    (holds : ∀ j, j ≠ i → s.sharing.holds j = true → s'.sharing.holds j = true)
    (inside : job.isInside stage' = true → s'.sharing.holds i = true)
    (bounded : s'.rows.Bounded) (keeps : ∀ j, j ≠ i → s.rows.Keeps j s'.rows)
    (rows : s'.rows.Serves i job stage') : Guarded s' (⟨i, job, stage'⟩ :: ws) where
  tasks := h.tasks
  wanted := fun p hp => by
    rcases wanted p hp with ⟨task, hold⟩ | ⟨task, hp⟩
    · exact ⟨_, .head _, task.symm, hold⟩
    · obtain ⟨v, hv, htask, hold⟩ := h.wanted p hp
      rcases List.mem_cons.1 hv with rfl | hv
      · exact absurd htask.symm task
      · exact ⟨v, .tail _ hv, htask, hold⟩
  once := once
  inside := List.forall_mem_cons.2 ⟨inside, fun w hw hin =>
    holds _ (h.other hw) (h.inside w (.tail _ hw) hin)⟩
  bounded := bounded
  rows := List.forall_mem_cons.2 ⟨rows, fun w hw =>
    (keeps _ (h.other hw)).serves (h.rows w (.tail _ hw))⟩

theorem hold?_of_mem (h : Guarded s (⟨i, job, stage⟩ :: ws)) {p : TaskId × Hold}
    (hp : p ∈ s.sharing.queue) (hi : p.1 = i) : job.hold? stage = some p.2 := by
  obtain ⟨v, hv, task, hold⟩ := h.wanted p hp
  obtain rfl := h.eq_of_task hv (.head _) (task.trans hi)
  exact hold

theorem updateRows (h : Guarded s (⟨i, job, stage⟩ :: ws)) (sharing : s'.sharing = s.sharing)
    (hold : ∀ k, job.hold? stage = some k → job.hold? stage' = some k)
    (inside : job.isInside stage' = true → s.sharing.holds i = true)
    (bounded : s'.rows.Bounded) (keeps : ∀ j, j ≠ i → s.rows.Keeps j s'.rows)
    (rows : s'.rows.Serves i job stage') : Guarded s' (⟨i, job, stage'⟩ :: ws) := by
  refine h.update (fun p hp => ?_) (sharing ▸ h.once) (fun _ _ hj => sharing ▸ hj)
    (fun hin => sharing ▸ inside hin) bounded keeps rows
  rw [sharing] at hp
  by_cases hi : p.1 = i
  · exact .inl ⟨hi, hold _ (h.hold?_of_mem hp hi)⟩
  · exact .inr ⟨hi, hp⟩

theorem updateStage (h : Guarded s (⟨i, job, stage⟩ :: ws)) (sharing : s'.sharing = s.sharing)
    (locks : s'.rows = s.rows) (hold : ∀ k, job.hold? stage = some k → job.hold? stage' = some k)
    (inside : job.isInside stage' = true → s.sharing.holds i = true)
    (rows : s.rows.Serves i job stage') : Guarded s' (⟨i, job, stage'⟩ :: ws) :=
  h.updateRows sharing hold inside (locks ▸ h.bounded)
    (fun _ _ => locks ▸ .refl) (locks ▸ rows)

theorem join (h : Guarded s (⟨i, job, .start⟩ :: ws)) {k : Hold} (hold : job.hold? .joined = some k)
    (free : job.hold? .start = none) (outside : job.isInside .joined = false)
    (rows : s.rows.Serves i job .joined) :
    Guarded { s with sharing := s.sharing.join i k } (⟨i, job, .joined⟩ :: ws) := by
  have absent : ∀ p ∈ s.sharing.queue, p.1 ≠ i := fun p hp hi => by
    cases free.symm.trans (h.hold?_of_mem hp hi)
  refine h.update (fun p hp => ?_) ?_ (fun _ _ => SharedLock.holds_join)
    (fun inside => by cases outside.symm.trans inside) h.bounded
    (fun _ _ => .refl) rows
  · rcases List.mem_append.1 hp with hp | hp
    · exact .inr ⟨absent p hp, hp⟩
    · cases List.mem_singleton.1 hp
      exact .inl ⟨rfl, hold⟩
  · rw [SharedLock.join, List.map_append]
    refine List.nodup_append.2 ⟨h.once, List.nodup_singleton _, fun a ha b hb => ?_⟩
    obtain ⟨p, hp, rfl⟩ := List.mem_map.1 ha
    exact List.mem_singleton.1 hb ▸ absent p hp

theorem leave (h : Guarded s (⟨i, job, stage⟩ :: ws)) (sharing : s'.sharing = s.sharing.leave i)
    (locks : s'.rows = s.rows) (outside : job.isInside stage' = false)
    (rows : s.rows.Serves i job stage') : Guarded s' (⟨i, job, stage'⟩ :: ws) := by
  refine h.update (fun p hp => ?_) ?_
    (fun _ hj => sharing ▸ fun hold => SharedLock.holds_leave hold hj)
    (fun inside => by cases outside.symm.trans inside) (locks ▸ h.bounded)
    (fun _ _ => locks ▸ .refl) (locks ▸ rows)
  · rw [sharing] at hp
    obtain ⟨hp, hi⟩ := List.mem_filter.1 hp
    exact .inr ⟨by simpa using hi, hp⟩
  · rw [sharing]
    exact h.once.sublist (List.filter_sublist.map _)

theorem holdsAll {txn : Txn} {taken : List Nat}
    (h : Guarded s (⟨i, .commit txn, .locking taken []⟩ :: ws))
    (holdsAll : s.holdsAll i taken = true) :
    Guarded s (⟨i, .commit txn, .logging taken⟩ :: ws) := by
  obtain ⟨asked, keys, all⟩ := h.rows _ (.head _)
  rw [List.append_nil] at keys
  exact h.updateStage rfl rfl (fun _ => id) (fun _ => h.inside _ (.head _) rfl)
    ⟨keys ▸ all, List.all_eq_true.1 holdsAll⟩

theorem move (h : Guarded s (⟨i, job, stage⟩ :: ws)) (step : s.Moves i job stage s' stage') :
    Guarded s' (⟨i, job, stage'⟩ :: ws) := by
  have inside : job.isInside stage = true → s.sharing.holds i = true := h.inside _ (.head _)
  have serves : s.rows.Serves i job stage := h.rows _ (.head _)
  cases step with
  | skip => exact h.updateStage rfl rfl (fun _ hold => by cases hold) nofun trivial
  | share => exact h.join rfl rfl rfl trivial
  | enter holds => exact h.updateStage rfl rfl (fun _ => id) (fun _ => holds) ⟨[], rfl, .nil⟩
  | @fetch txn taken key rest =>
    obtain ⟨asked, keys, all⟩ := serves
    have keeps (j : TaskId) : s.rows.Keeps j (s.rows.fetch i key).2 := .fetch h.bounded
    refine h.updateRows rfl (fun _ => id) (fun _ => inside rfl) h.bounded.fetch
      (fun j _ => keeps j) ⟨asked ++ [key], by simp [keys], ?_⟩
    refine List.rel_append (all.imp fun _ _ => (keeps i).refers) (.cons ⟨?_, ?_⟩ .nil)
    · rw [RowLocks.lock?_fetch, if_pos rfl]
    · rw [RowLocks.users_fetch h.bounded, if_pos rfl]
      exact List.mem_append_right _ (.head _)
  | @lock txn taken lock rest =>
    obtain ⟨asked, keys, all⟩ := serves
    have made := RowLocks.lt_of_refers all lock (List.mem_append_right _ (.head _))
    have keeps (j : TaskId) : s.rows.Keeps j (s.rows.join i lock) := .join made
    exact h.updateRows rfl (fun _ => id) (fun _ => inside rfl) h.bounded.modifyQueue
      (fun j _ => keeps j) ⟨asked, keys, all.imp fun _ _ => (keeps i).refers⟩
  | refuse => exact h.updateStage rfl rfl (fun _ => id) (fun _ => inside rfl) trivial
  | pass holdsAll => exact { h.holdsAll holdsAll with }
  | logged => exact h.updateStage rfl rfl (fun _ => id) (fun _ => inside rfl) serves
  | lost => exact h.updateStage rfl rfl (fun _ => id) (fun _ => inside rfl) trivial
  | write => exact h.updateStage rfl rfl (fun _ => id) (fun _ => inside rfl) trivial
  | unlock =>
    exact h.updateRows rfl (fun _ => id) (fun _ => inside rfl) h.bounded.modifyQueue
      (fun _ other => .leave other) trivial
  | drop =>
    exact h.updateRows rfl (fun _ => id) (fun _ => inside rfl) h.bounded.modifyUsers
      (fun _ other => .drop other) trivial
  | leave => exact h.leave rfl rfl rfl trivial
  | tidy => exact h.updateRows rfl (fun _ => id) nofun h.bounded.tidy (fun _ _ => .tidy) trivial
  | finish => exact h.updateStage rfl rfl (fun _ => id) nofun trivial
  | claim => exact h.join rfl rfl rfl trivial
  | snapshot holds => exact h.updateStage rfl rfl (fun _ => id) (fun _ => holds) trivial
  | compacted => exact h.leave rfl rfl rfl trivial
  | count => exact h.updateStage rfl rfl (fun _ => id) nofun trivial
  | counted => exact h.updateStage rfl rfl (fun _ => id) nofun trivial

end Guarded

end SharedStore

end Carpark
