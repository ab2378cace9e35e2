import Carpark.Proofs.LockOrder
import Carpark.Proofs.Workshop

/-!
The table of row locks while any number of commits are under way. Whoever has a reference to a lock
has asked for it under one row, and as long as anyone has one the table says that it is the lock of
this row. What is in the table has been asked for by a commit that will tidy up behind it.
-/

namespace Carpark

/-- The table has what these workers need, and nothing else. -/
structure RowLocks.Tended (l : RowLocks) (ws : List Worker) : Prop where
  claimed : ∀ w ∈ ws, ∀ p ∈ w.job.claims w.stage, l.Refers w.task p.1 p.2
  used : ∀ lock, ∀ i ∈ l.users lock, ∃ w ∈ ws, w.task = i ∧
    ∃ key, (key, lock) ∈ w.job.claims w.stage
  usedOnce : ∀ lock, (l.users lock).Nodup
  lined : ∀ w ∈ ws, ∀ p ∈ w.job.lined w.stage, w.task ∈ l.queue p.2
  queued : ∀ lock, ∀ i ∈ l.queue lock, ∃ w ∈ ws, w.task = i ∧
    ∃ key, (key, lock) ∈ w.job.lined w.stage
  queuedOnce : ∀ lock, (l.queue lock).Nodup
  secured : ∀ w ∈ ws, ∀ p ∈ w.job.secured w.stage, l.holds w.task p.2 = true
  inj : ∀ {key key' lock}, l.lock? key = some lock → l.lock? key' = some lock → key = key'
  kept : ∀ {key lock}, l.lock? key = some lock → ∃ w ∈ ws, key ∈ w.job.untidied w.stage
  regular : ∀ w ∈ ws, w.job.Regular w.stage

namespace RowLocks.Tended

variable {l l' : RowLocks} {ws ws' : List Worker} {w : Worker} {i j : TaskId} {job : Job}
  {stage stage' : Stage} {txn : Txn} {taken : List Nat} {key k : RowKey} {lock n : Nat}

theorem none : RowLocks.none.Tended [] where
  claimed := List.forall_mem_nil _
  used _ _ hi := by cases hi
  usedOnce _ := .nil
  lined := List.forall_mem_nil _
  queued _ _ hi := by cases hi
  queuedOnce _ := .nil
  secured := List.forall_mem_nil _
  inj h := by cases h
  kept h := by cases h
  regular := List.forall_mem_nil _

theorem perm (h : l.Tended ws) (hp : ws.Perm ws') : l.Tended ws' where
  claimed w hw := h.claimed w (hp.mem_iff.2 hw)
  used lock i hi := by
    obtain ⟨w, hw, rest⟩ := h.used lock i hi
    exact ⟨w, hp.mem_iff.1 hw, rest⟩
  usedOnce := h.usedOnce
  lined w hw := h.lined w (hp.mem_iff.2 hw)
  queued lock i hi := by
    obtain ⟨w, hw, rest⟩ := h.queued lock i hi
    exact ⟨w, hp.mem_iff.1 hw, rest⟩
  queuedOnce := h.queuedOnce
  secured w hw := h.secured w (hp.mem_iff.2 hw)
  inj := h.inj
  kept hk := by
    obtain ⟨w, hw, rest⟩ := h.kept hk
    exact ⟨w, hp.mem_iff.1 hw, rest⟩
  regular w hw := h.regular w (hp.mem_iff.2 hw)

theorem start (h : l.Tended ws) : l.Tended (⟨i, job, .start⟩ :: ws) where
  claimed := List.forall_mem_cons.2 ⟨by cases job <;> exact List.forall_mem_nil _, h.claimed⟩
  used lock i hi := by
    obtain ⟨w, hw, rest⟩ := h.used lock i hi
    exact ⟨w, .tail _ hw, rest⟩
  usedOnce := h.usedOnce
  lined := List.forall_mem_cons.2 ⟨by cases job <;> exact List.forall_mem_nil _, h.lined⟩
  queued lock i hi := by
    obtain ⟨w, hw, rest⟩ := h.queued lock i hi
    exact ⟨w, .tail _ hw, rest⟩
  queuedOnce := h.queuedOnce
  secured := List.forall_mem_cons.2 ⟨by cases job <;> exact List.forall_mem_nil _, h.secured⟩
  inj := h.inj
  kept hk := by
    obtain ⟨w, hw, rest⟩ := h.kept hk
    exact ⟨w, .tail _ hw, rest⟩
  regular := List.forall_mem_cons.2 ⟨by cases job <;> trivial, h.regular⟩

theorem retire {result : Except CommitError Nat}
    (h : l.Tended (⟨i, job, .finished result⟩ :: ws)) : l.Tended ws where
  claimed := (List.forall_mem_cons.1 h.claimed).2
  used lock i hi := by
    obtain ⟨w, hw, task, key, claim⟩ := h.used lock i hi
    rcases List.mem_cons.1 hw with rfl | hw
    · rw [Job.claims_finished] at claim
      cases claim
    · exact ⟨w, hw, task, key, claim⟩
  usedOnce := h.usedOnce
  lined := (List.forall_mem_cons.1 h.lined).2
  queued lock i hi := by
    obtain ⟨w, hw, task, key, claim⟩ := h.queued lock i hi
    rcases List.mem_cons.1 hw with rfl | hw
    · rw [Job.lined_finished] at claim
      cases claim
    · exact ⟨w, hw, task, key, claim⟩
  queuedOnce := h.queuedOnce
  secured := (List.forall_mem_cons.1 h.secured).2
  inj := h.inj
  kept hk := by
    obtain ⟨w, hw, untidied⟩ := h.kept hk
    rcases List.mem_cons.1 hw with rfl | hw
    · cases job <;> cases untidied
    · exact ⟨w, hw, untidied⟩
  regular := (List.forall_mem_cons.1 h.regular).2

theorem claim_of_used (h : l.Tended ws) (hlock : l.lock? key = some lock)
    (hi : i ∈ l.users lock) : ∃ w ∈ ws, w.task = i ∧ (key, lock) ∈ w.job.claims w.stage := by
  obtain ⟨w, hw, task, key', claim⟩ := h.used lock i hi
  obtain rfl := h.inj (h.claimed w hw _ claim).1 hlock
  exact ⟨w, hw, task, claim⟩

theorem claims_inj (h : l.Tended ws) (hw : w ∈ ws) {p q : RowKey × Nat}
    (hp : p ∈ w.job.claims w.stage) (hq : q ∈ w.job.claims w.stage) (same : p.2 = q.2) : p = q := by
  have found := (h.claimed w hw p hp).1
  rw [same] at found
  exact Prod.ext (h.inj found (h.claimed w hw q hq).1) same

theorem lined_of_queued (h : l.Tended ws) (hlock : l.lock? key = some lock)
    (hi : i ∈ l.queue lock) : ∃ w ∈ ws, w.task = i ∧ (key, lock) ∈ w.job.lined w.stage := by
  obtain ⟨w, hw, task, key', lined⟩ := h.queued lock i hi
  have claim := Job.lined_subset (h.regular w hw) lined
  obtain rfl := h.inj (h.claimed w hw _ claim).1 hlock
  exact ⟨w, hw, task, lined⟩

/-! ### One step -/

theorem update (h : l.Tended (⟨i, job, stage⟩ :: ws)) (others : ∀ w ∈ ws, w.task ≠ i)
    (keeps : ∀ j, j ≠ i → l.Keeps j l')
    (claimed : ∀ p ∈ job.claims stage', l'.Refers i p.1 p.2)
    (used : ∀ lock, ∀ j ∈ l'.users lock, j ≠ i ∧ j ∈ l.users lock ∨
      j = i ∧ ∃ key, (key, lock) ∈ job.claims stage')
    (usedOnce : ∀ lock, (l'.users lock).Nodup)
    (lined : ∀ p ∈ job.lined stage', i ∈ l'.queue p.2)
    (queued : ∀ lock, ∀ j ∈ l'.queue lock, j ≠ i ∧ j ∈ l.queue lock ∨
      j = i ∧ ∃ key, (key, lock) ∈ job.lined stage')
    (queuedOnce : ∀ lock, (l'.queue lock).Nodup)
    (secured : ∀ p ∈ job.secured stage', l'.holds i p.2 = true)
    (inj : ∀ {key key' lock}, l'.lock? key = some lock → l'.lock? key' = some lock → key = key')
    (kept : ∀ {key lock}, l'.lock? key = some lock → key ∈ job.untidied stage' ∨
      ∃ w ∈ ws, key ∈ w.job.untidied w.stage)
    (regular : job.Regular stage') : l'.Tended (⟨i, job, stage'⟩ :: ws) where
  claimed := List.forall_mem_cons.2 ⟨claimed, fun w hw p hp =>
    (keeps _ (others w hw)).refers (h.claimed w (.tail _ hw) p hp)⟩
  used lock j hj := by
    rcases used lock j hj with ⟨other, hj⟩ | ⟨rfl, claim⟩
    · obtain ⟨w, hw, task, claim⟩ := h.used lock j hj
      rcases List.mem_cons.1 hw with rfl | hw
      · exact absurd task.symm other
      · exact ⟨w, .tail _ hw, task, claim⟩
    · exact ⟨_, .head _, rfl, claim⟩
  usedOnce := usedOnce
  lined := List.forall_mem_cons.2 ⟨lined, fun w hw p hp =>
    (keeps _ (others w hw)).waits (h.lined w (.tail _ hw) p hp)⟩
  queued lock j hj := by
    rcases queued lock j hj with ⟨other, hj⟩ | ⟨rfl, claim⟩
    · obtain ⟨w, hw, task, claim⟩ := h.queued lock j hj
      rcases List.mem_cons.1 hw with rfl | hw
      · exact absurd task.symm other
      · exact ⟨w, .tail _ hw, task, claim⟩
    · exact ⟨_, .head _, rfl, claim⟩
  queuedOnce := queuedOnce
  secured := List.forall_mem_cons.2 ⟨secured, fun w hw p hp =>
    (keeps _ (others w hw)).holds (h.secured w (.tail _ hw) p hp)⟩
  inj := inj
  kept hk := by
    rcases kept hk with mine | ⟨w, hw, untidied⟩
    · exact ⟨_, .head _, mine⟩
    · exact ⟨w, .tail _ hw, untidied⟩
  regular := List.forall_mem_cons.2 ⟨regular, (List.forall_mem_cons.1 h.regular).2⟩

theorem used_cases (h : l.Tended (⟨i, job, stage⟩ :: ws)) (others : ∀ w ∈ ws, w.task ≠ i)
    (hj : j ∈ l.users lock) :
    j ≠ i ∧ j ∈ l.users lock ∨ j = i ∧ ∃ key, (key, lock) ∈ job.claims stage := by
  obtain ⟨w, hw, task, claim⟩ := h.used lock j hj
  rcases List.mem_cons.1 hw with rfl | hw
  · exact .inr ⟨task.symm, claim⟩
  · exact .inl ⟨task ▸ others w hw, hj⟩

theorem queued_cases (h : l.Tended (⟨i, job, stage⟩ :: ws)) (others : ∀ w ∈ ws, w.task ≠ i)
    (hj : j ∈ l.queue lock) :
    j ≠ i ∧ j ∈ l.queue lock ∨ j = i ∧ ∃ key, (key, lock) ∈ job.lined stage := by
  obtain ⟨w, hw, task, claim⟩ := h.queued lock j hj
  rcases List.mem_cons.1 hw with rfl | hw
  · exact .inr ⟨task.symm, claim⟩
  · exact .inl ⟨task ▸ others w hw, hj⟩

theorem kept_cases (h : l.Tended (⟨i, job, stage⟩ :: ws)) (hk : l.lock? key = some lock) :
    key ∈ job.untidied stage ∨ ∃ w ∈ ws, key ∈ w.job.untidied w.stage := by
  obtain ⟨w, hw, untidied⟩ := h.kept hk
  rcases List.mem_cons.1 hw with rfl | hw
  · exact .inl untidied
  · exact .inr ⟨w, hw, untidied⟩

theorem updateUsers (h : l.Tended (⟨i, job, stage⟩ :: ws)) (others : ∀ w ∈ ws, w.task ≠ i)
    (queue : ∀ n, l'.queue n = l.queue n) (same : job.lined stage' = job.lined stage)
    (keeps : ∀ j, j ≠ i → l.Keeps j l')
    (claimed : ∀ p ∈ job.claims stage', l'.Refers i p.1 p.2)
    (used : ∀ lock, ∀ j ∈ l'.users lock, j ≠ i ∧ j ∈ l.users lock ∨
      j = i ∧ ∃ key, (key, lock) ∈ job.claims stage')
    (usedOnce : ∀ lock, (l'.users lock).Nodup)
    (secured : ∀ p ∈ job.secured stage', l.holds i p.2 = true)
    (inj : ∀ {key key' lock}, l'.lock? key = some lock → l'.lock? key' = some lock → key = key')
    (kept : ∀ {key lock}, l'.lock? key = some lock → key ∈ job.untidied stage' ∨
      ∃ w ∈ ws, key ∈ w.job.untidied w.stage)
    (regular : job.Regular stage') : l'.Tended (⟨i, job, stage'⟩ :: ws) := by
  refine h.update others keeps claimed used usedOnce (fun p hp => ?_) (fun lock j hj => ?_)
    (fun lock => queue lock ▸ h.queuedOnce lock) (fun p hp => ?_) inj kept regular
  · rw [queue]
    exact h.lined _ (.head _) p (same ▸ hp)
  · rw [same]
    exact h.queued_cases others (queue lock ▸ hj)
  · rw [RowLocks.holds, queue]
    exact secured p hp

theorem updateQueue (h : l.Tended (⟨i, job, stage⟩ :: ws)) (others : ∀ w ∈ ws, w.task ≠ i)
    (entries : ∀ k, l'.lock? k = l.lock? k) (users : ∀ n, l'.users n = l.users n)
    (same : job.claims stage' = job.claims stage) (keeps : ∀ j, j ≠ i → l.Keeps j l')
    (lined : ∀ p ∈ job.lined stage', i ∈ l'.queue p.2)
    (queued : ∀ lock, ∀ j ∈ l'.queue lock, j ≠ i ∧ j ∈ l.queue lock ∨
      j = i ∧ ∃ key, (key, lock) ∈ job.lined stage')
    (queuedOnce : ∀ lock, (l'.queue lock).Nodup)
    (secured : ∀ p ∈ job.secured stage', l'.holds i p.2 = true)
    (untidied : job.untidied stage ⊆ job.untidied stage') (regular : job.Regular stage') :
    l'.Tended (⟨i, job, stage'⟩ :: ws) := by
  refine h.update others keeps (fun p hp => ?_) (fun lock j hj => ?_)
    (fun lock => users lock ▸ h.usedOnce lock) lined queued queuedOnce secured (fun hk hk' => ?_)
    (fun hk => ?_) regular
  · rw [RowLocks.Refers, entries, users]
    exact h.claimed _ (.head _) p (same ▸ hp)
  · rw [same]
    exact h.used_cases others (users lock ▸ hj)
  · exact h.inj (entries _ ▸ hk) (entries _ ▸ hk')
  · exact (h.kept_cases (entries _ ▸ hk)).imp_left (untidied ·)

theorem stay (h : l.Tended (⟨i, job, stage⟩ :: ws)) (others : ∀ w ∈ ws, w.task ≠ i)
    (claims : job.claims stage' = job.claims stage) (lined : job.lined stage' = job.lined stage)
    (secured : ∀ p ∈ job.secured stage', l.holds i p.2 = true)
    (untidied : job.untidied stage ⊆ job.untidied stage') (regular : job.Regular stage') :
    l.Tended (⟨i, job, stage'⟩ :: ws) := by
  refine h.updateQueue others (fun _ => rfl) (fun _ => rfl) claims (fun _ _ => .refl) ?_
    (fun lock j hj => ?_) h.queuedOnce secured untidied regular
  · rw [lined]
    exact h.lined _ (.head _)
  · rw [lined]
    exact h.queued_cases others hj

theorem idle (h : l.Tended (⟨i, job, stage⟩ :: ws)) (others : ∀ w ∈ ws, w.task ≠ i)
    (before : job.claims stage = [] ∧ job.lined stage = [])
    (after : job.claims stage' = [] ∧ job.lined stage' = [])
    (untidied : job.untidied stage ⊆ job.untidied stage') (regular : job.Regular stage') :
    l.Tended (⟨i, job, stage'⟩ :: ws) := by
  refine h.stay others (after.1.trans before.1.symm) (after.2.trans before.2.symm) (fun p hp => ?_)
    untidied regular
  have lined : p ∈ job.lined stage' := Job.mem_lined_iff.2 (.inl hp)
  rw [after.2] at lined
  cases lined

theorem eq_of_lock?_fetch (h : l.Tended ws) (bounded : l.Bounded)
    (hk : l.lock? k = some (l.fetch i key).1) : k = key := by
  cases old : l.lock? key with
  | some lock =>
    simp only [RowLocks.fetch, old] at hk
    exact h.inj hk old
  | none =>
    simp only [RowLocks.fetch, old] at hk
    exact absurd (bounded k _ hk) (Nat.lt_irrefl _)

theorem inj_fetch (h : l.Tended ws) (bounded : l.Bounded) {k' : RowKey}
    (hk : (l.fetch i key).2.lock? k = some n) (hk' : (l.fetch i key).2.lock? k' = some n) :
    k = k' := by
  rw [RowLocks.lock?_fetch] at hk hk'
  split at hk <;> split at hk'
  next same same' => exact same.trans same'.symm
  next same _ => exact same.trans (h.eq_of_lock?_fetch bounded (hk'.trans hk.symm)).symm
  next _ same' => exact (h.eq_of_lock?_fetch bounded (hk.trans hk'.symm)).trans same'.symm
  next => exact h.inj hk hk'

theorem notMem_next {rest : List RowKey}
    (h : l.Tended (⟨i, .commit txn, .locking taken (key :: rest)⟩ :: ws))
    (others : ∀ w ∈ ws, w.task ≠ i) (bounded : l.Bounded) : i ∉ l.users (l.fetch i key).1 := by
  intro hi
  obtain ⟨asked, keys, length⟩ := h.regular _ (.head _)
  obtain ⟨other, -⟩ | ⟨-, k, claim⟩ := h.used_cases others hi
  · exact other rfl
  have same : k = key := h.eq_of_lock?_fetch bounded (h.claimed _ (.head _) _ claim).1
  have early : k ∈ asked := by
    rw [Job.claims, Job.zip_asked keys length] at claim
    exact (List.of_mem_zip claim).1
  have nodup := txn.lockKeys_nodup
  rw [keys] at nodup
  exact (List.nodup_append.1 nodup).2.2 k early key (.head _) same

theorem nodup_concat {is : List TaskId} (once : is.Nodup) (new : i ∉ is) : (is ++ [i]).Nodup := by
  rw [List.nodup_append]
  refine ⟨once, List.nodup_singleton i, fun a ha b hb same => ?_⟩
  cases List.mem_singleton.1 hb
  subst same
  exact new ha

theorem fetch {rest : List RowKey}
    (h : l.Tended (⟨i, .commit txn, .locking taken (key :: rest)⟩ :: ws))
    (others : ∀ w ∈ ws, w.task ≠ i) (bounded : l.Bounded)
    (holds : ∀ n ∈ taken, l.holds i n = true) :
    (l.fetch i key).2.Tended (⟨i, .commit txn, .fetched taken (l.fetch i key).1 rest⟩ :: ws) := by
  obtain ⟨asked, keys, length⟩ := h.regular _ (.head _)
  have mine : ∀ p ∈ txn.lockKeys.zip taken, _ := h.claimed _ (.head _)
  have keeps (j : TaskId) : l.Keeps j (l.fetch i key).2 := .fetch bounded
  have claims : (Job.commit txn).claims (.fetched taken (l.fetch i key).1 rest) =
    txn.lockKeys.zip taken ++ [(key, (l.fetch i key).1)] := Job.zip_concat keys length _
  refine h.updateUsers others (fun n => RowLocks.queue_fetch) rfl (fun j _ => keeps j) ?_
    (fun n j hj => ?_) (fun n => ?_) (fun p hp => holds _ (List.of_mem_zip hp).2)
    (h.inj_fetch bounded) ?_ ⟨asked, key, keys, length⟩
  · rw [claims]
    refine List.forall_mem_append.2 ⟨fun p hp => (keeps i).refers (mine p hp),
      List.forall_mem_singleton.2 ⟨?_, ?_⟩⟩
    · rw [RowLocks.lock?_fetch, if_pos rfl]
    · rw [RowLocks.users_fetch bounded, if_pos rfl]
      exact List.mem_append_right _ (.head _)
  · rw [claims]
    have old (hj : j ∈ l.users n) : j ≠ i ∧ j ∈ l.users n ∨
        j = i ∧ ∃ k, (k, n) ∈ txn.lockKeys.zip taken ++ [(key, (l.fetch i key).1)] := by
      rcases h.used_cases others hj with other | ⟨me, k, claim⟩
      · exact .inl other
      · exact .inr ⟨me, k, List.mem_append_left _ claim⟩
    rw [RowLocks.users_fetch bounded] at hj
    split at hj
    next its =>
      rcases List.mem_append.1 hj with hj | hj
      · exact old hj
      · exact .inr ⟨List.mem_singleton.1 hj, key, List.mem_append_right _ (its ▸ .head _)⟩
    next => exact old hj
  · rw [RowLocks.users_fetch bounded]
    split
    next its => exact its ▸ nodup_concat (h.usedOnce _) (h.notMem_next others bounded)
    next => exact h.usedOnce n
  · intro k n hk
    rw [Job.untidied_fetched keys length, List.mem_append, List.mem_singleton]
    rw [RowLocks.lock?_fetch] at hk
    split at hk
    next same => exact .inl (.inr same)
    next => exact (h.kept_cases hk).imp_left .inl

theorem join {rest : List RowKey}
    (h : l.Tended (⟨i, .commit txn, .fetched taken lock rest⟩ :: ws))
    (others : ∀ w ∈ ws, w.task ≠ i) :
    (l.join i lock).Tended (⟨i, .commit txn, .locking (taken ++ [lock]) rest⟩ :: ws) := by
  obtain ⟨asked, key, keys, length⟩ := h.regular _ (.head _)
  have claims : (Job.commit txn).claims (.fetched taken lock rest) =
    txn.lockKeys.zip taken ++ [(key, lock)] := Job.zip_concat keys length lock
  have last : (key, lock) ∈ (Job.commit txn).claims (.fetched taken lock rest) :=
    claims.symm ▸ List.mem_append_right _ (.head _)
  have made := RowLocks.lt_of_mem_users (h.claimed _ (.head _) _ last).2
  have keeps (j : TaskId) : l.Keeps j (l.join i lock) := .join made
  have lined : (Job.commit txn).lined (.locking (taken ++ [lock]) rest) =
    txn.lockKeys.zip taken ++ [(key, lock)] := claims
  have new : i ∉ l.queue lock := fun hi => by
    obtain ⟨other, -⟩ | ⟨-, k, mem⟩ := h.queued_cases others hi
    · exact other rfl
    have early : (k, lock) ∈ txn.lockKeys.zip taken := mem
    have claim : (k, lock) ∈ (Job.commit txn).claims (.fetched taken lock rest) :=
      claims.symm ▸ List.mem_append_left _ early
    have sorted := (Job.commit txn).lined_sorted (.locking (taken ++ [lock]) rest)
    rw [lined, List.pairwise_append] at sorted
    have ne := (sorted.2.2 _ early _ (.head _)).2
    exact ne (congrArg Prod.fst (h.claims_inj (.head _) claim last rfl))
  refine h.updateQueue others (fun _ => rfl) (fun _ => RowLocks.users_join) rfl
    (fun j _ => keeps j) ?_ (fun n j hj => ?_) (fun n => ?_) ?_ ?_
    ⟨asked ++ [key], by rw [keys, List.append_assoc]; rfl, by simp [length]⟩
  · rw [lined]
    refine List.forall_mem_append.2 ⟨fun p hp => (keeps i).waits (h.lined _ (.head _) p hp),
      List.forall_mem_singleton.2 ?_⟩
    rw [RowLocks.queue_join made, if_pos rfl]
    exact List.mem_append_right _ (.head _)
  · rw [lined]
    have old (hj : j ∈ l.queue n) : j ≠ i ∧ j ∈ l.queue n ∨
        j = i ∧ ∃ k, (k, n) ∈ txn.lockKeys.zip taken ++ [(key, lock)] := by
      rcases h.queued_cases others hj with other | ⟨me, k, mem⟩
      · exact .inl other
      · exact .inr ⟨me, k, List.mem_append_left _ mem⟩
    rw [RowLocks.queue_join made] at hj
    split at hj
    next its =>
      rcases List.mem_append.1 hj with hj | hj
      · exact old hj
      · exact .inr ⟨List.mem_singleton.1 hj, key, List.mem_append_right _ (its ▸ .head _)⟩
    next => exact old hj
  · rw [RowLocks.queue_join made]
    split
    next its => exact its ▸ nodup_concat (h.queuedOnce _) new
    next => exact h.queuedOnce n
  · change ∀ p ∈ (txn.lockKeys.zip (taken ++ [_])).dropLast, _
    rw [Job.zip_concat keys length, List.dropLast_concat]
    exact fun p hp => (keeps i).holds (h.secured _ (.head _) p hp)
  · intro k hk
    rwa [Job.untidied, List.length_append, List.length_singleton]

theorem logging (h : l.Tended (⟨i, .commit txn, .locking taken []⟩ :: ws))
    (others : ∀ w ∈ ws, w.task ≠ i) (holds : ∀ n ∈ taken, l.holds i n = true) :
    l.Tended (⟨i, .commit txn, .logging taken⟩ :: ws) := by
  obtain ⟨asked, keys, length⟩ := h.regular _ (.head _)
  refine h.stay others rfl rfl (fun p hp => holds _ (List.of_mem_zip hp).2)
    (List.take_subset _ _) ?_
  rw [Job.Regular, keys, List.append_nil, length]

theorem unlocking {result : Except CommitError Nat}
    (h : l.Tended (⟨i, .commit txn, .logging taken⟩ :: ws)) (others : ∀ w ∈ ws, w.task ≠ i) :
    l.Tended (⟨i, .commit txn, .unlocking taken result⟩ :: ws) := by
  have length : taken.length = txn.lockKeys.length := h.regular _ (.head _)
  have same := Job.claims_unlocking_of_length length result
  refine h.stay others same same ?_ (List.Subset.refl _) (Nat.le_of_eq length)
  change ∀ p ∈ (Job.commit txn).claims (.unlocking taken result), _
  rw [same]
  exact h.secured _ (.head _)

theorem release {result : Except CommitError Nat}
    (h : l.Tended (⟨i, .commit txn, .unlocking (lock :: taken) result⟩ :: ws))
    (others : ∀ w ∈ ws, w.task ≠ i) :
    (l.leave i lock).Tended (⟨i, .commit txn, .released lock taken result⟩ :: ws) := by
  have regular : taken.length < txn.lockKeys.length := h.regular _ (.head _)
  obtain ⟨key, claims⟩ := Job.claims_released lock regular result
  have before : (Job.commit txn).claims (.unlocking (lock :: taken) result) = _ := claims
  have lined := h.lined _ (.head _)
  have secured := h.secured _ (.head _)
  have sorted := (Job.commit txn).claims_sorted (.released lock taken result)
  simp only [Job.secured, Job.lined, before, List.forall_mem_cons] at lined secured
  rw [claims, List.pairwise_cons] at sorted
  -- no other row has this lock
  have apart : ∀ p ∈ (Job.commit txn).claims (.unlocking taken result), p.2 ≠ lock :=
    fun p hp same => (sorted.1 p hp).2 (congrArg Prod.fst
      (h.claims_inj (.head _) (before.symm ▸ .tail _ hp) (before.symm ▸ .head _) same)).symm
  have queue {n : Nat} (other : n ≠ lock) : (l.leave i lock).queue n = l.queue n := by
    rw [RowLocks.queue_leave, if_neg other]
  refine h.updateQueue others (fun _ => rfl) (fun _ => RowLocks.users_leave) rfl
    (fun j other => .leave other) (fun p hp => ?_) (fun n j hj => ?_) (fun n => ?_)
    (fun p hp => ?_) (List.Subset.refl _) regular
  · rw [queue (apart p hp)]
    exact lined.2 p hp
  · by_cases other : n = lock
    · subst other
      rw [RowLocks.queue_leave, if_pos rfl, (h.queuedOnce n).mem_erase_iff] at hj
      exact .inl hj
    · rw [queue other] at hj
      rcases h.queued_cases others hj with others | ⟨me, k, mem⟩
      · exact .inl others
      · have claim : (k, n) ∈ (Job.commit txn).claims (.unlocking (lock :: taken) result) := mem
        rw [before] at claim
        refine .inr ⟨me, k, (List.mem_cons.1 claim).resolve_left fun same => other ?_⟩
        exact congrArg Prod.snd same
  · rw [RowLocks.queue_leave]
    split
    next => exact (h.queuedOnce n).erase i
    next => exact h.queuedOnce n
  · rw [RowLocks.holds, queue (apart p hp)]
    exact secured.2 p hp

theorem drop {result : Except CommitError Nat}
    (h : l.Tended (⟨i, .commit txn, .released lock taken result⟩ :: ws))
    (others : ∀ w ∈ ws, w.task ≠ i) :
    (l.drop i lock).Tended (⟨i, .commit txn, .unlocking taken result⟩ :: ws) := by
  have regular : taken.length < txn.lockKeys.length := h.regular _ (.head _)
  obtain ⟨key, claims⟩ := Job.claims_released lock regular result
  have mine := h.claimed _ (.head _)
  have sorted := (Job.commit txn).claims_sorted (.released lock taken result)
  simp only [claims, List.forall_mem_cons] at mine
  rw [claims, List.pairwise_cons] at sorted
  have apart : ∀ p ∈ (Job.commit txn).claims (.unlocking taken result), p.2 ≠ lock :=
    fun p hp same => (sorted.1 p hp).2 (congrArg Prod.fst
      (h.claims_inj (.head _) (claims.symm ▸ .tail _ hp) (claims.symm ▸ .head _) same)).symm
  have users {n : Nat} (other : n ≠ lock) : (l.drop i lock).users n = l.users n := by
    rw [RowLocks.users_drop, if_neg other]
  refine h.updateUsers others (fun _ => RowLocks.queue_drop) rfl (fun j other => .drop other)
    (fun p hp => ?_) (fun n j hj => ?_) (fun n => ?_) (h.secured _ (.head _)) h.inj h.kept_cases
    (Nat.le_of_lt regular)
  · rw [RowLocks.Refers, users (apart p hp)]
    exact mine.2 p hp
  · by_cases other : n = lock
    · subst other
      rw [RowLocks.users_drop, if_pos rfl, (h.usedOnce n).mem_erase_iff] at hj
      exact .inl hj
    · rw [users other] at hj
      rcases h.used_cases others hj with others | ⟨me, k, claim⟩
      · exact .inl others
      · rw [claims] at claim
        refine .inr ⟨me, k, (List.mem_cons.1 claim).resolve_left fun same => other ?_⟩
        exact congrArg Prod.snd same
  · rw [RowLocks.users_drop]
    split
    next => exact (h.usedOnce n).erase i
    next => exact h.usedOnce n

theorem tidy {rest : List RowKey} {result : Except CommitError Nat}
    (h : l.Tended (⟨i, .commit txn, .tidying (key :: rest) result⟩ :: ws))
    (others : ∀ w ∈ ws, w.task ≠ i) :
    (l.tidy key).Tended (⟨i, .commit txn, .tidying rest result⟩ :: ws) := by
  have regular : key :: rest <:+ txn.lockKeys := h.regular _ (.head _)
  refine h.updateUsers others (fun _ => RowLocks.queue_tidy) rfl (fun j other => .tidy)
    (List.forall_mem_nil _) (fun n j hj => h.used_cases others (by rwa [users_tidy] at hj))
    (fun n => by rw [users_tidy]; exact h.usedOnce n) (List.forall_mem_nil _) (fun hk hk' => ?_)
    (fun {k n} hk => ?_) ((List.suffix_cons key rest).trans regular)
  · exact h.inj (RowLocks.lock?_tidy.1 hk).1 (RowLocks.lock?_tidy.1 hk').1
  · obtain ⟨found, needed⟩ := RowLocks.lock?_tidy.1 hk
    by_cases same : k = key
    · -- who has a reference has asked for the lock, and will tidy up
      obtain ⟨j, hj⟩ := List.exists_mem_of_ne_nil _ (needed same)
      obtain ⟨w, hw, task, claim⟩ := h.claim_of_used found hj
      rcases List.mem_cons.1 hw with rfl | hw
      · cases claim
      · exact .inr ⟨w, hw, Job.mem_untidied claim⟩
    · rcases h.kept_cases found with mine | other
      · exact .inl ((List.mem_cons.1 mine).resolve_left same)
      · exact .inr other

end RowLocks.Tended

namespace SharedStore

variable {s s' : SharedStore} {ws : List Worker} {i : TaskId} {job : Job} {stage stage' : Stage}

theorem Moves.tended (step : s.Moves i job stage s' stage')
    (guarded : s.Guarded (⟨i, job, stage⟩ :: ws)) (h : s.rows.Tended (⟨i, job, stage⟩ :: ws)) :
    s'.rows.Tended (⟨i, job, stage'⟩ :: ws) := by
  have others : ∀ w ∈ ws, w.task ≠ i := fun w hw => guarded.other hw
  have regular := h.regular _ (.head _)
  have secured := h.secured _ (.head _)
  cases step with
  | skip | share | finish | claim | snapshot | compacted | count | counted =>
    exact h.idle others ⟨rfl, rfl⟩ ⟨rfl, rfl⟩ (List.nil_subset _) trivial
  | enter =>
    exact h.idle others ⟨rfl, rfl⟩ ⟨List.zip_nil_right, List.zip_nil_right⟩ (List.nil_subset _)
      ⟨[], rfl, rfl⟩
  | fetch holds => exact h.fetch others guarded.bounded (List.all_eq_true.1 holds)
  | lock => exact h.join others
  | refuse holds => exact (h.logging others (List.all_eq_true.1 holds)).unlocking others
  | pass holds => exact h.logging others (List.all_eq_true.1 holds)
  | logged => exact h.stay others rfl rfl secured (List.Subset.refl _) regular
  | lost => exact h.unlocking others
  | @write txn taken c =>
    -- for the locks it is as if the log had just answered
    have answered : s.rows.Tended (⟨i, .commit txn, .logging taken⟩ :: ws) :=
      h.stay others rfl rfl secured (List.Subset.refl _) regular
    exact answered.unlocking others
  | unlock => exact h.release others
  | drop => exact h.drop others
  | leave =>
    exact h.idle others ⟨List.zip_nil_right, List.zip_nil_right⟩ ⟨rfl, rfl⟩ (List.Subset.refl _)
      List.suffix_rfl
  | tidy => exact h.tidy others

theorem Moves.sharing_cases (step : s.Moves i job stage s' stage') :
    s'.sharing = s.sharing ∧ job.hold? stage' = job.hold? stage ∨
      (∃ hold, s'.sharing = s.sharing.join i hold ∧ job.hold? stage' = some hold) ∨
      s'.sharing = s.sharing.leave i ∧ job.hold? stage' = none := by
  cases step with
  | share => exact .inr (.inl ⟨.shared, rfl, rfl⟩)
  | claim => exact .inr (.inl ⟨.exclusive, rfl, rfl⟩)
  | leave | compacted => exact .inr (.inr ⟨rfl, rfl⟩)
  | _ => exact .inl ⟨rfl, rfl⟩

end SharedStore

theorem Job.hold?_start (job : Job) : job.hold? .start = none := by cases job <;> rfl

theorem Job.hold?_finished (job : Job) (result : Except CommitError Nat) :
    job.hold? (.finished result) = none := by cases job <;> rfl

namespace Workshop

variable {may : TaskId → Job → Prop} {S S' : Workshop}

/-- The locks say what those who are there need. -/
structure Orderly (S : Workshop) : Prop where
  sound : S.Sound
  tended : S.shared.rows.Tended S.crew
  lined : ∀ w ∈ S.crew, ∀ hold, w.job.hold? w.stage = some hold →
    (w.task, hold) ∈ S.shared.sharing.queue

theorem Orderly.rest (store : Store) : (rest store).Orderly where
  sound := .rest store
  tended := .none
  lined := List.forall_mem_nil _

theorem Orderly.perm (h : S.Orderly) {crew : List Worker} (hp : S.crew.Perm crew) :
    Orderly { S with crew } where
  sound := h.sound.perm hp
  tended := h.tended.perm hp
  lined w hw := h.lined w (hp.mem_iff.2 hw)

theorem Orderly.step (hs : S.Orderly) (h : Step may S S') : S'.Orderly := by
  have sound := h.sound hs.sound
  cases h with
  | @start i job fresh _ =>
    refine ⟨sound, hs.tended.start, List.forall_mem_cons.2 ⟨fun hold some => ?_, hs.lined⟩⟩
    rw [Job.hold?_start] at some
    cases some
  | @work others i job stage stage' shared hp step =>
    obtain ⟨⟨guarded, -⟩, tended, lined⟩ := hs.perm hp
    obtain ⟨mine, theirs⟩ := List.forall_mem_cons.1 lined
    have others : ∀ w ∈ others, w.task ≠ i := fun w hw => guarded.other hw
    rcases SharedStore.step_cases step with ⟨txn, taken, w, rest, rfl, rfl, rfl, rfl⟩ | ⟨moves, -⟩
    · refine ⟨sound, ?_, List.forall_mem_cons.2 ⟨mine, theirs⟩⟩
      exact tended.stay others rfl rfl (tended.secured _ (.head _)) (List.Subset.refl _)
        (tended.regular _ (.head _))
    · refine ⟨sound, moves.tended guarded tended, ?_⟩
      rcases moves.sharing_cases with ⟨same, hold⟩ | ⟨hold, joined, some⟩ | ⟨left, none⟩
      · rw [same]
        exact List.forall_mem_cons.2 ⟨fun k hk => mine k (hold ▸ hk), theirs⟩
      · rw [joined]
        refine List.forall_mem_cons.2 ⟨fun k hk => List.mem_append_right _ ?_,
          fun w hw k hk => List.mem_append_left _ (theirs w hw k hk)⟩
        cases some.symm.trans hk
        exact .head _
      · rw [left]
        refine List.forall_mem_cons.2 ⟨fun k hk => ?_, fun w hw k hk => ?_⟩
        · cases none.symm.trans hk
        · exact List.mem_filter.2 ⟨theirs w hw k hk, decide_eq_true (others w hw)⟩
  | retire hp =>
    obtain ⟨-, tended, lined⟩ := hs.perm hp
    exact ⟨sound, tended.retire, (List.forall_mem_cons.1 lined).2⟩
  | log => exact ⟨sound, hs.tended, hs.lined⟩

theorem Orderly.steps (hs : S.Orderly) (h : Steps may S S') : S'.Orderly := by
  induction h with
  | refl => exact hs
  | tail _ step ih => exact ih.step step

/-! ### Who has a row -/

/-- The commit has been given the lock of this row and has not released it. -/
def Has (S : Workshop) (w : Worker) (key : RowKey) : Prop :=
  ∃ lock, (key, lock) ∈ w.job.lined w.stage ∧
    ((key, lock) ∈ w.job.secured w.stage ∨ S.shared.rows.holds w.task lock = true)

theorem Orderly.has_inj (h : S.Orderly) {w w' : Worker} (hw : w ∈ S.crew) (hw' : w' ∈ S.crew)
    {key : RowKey} (has : S.Has w key) (has' : S.Has w' key) : w = w' := by
  have holds {w : Worker} (hw : w ∈ S.crew) (has : S.Has w key) : ∃ lock,
      S.shared.rows.lock? key = some lock ∧ S.shared.rows.holds w.task lock = true := by
    obtain ⟨lock, lined, passed⟩ := has
    have claim := Job.lined_subset (h.tended.regular w hw) lined
    exact ⟨lock, (h.tended.claimed w hw _ claim).1, passed.elim (h.tended.secured w hw _) id⟩
  obtain ⟨lock, found, first⟩ := holds hw has
  obtain ⟨lock', found', second⟩ := holds hw' has'
  cases found.symm.trans found'
  exact h.sound.guarded.eq_of_task hw hw' (RowLocks.holds_inj first second)

/-- Every entry is for a row that some commit has asked for, and behind which it will tidy up. -/
theorem Orderly.exists_untidied (h : S.Orderly) {key : RowKey} {lock : Nat}
    (entry : (key, lock) ∈ S.shared.rows.entries) : ∃ w ∈ S.crew, ∃ txn,
      w.job = .commit txn ∧ key ∈ txn.lockKeys ∧ key ∈ w.job.untidied w.stage := by
  have some : (S.shared.rows.lock? key).isSome :=
    List.lookup_isSome_iff.2 ⟨_, entry, beq_self_eq_true key⟩
  obtain ⟨lock, found⟩ := Option.isSome_iff_exists.1 some
  obtain ⟨w, hw, untidied⟩ := h.tended.kept found
  obtain ⟨txn, job, locked⟩ := Job.untidied_subset (h.tended.regular w hw) untidied
  exact ⟨w, hw, txn, job, locked, untidied⟩

end Workshop

end Carpark
