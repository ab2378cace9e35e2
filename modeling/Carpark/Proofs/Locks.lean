import Carpark.Store.Shared
import Mathlib.Data.List.Nodup
import Mathlib.Data.List.TakeWhile

/-!
Who holds a lock goes on holding it whatever the others do, until it leaves. Whoever holds the
shared lock exclusively is alone with it, and a row lock has one holder.
-/

namespace Carpark

/-! ### The shared lock -/

namespace SharedLock

variable {l : SharedLock} {i j : TaskId} {h : Hold}

theorem holds_iff : l.holds i = true ↔
    ∃ before h after, l.queue = before ++ (i, h) :: after ∧
      ∀ p ∈ before, p.1 ≠ i ∧ h = .shared ∧ p.2 = .shared := by
  constructor
  · intro hi
    have split := List.takeWhile_append_dropWhile (p := (·.1 ≠ i)) (l := l.queue)
    have others : ∀ p ∈ l.queue.takeWhile (·.1 ≠ i), p.1 ≠ i := fun p hp => by
      simpa using List.mem_takeWhile_imp hp
    have first := List.head?_dropWhile_not (·.1 ≠ i) l.queue
    rw [holds] at hi
    generalize l.queue.takeWhile (·.1 ≠ i) = before at *
    generalize l.queue.dropWhile (·.1 ≠ i) = rest at *
    cases rest with
    | nil => cases hi
    | cons q after =>
      obtain ⟨j, h⟩ := q
      obtain rfl : j = i := by simpa using first
      refine ⟨before, h, after, split.symm, fun p hp => ⟨others p hp, ?_⟩⟩
      cases h with
      | exclusive =>
        rw [List.isEmpty_iff] at hi
        rw [hi] at hp
        cases hp
      | shared => exact ⟨rfl, by simpa using List.all_eq_true.1 hi p hp⟩
  · rintro ⟨before, h, after, hq, others⟩
    have apart : ∀ p ∈ before, decide (p.1 ≠ i) = true := fun p hp => by simpa using (others p hp).1
    have taken : l.queue.takeWhile (·.1 ≠ i) = before := by
      rw [hq, List.takeWhile_append_of_pos apart]
      simp
    have dropped : l.queue.dropWhile (·.1 ≠ i) = (i, h) :: after := by
      rw [hq, List.dropWhile_append_of_pos apart]
      simp
    rw [holds, dropped, taken]
    cases h with
    | exclusive =>
      rw [List.isEmpty_iff]
      exact List.eq_nil_iff_forall_not_mem.2 fun p hp => by cases (others p hp).2.1
    | shared => exact List.all_eq_true.2 fun p hp => by simp [(others p hp).2.2]

theorem mem_queue_of_holds (hi : l.holds i = true) : ∃ h, (i, h) ∈ l.queue := by
  obtain ⟨before, h, after, hq, -⟩ := holds_iff.1 hi
  exact ⟨h, by simp [hq]⟩

theorem holds_join (hi : l.holds i = true) : (l.join j h).holds i = true := by
  obtain ⟨before, k, after, hq, others⟩ := holds_iff.1 hi
  exact holds_iff.2 ⟨before, k, after ++ [(j, h)], by simp [join, hq], others⟩

theorem holds_leave (hi : l.holds i = true) (hj : i ≠ j) : (l.leave j).holds i = true := by
  obtain ⟨before, k, after, hq, others⟩ := holds_iff.1 hi
  exact holds_iff.2 ⟨before.filter (·.1 ≠ j), k, after.filter (·.1 ≠ j), by simp [leave, hq, hj],
    fun p hp => others p (List.mem_filter.1 hp).1⟩

theorem holds_alone (nodup : (l.queue.map Prod.fst).Nodup) (hi : l.holds i = true)
    (alone : (i, .exclusive) ∈ l.queue) (hj : l.holds j = true) : j = i := by
  obtain ⟨before, h, after, hq, others⟩ := holds_iff.1 hi
  have exclusive : h = .exclusive := by
    have mem : (i, h) ∈ l.queue := by simp [hq]
    exact congrArg Prod.snd (List.inj_on_of_nodup_map nodup mem alone rfl)
  have first : before = [] := List.eq_nil_iff_forall_not_mem.2 fun p hp => by
    cases exclusive.symm.trans (others p hp).2.1
  obtain ⟨before', h', after', hq', others'⟩ := holds_iff.1 hj
  rw [first, exclusive, List.nil_append] at hq
  cases before' with
  | nil => cases hq.symm.trans hq'; rfl
  | cons p before' =>
    cases hq.symm.trans hq'
    cases (others' _ (.head _)).2.2

end SharedLock

/-! ### Row locks -/

namespace RowLocks

variable {l l' : RowLocks} {i j : TaskId} {key k : RowKey} {lock n : Nat}
  {f : List TaskId → List TaskId}

def Bounded (l : RowLocks) : Prop := ∀ key lock, l.lock? key = some lock → lock < l.locks.length

def Refers (l : RowLocks) (i : TaskId) (key : RowKey) (lock : Nat) : Prop :=
  l.lock? key = some lock ∧ i ∈ l.users lock

theorem holds_inj (hi : l.holds i lock = true) (hj : l.holds j lock = true) : i = j :=
  Option.some.inj ((of_decide_eq_true hi).symm.trans (of_decide_eq_true hj))

theorem lt_of_mem_users (h : i ∈ l.users lock) : lock < l.locks.length := by
  by_contra gt
  rw [users, List.getElem?_eq_none (Nat.le_of_not_lt gt)] at h
  cases h

theorem lt_of_refers {keys : List RowKey} {taken : List Nat}
    (h : List.Forall₂ (l.Refers i) keys taken) : ∀ lock ∈ taken, lock < l.locks.length := by
  induction h with
  | nil => exact List.forall_mem_nil _
  | cons refers _ ih => exact List.forall_mem_cons.2 ⟨lt_of_mem_users refers.2, ih⟩

/-! #### References and queues -/

theorem users_modifyUsers (h : lock < l.locks.length ∨ f [] = []) :
    (l.modifyUsers lock f).users n = if n = lock then f (l.users n) else l.users n := by
  simp only [modifyUsers, users, List.getElem?_modify]
  by_cases hn : n = lock
  · subst hn
    cases found : l.locks[n]? with
    | some r => simp
    | none =>
      have empty := h.resolve_left (Nat.not_lt.2 (List.getElem?_eq_none_iff.1 found))
      simp [empty]
  · simp [hn, Ne.symm hn]

theorem queue_modifyQueue (h : lock < l.locks.length ∨ f [] = []) :
    (l.modifyQueue lock f).queue n = if n = lock then f (l.queue n) else l.queue n := by
  simp only [modifyQueue, queue, List.getElem?_modify]
  by_cases hn : n = lock
  · subst hn
    cases found : l.locks[n]? with
    | some r => simp
    | none =>
      have empty := h.resolve_left (Nat.not_lt.2 (List.getElem?_eq_none_iff.1 found))
      simp [empty]
  · simp [hn, Ne.symm hn]

@[simp] theorem queue_modifyUsers : (l.modifyUsers lock f).queue n = l.queue n := by
  simp only [modifyUsers, queue, List.getElem?_modify]
  split <;> cases l.locks[n]? <;> rfl

@[simp] theorem users_modifyQueue : (l.modifyQueue lock f).users n = l.users n := by
  simp only [modifyQueue, users, List.getElem?_modify]
  split <;> cases l.locks[n]? <;> rfl

theorem lock?_fetch : (l.fetch i key).2.lock? k =
    if k = key then some (l.fetch i key).1 else l.lock? k := by
  cases h : l.lock? key with
  | some lock =>
    simp only [fetch, h]
    split
    next hk => exact hk ▸ h
    next => rfl
  | none =>
    simp only [fetch, h]
    simp only [lock?, List.lookup_cons]
    by_cases hk : k = key
    · simp [hk]
    · simp [hk, beq_eq_false_iff_ne.2 hk]

theorem users_fetch (bounded : l.Bounded) : (l.fetch i key).2.users n =
    if n = (l.fetch i key).1 then l.users n ++ [i] else l.users n := by
  cases h : l.lock? key with
  | some lock =>
    simp only [fetch, h]
    exact users_modifyUsers (.inl (bounded key lock h))
  | none =>
    simp only [fetch, h, users]
    rcases Nat.lt_trichotomy n l.locks.length with lt | rfl | gt
    · rw [List.getElem?_append_left lt, if_neg (Nat.ne_of_lt lt)]
    · simp
    · rw [if_neg (Nat.ne_of_gt gt), List.getElem?_eq_none (Nat.le_of_lt gt),
        List.getElem?_eq_none (by simpa using Nat.succ_le_of_lt gt)]

@[simp] theorem queue_fetch : (l.fetch i key).2.queue n = l.queue n := by
  cases h : l.lock? key with
  | some lock =>
    simp only [fetch, h]
    exact queue_modifyUsers
  | none =>
    simp only [fetch, h, queue]
    rcases Nat.lt_trichotomy n l.locks.length with lt | rfl | gt
    · rw [List.getElem?_append_left lt]
    · simp
    · rw [List.getElem?_eq_none (Nat.le_of_lt gt),
        List.getElem?_eq_none (by simpa using Nat.succ_le_of_lt gt)]

theorem queue_join (made : lock < l.locks.length) : (l.join i lock).queue n =
    if n = lock then l.queue n ++ [i] else l.queue n := queue_modifyQueue (.inl made)

theorem queue_leave : (l.leave i lock).queue n =
    if n = lock then (l.queue n).erase i else l.queue n := queue_modifyQueue (.inr rfl)

theorem users_drop : (l.drop i lock).users n =
    if n = lock then (l.users n).erase i else l.users n := users_modifyUsers (.inr rfl)

@[simp] theorem users_join : (l.join i lock).users n = l.users n := users_modifyQueue

@[simp] theorem users_leave : (l.leave i lock).users n = l.users n := users_modifyQueue

@[simp] theorem queue_drop : (l.drop i lock).queue n = l.queue n := queue_modifyUsers

theorem lookup_filter_ne {α β : Type} [DecidableEq α] (l : List (α × β)) (a b : α) :
    (l.filter (·.1 ≠ a)).lookup b = if b = a then Option.none else l.lookup b := by
  induction l with
  | nil => simp
  | cons p l ih =>
    obtain ⟨c, v⟩ := p
    by_cases hc : c = a
    · subst hc
      rw [List.filter_cons_of_neg (by simp), ih, List.lookup_cons]
      by_cases hb : b = c
      · simp [hb]
      · simp [hb, beq_eq_false_iff_ne.2 hb]
    · rw [List.filter_cons_of_pos (by simpa using hc), List.lookup_cons, List.lookup_cons, ih]
      by_cases hb : b = c
      · simp [hb, hc]
      · simp [beq_eq_false_iff_ne.2 hb]

theorem locks_tidy : (l.tidy key).locks = l.locks := by
  rw [tidy]
  split
  next => split <;> rfl
  next => rfl

@[simp] theorem users_tidy : (l.tidy key).users n = l.users n := by rw [users, locks_tidy, users]

@[simp] theorem queue_tidy : (l.tidy key).queue n = l.queue n := by rw [queue, locks_tidy, queue]

/-- An entry is dropped if and only if nobody has a reference to the lock. -/
theorem lock?_tidy : (l.tidy key).lock? k = some n ↔
    l.lock? k = some n ∧ (k = key → l.users n ≠ []) := by
  cases found : l.lock? key with
  | none =>
    have same : l.tidy key = l := by rw [tidy, found]
    rw [same, iff_self_and]
    rintro some rfl
    cases found.symm.trans some
  | some lock =>
    by_cases empty : l.users lock = []
    · have gone : (l.tidy key).lock? k = if k = key then Option.none else l.lock? k := by
        simp only [tidy, found, empty, List.isEmpty_nil, ↓reduceIte]
        exact lookup_filter_ne l.entries key k
      rw [gone]
      split
      next same =>
        rw [same, found]
        refine iff_of_false (Option.some_ne_none n).symm fun kept => ?_
        cases kept.1
        exact kept.2 rfl empty
      next other => exact (and_iff_left fun same => absurd same other).symm
    · have same : l.tidy key = l := by
        rw [tidy, found]
        simp only [List.isEmpty_iff, empty, ↓reduceIte]
      rw [same, iff_self_and]
      rintro some rfl
      cases found.symm.trans some
      exact empty

namespace Bounded

theorem none : RowLocks.none.Bounded := fun _ _ h => by cases h

theorem modifyUsers (h : l.Bounded) : (l.modifyUsers lock f).Bounded := by
  intro k n hn
  rw [RowLocks.modifyUsers, List.length_modify]
  exact h k n hn

theorem modifyQueue (h : l.Bounded) : (l.modifyQueue lock f).Bounded := by
  intro k n hn
  rw [RowLocks.modifyQueue, List.length_modify]
  exact h k n hn

theorem fetch (h : l.Bounded) : (l.fetch i key).2.Bounded := by
  cases hkey : l.lock? key with
  | some old =>
    simp only [RowLocks.fetch, hkey]
    exact h.modifyUsers
  | none =>
    intro k lock hlock
    rw [lock?_fetch] at hlock
    simp only [RowLocks.fetch, hkey, List.length_append, List.length_singleton] at hlock ⊢
    split at hlock
    next => exact Option.some.inj hlock ▸ Nat.lt_succ_self _
    next => exact Nat.lt_succ_of_lt (h k lock hlock)

theorem tidy (h : l.Bounded) : (l.tidy key).Bounded := by
  intro k n hn
  rw [locks_tidy]
  exact h k n (lock?_tidy.1 hn).1

end Bounded

structure Keeps (i : TaskId) (l l' : RowLocks) : Prop where
  refers : ∀ {k n}, l.Refers i k n → l'.Refers i k n
  waits : ∀ {n}, i ∈ l.queue n → i ∈ l'.queue n
  holds : ∀ {n}, l.holds i n = true → l'.holds i n = true

namespace Keeps

theorem refl : Keeps i l l := ⟨id, id, id⟩

theorem of_queue (refers : ∀ {k n}, l.Refers i k n → l'.Refers i k n)
    (queue : ∀ n, l'.queue n = l.queue n) : Keeps i l l' where
  refers := refers
  waits hi := queue _ ▸ hi
  holds hi := by rwa [RowLocks.holds, queue]

theorem fetch (bounded : l.Bounded) : Keeps i l (l.fetch j key).2 := by
  refine of_queue (fun {k n} ⟨hk, hi⟩ => ⟨?_, ?_⟩) fun n => queue_fetch
  · rw [lock?_fetch]
    split
    next same =>
      rw [same] at hk
      simp [RowLocks.fetch, hk]
    next => exact hk
  · rw [users_fetch bounded]
    split
    next => exact List.mem_append_left _ hi
    next => exact hi

theorem join (made : lock < l.locks.length) : Keeps i l (l.join j lock) where
  refers h := ⟨h.1, users_join.symm ▸ h.2⟩
  waits := by
    intro n hi
    rw [queue_join made]
    split
    next => exact List.mem_append_left _ hi
    next => exact hi
  holds := by
    intro n hi
    have head := of_decide_eq_true hi
    rw [RowLocks.holds, decide_eq_true_eq, queue_join made]
    split
    next => rw [List.head?_append, head, Option.some_or]
    next => exact head

theorem leave (other : i ≠ j) : Keeps i l (l.leave j lock) where
  refers h := ⟨h.1, users_leave.symm ▸ h.2⟩
  waits := by
    intro n hi
    rw [queue_leave]
    split
    next => exact (List.mem_erase_of_ne other).2 hi
    next => exact hi
  holds := by
    intro n hi
    have head := of_decide_eq_true hi
    rw [RowLocks.holds, decide_eq_true_eq, queue_leave]
    split
    next =>
      obtain ⟨rest, hq⟩ := List.head?_eq_some_iff.1 head
      rw [hq, List.erase_cons_tail (by simpa using other), List.head?_cons]
    next => exact head

theorem drop (other : i ≠ j) : Keeps i l (l.drop j lock) := by
  refine of_queue (fun {k n} ⟨hk, hi⟩ => ⟨hk, ?_⟩) fun n => queue_drop
  rw [users_drop]
  split
  next => exact (List.mem_erase_of_ne other).2 hi
  next => exact hi

theorem tidy : Keeps i l (l.tidy key) := by
  refine of_queue (fun {k n} ⟨hk, hi⟩ => ⟨lock?_tidy.2 ⟨hk, fun _ => ?_⟩, ?_⟩) fun n => queue_tidy
  · exact List.ne_nil_of_mem hi
  · rwa [users_tidy]

end Keeps

end RowLocks

end Carpark
