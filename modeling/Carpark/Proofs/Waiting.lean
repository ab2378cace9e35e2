import Carpark.Proofs.LockTable
import Mathlib.Data.Fintype.Card
import Mathlib.Data.Set.Finite.List

/-!
Who waits for whom. Commits take the locks of rows in one order, each of them after it has got
through the shared lock, and every lock is given to those who wait for it in the order in which they
came. So nobody waits for itself, however many others there are in between, and whoever waits for a
lock waits in the end for someone who does not.
-/

namespace Carpark

open Relation

def Precedes (queue : List TaskId) (i j : TaskId) : Prop := queue.idxOf i < queue.idxOf j

namespace Precedes

variable {queue : List TaskId} {i j : TaskId}

theorem mem (h : Precedes queue i j) : i ∈ queue :=
  List.idxOf_lt_length_iff.1 (Nat.lt_of_lt_of_le h List.idxOf_le_length)

theorem of_head (hi : i ∈ queue) (other : queue.head? ≠ some i) :
    ∃ j ∈ queue, Precedes queue j i := by
  cases queue with
  | nil => cases hi
  | cons j queue =>
    have ne : j ≠ i := fun same => other (congrArg some same)
    refine ⟨j, .head _, ?_⟩
    rw [Precedes, List.idxOf_cons_self, List.idxOf_cons_ne queue ne]
    exact Nat.succ_pos _

end Precedes

theorem RowLocks.ahead_of_holds {l : RowLocks} {i j : TaskId} {lock : Nat}
    (waits : l.holds i lock = false) (holds : l.holds j lock = true) :
    Precedes (l.queue lock) j i := by
  obtain ⟨rest, queue⟩ := List.head?_eq_some_iff.1 (of_decide_eq_true holds)
  have ne : j ≠ i := fun same => by cases waits.symm.trans (same ▸ holds)
  rw [queue, Precedes, List.idxOf_cons_self, List.idxOf_cons_ne rest ne]
  exact Nat.succ_pos _

theorem SharedLock.holds_of_head {l : SharedLock} {i : TaskId}
    (first : (l.queue.map Prod.fst).head? = some i) : l.holds i = true := by
  rw [List.head?_map, Option.map_eq_some_iff] at first
  obtain ⟨⟨_, hold⟩, first, rfl⟩ := first
  obtain ⟨rest, queue⟩ := List.head?_eq_some_iff.1 first
  exact holds_iff.2 ⟨[], hold, rest, queue, List.forall_mem_nil _⟩

theorem SharedLock.ahead_of_holds {l : SharedLock} {i j : TaskId}
    (once : (l.queue.map Prod.fst).Nodup) (waits : l.holds i = false) (holds : l.holds j = true) :
    Precedes (l.queue.map Prod.fst) j i := by
  obtain ⟨before, hold, after, queue, others⟩ := holds_iff.1 holds
  have ne : j ≠ i := fun same => by cases waits.symm.trans (same ▸ holds)
  -- if it came later, the other one would have the lock as well
  have early : i ∉ before.map Prod.fst := fun came => by
    obtain ⟨⟨_, hold'⟩, mem, rfl⟩ := List.mem_map.1 came
    obtain ⟨first, rest, rfl⟩ := List.append_of_mem mem
    rw [queue, List.append_assoc, List.cons_append, List.map_append, List.nodup_append] at once
    have shared := others _ mem
    refine Bool.eq_false_iff.1 waits
      (holds_iff.2 ⟨first, hold', rest ++ (j, hold) :: after, ?_, fun p hp => ?_⟩)
    · rw [queue, List.append_assoc, List.cons_append]
    · exact ⟨once.2.2 _ (List.mem_map_of_mem hp) _ (.head _), shared.2.2,
        (others p (List.mem_append_left _ hp)).2.2⟩
  have notMine : j ∉ before.map Prod.fst := fun mem => by
    obtain ⟨p, hp, same⟩ := List.mem_map.1 mem
    exact (others p hp).1 same
  rw [queue, Precedes, List.map_append, List.map_cons, List.idxOf_append_of_notMem notMine,
    List.idxOf_append_of_notMem early, List.idxOf_cons_self, List.idxOf_cons_ne _ ne]
  omega

theorem SharedStore.cases_of_stuck {s : SharedStore} {i : TaskId} {job : Job} {stage : Stage}
    (regular : job.Regular stage) (stuck : s.step i job stage = none) :
    (∃ result, stage = .finished result) ∨
      (∃ taken, stage = .logging taken ∧ s.answer? i = none) ∨
      (stage = .joined ∧ (∃ hold, job.hold? stage = some hold) ∧ s.sharing.holds i = false) ∨
      ∃ txn taken rest, job = .commit txn ∧ stage = .locking taken rest ∧
        s.holdsAll i taken = false := by
  cases job with
  | commit txn =>
    cases stage with
    | finished result => exact .inl ⟨result, rfl⟩
    | logging taken => exact .inr (.inl ⟨taken, rfl, Option.map_eq_none_iff.1 stuck⟩)
    | joined =>
      simp only [step, stepCommit] at stuck
      split at stuck
      next => cases stuck
      next waits => exact .inr (.inr (.inl ⟨rfl, ⟨_, rfl⟩, Bool.eq_false_iff.2 waits⟩))
    | locking taken rest =>
      refine .inr (.inr (.inr ⟨txn, taken, rest, rfl, rfl, Bool.eq_false_iff.2 fun holds => ?_⟩))
      cases rest with
      | nil =>
        simp only [step, stepCommit, holds, ↓reduceIte] at stuck
        split at stuck <;> cases stuck
      | cons key rest =>
        simp only [step, stepCommit, holds, ↓reduceIte] at stuck
        cases stuck
    | start =>
      simp only [step, stepCommit] at stuck
      split at stuck <;> cases stuck
    | fetched taken lock rest => cases stuck
    | applying taken rest => cases rest <;> cases stuck
    | unlocking taken result => cases taken <;> cases stuck
    | released lock taken result => cases stuck
    | tidying rest result => cases rest <;> cases stuck
  | compact =>
    cases stage with
    | finished result => exact .inl ⟨result, rfl⟩
    | logging taken => exact .inr (.inl ⟨taken, rfl, Option.map_eq_none_iff.1 stuck⟩)
    | joined =>
      simp only [step, stepCompact] at stuck
      split at stuck
      next => cases stuck
      next waits => exact .inr (.inr (.inl ⟨rfl, ⟨_, rfl⟩, Bool.eq_false_iff.2 waits⟩))
    | start => cases stuck
    | _ => cases regular
  | count =>
    cases stage with
    | finished result => exact .inl ⟨result, rfl⟩
    | logging taken => exact .inr (.inl ⟨taken, rfl, Option.map_eq_none_iff.1 stuck⟩)
    | start => cases stuck
    | _ => cases regular

namespace Workshop

variable {may : TaskId → Job → Prop} {S : Workshop} {u v w w' : Worker}

/-- One waits for a lock that the other has, or will have before it. -/
inductive Awaits (S : Workshop) (w w' : Worker) : Prop
  | shared : w ∈ S.crew → w' ∈ S.crew → w.stage = .joined →
    S.shared.sharing.holds w.task = false →
    (S.shared.sharing.holds w'.task = true ∨
      Precedes (S.shared.sharing.queue.map Prod.fst) w'.task w.task) → Awaits S w w'
  | row {p : RowKey × Nat} : w ∈ S.crew → w' ∈ S.crew → w.job.wants? w.stage = some p →
    S.shared.rows.holds w.task p.2 = false →
    (S.shared.rows.holds w'.task p.2 = true ∨
      Precedes (S.shared.rows.queue p.2) w'.task w.task) → Awaits S w w'

/-! ### Nobody waits for itself -/

theorem Orderly.lined_of_ahead (h : S.Orderly) (hw : w ∈ S.crew) (hw' : w' ∈ S.crew)
    {p : RowKey × Nat} (wants : w.job.wants? w.stage = some p)
    (ahead : Precedes (S.shared.rows.queue p.2) w'.task w.task) : p ∈ w'.job.lined w'.stage := by
  have claim := Job.lined_subset (h.tended.regular w hw) (Job.mem_lined_iff.2 (.inr wants))
  obtain ⟨found, -⟩ := h.tended.claimed w hw p claim
  obtain ⟨v, hv, task, lined⟩ := h.tended.lined_of_queued found ahead.mem
  rwa [← h.sound.guarded.eq_of_task hv hw' task]

theorem ne_joined_of_wants? {p : RowKey × Nat} (wants : w.job.wants? w.stage = some p) :
    w.stage ≠ .joined := by
  intro joined
  rw [joined, Job.wants?_joined] at wants
  cases wants

/-- What holds along a chain of those who wait: before the shared lock they wait for earlier ones or
for those inside, and these for earlier ones in a queue, or for locks that are taken later. -/
structure Behind (S : Workshop) (w w' : Worker) : Prop where
  outside : w.stage = .joined → w'.stage = .joined → S.shared.sharing.holds w'.task = false →
    Precedes (S.shared.sharing.queue.map Prod.fst) w'.task w.task
  inside : w.stage ≠ .joined → w'.stage ≠ .joined
  rows : ∀ p p', w.job.wants? w.stage = some p → w'.job.wants? w'.stage = some p' →
    p.1.Before p'.1 ∨ p = p' ∧ Precedes (S.shared.rows.queue p.2) w'.task w.task

theorem Awaits.behind (h : S.Orderly) (awaits : S.Awaits w w') : S.Behind w w' := by
  cases awaits with
  | shared _ _ joined waits first =>
    have ahead := first.elim (SharedLock.ahead_of_holds h.sound.guarded.once waits) id
    refine ⟨fun _ _ _ => ahead, fun inside => absurd joined inside, fun p _ wants _ => ?_⟩
    exact absurd joined (ne_joined_of_wants? wants)
  | row hw hw' wants waits first =>
    have ahead := first.elim (RowLocks.ahead_of_holds waits) id
    have lined := h.lined_of_ahead hw hw' wants ahead
    refine ⟨fun joined => absurd joined (ne_joined_of_wants? wants), fun _ joined => ?_, ?_⟩
    · rw [joined, Job.lined_joined] at lined
      cases lined
    · intro p p' wants₁ wants'
      cases wants.symm.trans wants₁
      rcases Job.mem_lined_iff.1 lined with secured | wants
      · exact .inl (Job.before_of_wants? secured wants')
      · exact .inr ⟨Option.some.inj (wants.symm.trans wants'), ahead⟩

theorem Behind.trans (first : S.Behind u v) (h : S.Orderly) (awaits : S.Awaits v w) :
    S.Behind u w := by
  have second := awaits.behind h
  refine ⟨fun joined joined' waits => ?_, fun inside => second.inside (first.inside inside), ?_⟩
  · cases awaits with
    | shared _ _ between waits' =>
      exact Nat.lt_trans (second.outside between joined' waits)
        (first.outside joined between waits')
    | row _ _ wants => exact absurd joined' (second.inside (ne_joined_of_wants? wants))
  · intro p r wants wants'
    cases awaits with
    | shared _ _ between => exact absurd between (first.inside (ne_joined_of_wants? wants))
    | row _ _ wants'' =>
      rcases first.rows p _ wants wants'' with before | ⟨rfl, ahead⟩
      · rcases second.rows _ r wants'' wants' with before' | ⟨rfl, -⟩
        · exact .inl (before.trans before')
        · exact .inl before
      · rcases second.rows _ r wants'' wants' with before' | ⟨rfl, ahead'⟩
        · exact .inl before'
        · exact .inr ⟨rfl, Nat.lt_trans ahead' ahead⟩

theorem Orderly.behind (h : S.Orderly) (chain : TransGen S.Awaits w w') : S.Behind w w' := by
  induction chain with
  | single awaits => exact awaits.behind h
  | tail _ awaits ih => exact ih.trans h awaits

theorem Orderly.acyclic (h : S.Orderly) (w : Worker) : ¬ TransGen S.Awaits w w := by
  intro cycle
  have behind := h.behind cycle
  obtain ⟨v, awaits, -⟩ := TransGen.head'_iff.1 cycle
  cases awaits with
  | shared _ _ joined waits => exact Nat.lt_irrefl _ (behind.outside joined joined waits)
  | row _ _ wants =>
    rcases behind.rows _ _ wants wants with ⟨-, ne⟩ | ⟨-, ahead⟩
    · exact ne rfl
    · exact Nat.lt_irrefl _ ahead

/-! ### Who is waited for -/

theorem Awaits.mem (awaits : S.Awaits w w') : w' ∈ S.crew := by
  cases awaits with
  | shared _ hw' => exact hw'
  | row _ hw' => exact hw'

theorem Orderly.awaits_shared (h : S.Orderly) (hw : w ∈ S.crew) (joined : w.stage = .joined)
    {hold : Hold} (lined : w.job.hold? w.stage = some hold)
    (waits : S.shared.sharing.holds w.task = false) : ∃ w', S.Awaits w w' := by
  have mem : w.task ∈ S.shared.sharing.queue.map Prod.fst :=
    List.mem_map.2 ⟨_, h.lined w hw hold lined, rfl⟩
  have other : (S.shared.sharing.queue.map Prod.fst).head? ≠ some w.task := fun first => by
    cases waits.symm.trans (SharedLock.holds_of_head first)
  obtain ⟨j, hj, ahead⟩ := Precedes.of_head mem other
  obtain ⟨p, hp, rfl⟩ := List.mem_map.1 hj
  obtain ⟨v, hv, task, -⟩ := h.sound.guarded.wanted p hp
  exact ⟨v, .shared hw hv joined waits (.inr (task ▸ ahead))⟩

theorem Orderly.awaits_row (h : S.Orderly) (hw : w ∈ S.crew) {p : RowKey × Nat}
    (lined : p ∈ w.job.lined w.stage) (waits : S.shared.rows.holds w.task p.2 = false) :
    ∃ w', S.Awaits w w' := by
  rcases Job.mem_lined_iff.1 lined with secured | wants
  · cases waits.symm.trans (h.tended.secured w hw p secured)
  · have claim := Job.lined_subset (h.tended.regular w hw) lined
    obtain ⟨found, -⟩ := h.tended.claimed w hw p claim
    obtain ⟨j, hj, ahead⟩ := Precedes.of_head (h.tended.lined w hw p lined)
      (of_decide_eq_false waits)
    obtain ⟨v, hv, rfl, -⟩ := h.tended.lined_of_queued found hj
    exact ⟨v, .row hw hv wants waits (.inr ahead)⟩

theorem Orderly.awaits_of_stuck (h : S.Orderly) (hw : w ∈ S.crew)
    (stuck : S.shared.step w.task w.job w.stage = none) :
    (∃ result, w.stage = .finished result) ∨
      (∃ taken, w.stage = .logging taken ∧ S.shared.answer? w.task = none) ∨
      ∃ w', S.Awaits w w' := by
  have regular := h.tended.regular w hw
  rcases SharedStore.cases_of_stuck regular stuck with finished | logging |
    ⟨joined, ⟨hold, lined⟩, waits⟩ | ⟨txn, taken, rest, job, stage, waits⟩
  · exact .inl finished
  · exact .inr (.inl logging)
  · exact .inr (.inr (h.awaits_shared hw joined lined waits))
  · rw [job, stage] at regular
    obtain ⟨asked, keys, length⟩ := regular
    have locks : (txn.lockKeys.zip taken).map Prod.snd = taken :=
      List.map_snd_zip (by rw [keys, List.length_append]; omega)
    rw [SharedStore.holdsAll, List.all_eq_false] at waits
    obtain ⟨lock, hlock, waits⟩ := waits
    rw [← locks] at hlock
    obtain ⟨p, hp, rfl⟩ := List.mem_map.1 hlock
    refine .inr (.inr (h.awaits_row hw (p := p) ?_ (Bool.eq_false_iff.2 waits)))
    rw [job, stage]
    exact hp

theorem Awaits.unfinished (h : S.Orderly) (awaits : S.Awaits w w')
    (result : Except CommitError Nat) : w'.stage ≠ .finished result := by
  intro finished
  cases awaits with
  | shared _ hw' _ waits first =>
    have ahead := first.elim (SharedLock.ahead_of_holds h.sound.guarded.once waits) id
    obtain ⟨p, hp, task⟩ := List.mem_map.1 ahead.mem
    obtain ⟨v, hv, same, hold⟩ := h.sound.guarded.wanted p hp
    obtain rfl := h.sound.guarded.eq_of_task hv hw' (same.trans task)
    rw [finished, Job.hold?_finished] at hold
    cases hold
  | row hw hw' wants waits first =>
    have ahead := first.elim (RowLocks.ahead_of_holds waits) id
    have lined := h.lined_of_ahead hw hw' wants ahead
    rw [finished, Job.lined_finished] at lined
    cases lined

/-- Whoever waits waits in the end for someone who does not. -/
theorem Orderly.exists_last (h : S.Orderly) (awaits : S.Awaits w w') :
    ∃ v ∈ S.crew, TransGen S.Awaits w v ∧ ∀ u, ¬ S.Awaits v u := by
  have finite : Finite {v // v ∈ S.crew} := (List.finite_toSet S.crew).to_subtype
  have wellFounded : WellFounded fun u v : {v // v ∈ S.crew} => TransGen S.Awaits v.1 u.1 :=
    @Finite.wellFounded_of_trans_of_irrefl _ finite _ ⟨fun _ _ _ first second => second.trans first⟩
      ⟨fun v => h.acyclic v.1⟩
  obtain ⟨v, chain, last⟩ := wellFounded.has_min {v | TransGen S.Awaits w v.1}
    ⟨⟨w', awaits.mem⟩, .single awaits⟩
  exact ⟨v.1, v.2, chain, fun u next => last ⟨u, next.mem⟩ (chain.tail next) (.single next)⟩

/-! ### The table of row locks -/

/-- Row locks are exclusive and free of deadlock, and no entry outlives the commits that need it. -/
theorem locks_orderly {store : Store} (h : Steps may (rest store) S) :
    (∀ w ∈ S.crew, ∀ w' ∈ S.crew, ∀ key, S.Has w key → S.Has w' key → w = w') ∧
    (∀ w, ¬ TransGen S.Awaits w w) ∧
    (∀ w ∈ S.crew, S.shared.step w.task w.job w.stage = none →
      (∃ result, w.stage = .finished result) ∨
      (∃ taken, w.stage = .logging taken ∧ S.shared.answer? w.task = none) ∨
      ∃ v ∈ S.crew, TransGen S.Awaits w v ∧
        ((∃ next, S.shared.step v.task v.job v.stage = some next) ∨
          ∃ taken, v.stage = .logging taken ∧ S.shared.answer? v.task = none)) ∧
    (∀ key lock, (key, lock) ∈ S.shared.rows.entries → ∃ w ∈ S.crew, ∃ txn,
      w.job = .commit txn ∧ key ∈ txn.lockKeys ∧ key ∈ w.job.untidied w.stage) ∧
    ((∀ w ∈ S.crew, ∀ txn, w.job = .commit txn →
      w.stage = .start ∨ ∃ result, w.stage = .finished result) → S.shared.rows.entries = []) := by
  have orderly := (Orderly.rest store).steps h
  refine ⟨fun w hw w' hw' key => orderly.has_inj hw hw', orderly.acyclic, fun w hw stuck => ?_,
    fun key lock => orderly.exists_untidied, fun idle => ?_⟩
  · refine (orderly.awaits_of_stuck hw stuck).imp_right (.imp_right fun ⟨w', awaits⟩ => ?_)
    obtain ⟨v, hv, chain, last⟩ := orderly.exists_last awaits
    refine ⟨v, hv, chain, ?_⟩
    cases next : S.shared.step v.task v.job v.stage with
    | some next => exact .inl ⟨_, rfl⟩
    | none =>
      obtain ⟨u, -, awaits⟩ := TransGen.tail'_iff.1 chain
      rcases orderly.awaits_of_stuck hv next with ⟨result, finished⟩ | logging | ⟨u, awaits⟩
      · exact absurd finished (awaits.unfinished orderly result)
      · exact .inr logging
      · exact absurd awaits (last u)
  · refine List.eq_nil_iff_forall_not_mem.2 fun ⟨key, lock⟩ entry => ?_
    obtain ⟨w, hw, txn, job, -, untidied⟩ := orderly.exists_untidied entry
    rw [job] at untidied
    rcases idle w hw txn job with stage | ⟨result, stage⟩
    · rw [stage] at untidied
      cases untidied
    · rw [stage] at untidied
      cases untidied

def removal : Txn :=
  [.deleteParking ⟨.ofNat 1, ⟨"Rome", "00100", "Corso 1"⟩, [], .leastOccupied, 1⟩]

theorem lockKeys_removal : removal.lockKeys = [.parking (.ofNat 1)] := Txn.lockKeys_of_one rfl rfl

def removing (stage stage' : Stage) (rows : RowLocks) : Workshop where
  shared := ⟨⟨.empty, .opened false .empty⟩, ⟨[(0, .shared), (1, .shared)]⟩, rows, [], []⟩
  crew := [⟨1, .commit removal, stage⟩, ⟨0, .commit removal, stage'⟩]
  logged := []
  landed := []

theorem locks_orderly_twoCommits : ∃ S w w',
    Steps (fun _ _ => True) (rest ⟨.empty, .opened false .empty⟩) S ∧ w ∈ S.crew ∧ w' ∈ S.crew ∧
      S.Has w (.parking (.ofNat 1)) ∧ ¬ S.Has w' (.parking (.ofNat 1)) ∧
      S.shared.step w'.task w'.job w'.stage = none ∧ ∃ v ∈ S.crew, TransGen S.Awaits w' v := by
  let store : Store := ⟨.empty, .opened false .empty⟩
  let any : TaskId → Job → Prop := fun _ _ => True
  have come (S : Workshop) (i : TaskId) (fresh : ∀ w ∈ S.crew, w.task ≠ i) :
      Step any S { S with crew := ⟨i, .commit removal, .start⟩ :: S.crew } := .start fresh trivial
  have one : Steps any (rest store) _ := .single (come _ 0 (List.forall_mem_nil _))
  have both := one.tail (come _ 1 (List.forall_mem_singleton.2 (by decide)))
  have first := (both.tail (.work (.swap ..) rfl)).tail (.work (.swap ..) rfl)
  have second := (first.tail (.work (.swap ..) rfl)).tail (.work (.swap ..) rfl)
  have inside : Steps any (rest store)
      (removing (.locking [] removal.lockKeys) (.locking [] removal.lockKeys) .none) := second
  rw [lockKeys_removal] at inside
  have fetched := (inside.tail (.work (.swap ..) rfl)).tail (.work (.swap ..) rfl)
  have locked := (fetched.tail (.work (.swap ..) rfl)).tail (.work (.swap ..) rfl)
  let rows : RowLocks := ⟨[(.parking (.ofNat 1), 0)], [⟨[0, 1], [0, 1]⟩]⟩
  let S := removing (.locking [0] []) (.locking [0] []) rows
  have reached : Steps any (rest store) S := locked
  obtain ⟨apart, -, stuck, -⟩ := locks_orderly reached
  have lined : (Job.commit removal).lined (.locking [0] []) = [(.parking (.ofNat 1), 0)] :=
    congrArg (·.zip [0]) lockKeys_removal
  have has : S.Has ⟨0, .commit removal, .locking [0] []⟩ (.parking (.ofNat 1)) :=
    ⟨0, lined ▸ .head _, .inr rfl⟩
  have waits : S.shared.step 1 (.commit removal) (.locking [0] []) = none := rfl
  refine ⟨S, _, _, reached, .tail _ (.head _), .head _, has, fun has' => ?_, waits, ?_⟩
  · cases congrArg Worker.task (apart _ (.tail _ (.head _)) _ (.head _) _ has has')
  · rcases stuck _ (.head _) waits with ⟨result, finished⟩ | ⟨taken, logging, -⟩ |
      ⟨v, hv, chain, -⟩
    · cases finished
    · cases logging
    · exact ⟨v, hv, chain⟩

end Workshop

end Carpark
