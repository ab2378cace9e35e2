import Carpark.Proofs.Lined
import Carpark.Proofs.Twins

/-!
A commit is sent to the log when it has passed its check, and reaches the tables later. In between
it is ahead of them, and no other commit that is has a row in common with it.
-/

namespace Carpark

/-! ### Commits that are ahead of the tables -/

def Work.attempt? : Work → Option Attempt
  | .commit ctx op ids txn => some ⟨ctx, op, ids, .done (.ok txn)⟩
  | .compact | .count => none

namespace Member

/-- The attempt for which someone is there whose commit has not been checked. -/
def early? (m : Member) : Option Attempt :=
  match m.stage with
  | .start | .joined | .locking .. | .fetched .. => m.work.attempt?
  | _ => none

/-- The attempt for which someone is there whose commit has passed its check and has not been
written. -/
def pending? (m : Member) : Option Attempt :=
  match m.stage with
  | .logging _ | .applying .. => m.work.attempt?
  | _ => none

def Whole (m : Member) : Prop :=
  ∀ taken c txn, m.stage = .applying taken c → m.work.job = .commit txn → c = txn.writes.ordered

theorem job_of_pending? {m : Member} {a : Attempt} (h : m.pending? = some a) :
    m.work.job = .commit a.txn ∧ m.work.job.isChecked m.stage = true := by
  obtain ⟨task, work, stage⟩ := m
  cases work with
  | commit ctx op ids txn =>
    cases stage with
    | logging taken => cases h; exact ⟨rfl, rfl⟩
    | applying taken c => cases h; exact ⟨rfl, rfl⟩
    | _ => cases h
  | _ => cases stage <;> cases h

end Member

theorem SharedStore.Guarded.apart {s : SharedStore} {crew : List Member}
    (h : s.Guarded (crew.map Member.worker)) :
    (crew.filterMap Member.pending?).Pairwise Attempt.Apart := by
  rw [List.pairwise_filterMap]
  have tasks := h.tasks
  rw [List.map_map] at tasks
  refine (List.pairwise_map.1 tasks).imp_of_mem fun {m n} hm hn other a ha b hb => ?_
  obtain ⟨job, checked⟩ := Member.job_of_pending? ha
  obtain ⟨job', checked'⟩ := Member.job_of_pending? hb
  exact h.disjoint (List.mem_map_of_mem hm) (List.mem_map_of_mem hn) other job job' checked checked'

theorem SharedStore.Guarded.pending_eq_nil {s : SharedStore} {crew : List Member} {m : Member}
    (h : s.Guarded (crew.map Member.worker)) {taken : List Nat} (hm : m ∈ crew)
    (job : m.work.job = .compact) (stage : m.stage = .logging taken) :
    crew.filterMap Member.pending? = [] := by
  refine List.filterMap_eq_nil_iff.2 fun n hn => Option.eq_none_iff_forall_ne_some.2 fun a ha => ?_
  obtain ⟨job', checked⟩ := Member.job_of_pending? ha
  have same := h.alone (List.mem_map_of_mem hm) job stage (List.mem_map_of_mem hn)
    (Job.isInside_of_isChecked checked)
  exact Job.noConfusion (job'.symm.trans ((congrArg Worker.job same).trans job))

/-- The attempts whose commits have passed their checks and are not in the tables yet, in the order
of the checks. Each passes on the tables that those before it make. -/
structure Ahead (settings : Settings) (base t : Tables) (spent : Ulid → Prop)
    (attempts : List Attempt) (crew : List Member) (passed : List Commit) (ahead : List Attempt) :
    Prop where
  perm : ahead.Perm (crew.filterMap Member.pending?)
  sound : ∃ now, Traffic.Sound settings
    ⟨t, spent, ahead ++ (attempts ++ crew.filterMap Member.early?)⟩ now
  accepted : ∀ a ∈ ahead, a.Accepted t
  alike : ((ahead.map (·.txn.writes)).foldl Tables.apply t).Alike (passed.foldl Tables.apply base)
  admitted : base.Admits passed

namespace Ahead

variable {settings : Settings} {base t : Tables} {spent spent' : Ulid → Prop}
  {attempts attempts' : List Attempt} {crew crew' : List Member} {passed : List Commit}
  {ahead : List Attempt} {m m' : Member} {a : Attempt}

theorem linked (h : Ahead settings base t spent attempts crew passed ahead) : t.Linked := by
  obtain ⟨now, sound⟩ := h.sound
  exact sound.linked

theorem permCrew (h : Ahead settings base t spent attempts crew passed ahead)
    (hp : crew.Perm crew') : Ahead settings base t spent attempts crew' passed ahead where
  perm := h.perm.trans (hp.filterMap _)
  sound := by
    obtain ⟨now, sound⟩ := h.sound
    exact ⟨now, sound.perm (((hp.filterMap _).append_left attempts).append_left ahead)⟩
  accepted := h.accepted
  alike := h.alike
  admitted := h.admitted

theorem upToDate (h : Ahead settings base t spent attempts crew passed ahead)
    (none : crew.filterMap Member.pending? = []) :
    t.Alike (passed.foldl Tables.apply base) := by
  have empty : ahead = [] := List.perm_nil.1 (none ▸ h.perm)
  have alike := h.alike
  rwa [empty] at alike

theorem same (h : Ahead settings base t spent attempts (m :: crew) passed ahead)
    (early : m'.early? = m.early?) (pending : m'.pending? = m.pending?) :
    Ahead settings base t spent attempts (m' :: crew) passed ahead where
  perm := by
    have perm := h.perm
    rwa [List.filterMap_cons, ← pending] at perm
  sound := by
    have sound := h.sound
    rwa [List.filterMap_cons, ← early] at sound
  accepted := h.accepted
  alike := h.alike
  admitted := h.admitted

theorem start (h : Ahead settings base t spent attempts crew passed ahead)
    (early : m.early? = none) (pending : m.pending? = none) :
    Ahead settings base t spent attempts (m :: crew) passed ahead where
  perm := by
    rw [List.filterMap_cons_none pending]
    exact h.perm
  sound := by
    rw [List.filterMap_cons_none early]
    exact h.sound
  accepted := h.accepted
  alike := h.alike
  admitted := h.admitted

theorem retire (h : Ahead settings base t spent attempts (m :: crew) passed ahead)
    (early : m.early? = none) (pending : m.pending? = none) :
    Ahead settings base t spent attempts crew passed ahead where
  perm := by
    have perm := h.perm
    rwa [List.filterMap_cons_none pending] at perm
  sound := by
    have sound := h.sound
    rwa [List.filterMap_cons_none early] at sound
  accepted := h.accepted
  alike := h.alike
  admitted := h.admitted

theorem hand (h : Ahead settings base t spent attempts crew passed ahead)
    (through : attempts.Perm (a :: attempts')) (early : m.early? = some a)
    (pending : m.pending? = none) :
    Ahead settings base t spent attempts' (m :: crew) passed ahead where
  perm := by
    rw [List.filterMap_cons_none pending]
    exact h.perm
  sound := by
    obtain ⟨now, sound⟩ := h.sound
    rw [List.filterMap_cons_some early]
    exact ⟨now, sound.perm (((through.append_right _).trans List.perm_middle.symm).append_left _)⟩
  accepted := h.accepted
  alike := h.alike
  admitted := h.admitted

theorem leave (h : Ahead settings base t spent attempts (m :: crew) passed ahead)
    (early : m.early? = some a) (pending : m.pending? = none) :
    Ahead settings base t spent attempts crew passed ahead where
  perm := by
    have perm := h.perm
    rwa [List.filterMap_cons_none pending] at perm
  sound := by
    obtain ⟨now, sound⟩ := h.sound
    rw [List.filterMap_cons_some early, ← List.append_assoc] at sound
    have left := sound.leave
    rw [List.append_assoc] at left
    exact ⟨now, left⟩
  accepted := h.accepted
  alike := h.alike
  admitted := h.admitted

theorem pass (h : Ahead settings base t spent attempts (m :: crew) passed ahead)
    (early : m.early? = some a) (pending : m.pending? = none) (early' : m'.early? = none)
    (pending' : m'.pending? = some a) (accepted : a.Accepted t)
    (apart : ((m' :: crew).filterMap Member.pending?).Pairwise Attempt.Apart) :
    Ahead settings base t spent attempts (m' :: crew) (passed ++ [a.txn.writes])
      (ahead ++ [a]) where
  perm := by
    have perm := h.perm
    rw [List.filterMap_cons_none pending] at perm
    rw [List.filterMap_cons_some pending']
    exact (List.perm_append_singleton a ahead).trans (perm.cons a)
  sound := by
    obtain ⟨now, sound⟩ := h.sound
    rw [List.filterMap_cons_some early] at sound
    rw [List.filterMap_cons_none early', List.append_assoc]
    exact ⟨now, sound.perm (List.perm_middle.append_left ahead)⟩
  accepted := List.forall_mem_append.2 ⟨h.accepted, List.forall_mem_singleton.2 accepted⟩
  alike := by
    rw [List.map_append, List.foldl_append, List.foldl_append]
    exact h.alike.apply _
  admitted := by
    obtain ⟨now, sound⟩ := h.sound
    have perm := h.perm
    rw [List.filterMap_cons_none pending] at perm
    rw [List.filterMap_cons_some pending', List.pairwise_cons] at apart
    have behind := sound.accepted_behind h.accepted
      ((perm.pairwise_iff Attempt.Apart.symm).2 apart.2)
      (fun b hb => (apart.1 b (perm.mem_iff.1 hb)).symm) accepted
    exact Tables.admits_append.2 ⟨h.admitted,
      Tables.admits_singleton ((h.alike.refusal? a.txn).symm.trans behind.accepted)⟩

theorem write (h : Ahead settings base t spent attempts (m :: crew) passed ahead)
    (early : m.early? = none) (pending : m.pending? = some a)
    (apart : ahead.Pairwise Attempt.Apart) :
    ∃ ahead', Ahead settings base (t.apply a.txn.writes) spent attempts crew passed ahead' := by
  obtain ⟨perm, ⟨now, sound⟩, accepted, alike, admitted⟩ := h
  rw [List.filterMap_cons_none early] at sound
  rw [List.filterMap_cons_some pending] at perm
  have mem : a ∈ ahead := perm.mem_iff.2 (.head _)
  obtain ⟨before, after, rfl⟩ := List.append_of_mem mem
  have front := sound.alike_front accepted apart
  have moved := sound.perm (List.perm_middle.append_right _)
  obtain ⟨now', sound'⟩ := moved.commit_first (accepted a mem)
  refine ⟨before ++ after, (List.perm_middle.symm.trans perm).cons_inv, ⟨now', sound'⟩,
    fun b hb => ?_, front.symm.trans alike, admitted⟩
  obtain ⟨apart', -⟩ := List.pairwise_cons.1 ((List.pairwise_middle Attempt.Apart.symm).1 apart)
  exact moved.accepted (.head _) (accepted a mem) (apart' b hb)
    (accepted b (List.perm_middle.mem_iff.2 (.tail _ hb)))

end Ahead

theorem Traffic.Step.frame {settings : Settings} {t t' : Tables} {spent spent' : Ulid → Prop}
    {as as' : List Attempt} (h : Step settings ⟨t, spent, as⟩ ⟨t', spent', as'⟩)
    (others : List Attempt) :
    Step settings ⟨t, spent, as ++ others⟩ ⟨t', spent', as' ++ others⟩ := by
  cases h with
  | start ctx op => exact .start ctx op
  | ask =>
    simp only [List.append_assoc, List.cons_append]
    exact .ask
  | draw fresh =>
    simp only [List.append_assoc, List.cons_append]
    exact .draw fresh
  | commit accepted =>
    simp only [List.append_assoc, List.cons_append]
    exact .commit accepted
  | leave =>
    simp only [List.append_assoc, List.cons_append]
    exact .leave

namespace Ahead

variable {settings : Settings} {base t : Tables} {spent spent' : Ulid → Prop}
  {attempts attempts' : List Attempt} {crew : List Member} {passed : List Commit}
  {ahead : List Attempt}

theorem read (h : Ahead settings base t spent attempts crew passed ahead)
    (step : Traffic.Step settings ⟨t, spent, attempts⟩ ⟨t, spent', attempts'⟩) :
    Ahead settings base t spent' attempts' crew passed ahead where
  perm := h.perm
  sound := by
    obtain ⟨now, sound⟩ := h.sound
    have moved := sound.perm List.perm_append_comm
    rw [List.append_assoc] at moved
    obtain ⟨now', -, sound'⟩ := (step.frame _).sound moved
    rw [← List.append_assoc] at sound'
    exact ⟨now', sound'.perm List.perm_append_comm⟩
  accepted := h.accepted
  alike := h.alike
  admitted := h.admitted

theorem move {s s' : SharedStore} {i : TaskId} {work : Work} {stage stage' : Stage}
    (h : Ahead settings base s.store.tables spent attempts (⟨i, work, stage⟩ :: crew) passed ahead)
    (guarded : s.Guarded ((⟨i, work, stage⟩ :: crew).map Member.worker))
    (whole : Member.Whole ⟨i, work, stage⟩)
    (told : ∀ answer, s.answer? i = some answer → work.job.Accepts answer)
    (step : s.Moves i work.job stage s' stage') :
    ∃ ahead', Ahead settings base s'.store.tables spent attempts (⟨i, work, stage'⟩ :: crew)
      (passed ++ work.passes stage stage') ahead' := by
  have quiet {t : Tables} (none : work.passes stage stage' = [])
      (h : ∃ ahead, Ahead settings base t spent attempts (⟨i, work, stage'⟩ :: crew) passed ahead) :
      ∃ ahead, Ahead settings base t spent attempts (⟨i, work, stage'⟩ :: crew)
        (passed ++ work.passes stage stage') ahead := by
    rwa [none, List.append_nil]
  have pairs : ((⟨i, work, stage'⟩ :: crew).filterMap Member.pending?).Pairwise Attempt.Apart :=
    (guarded.move step : s'.Guarded ((⟨i, work, stage'⟩ :: crew).map Member.worker)).apart
  cases work with
  | commit ctx op ids txn =>
    cases step with
    | skip | refuse => exact quiet rfl ⟨_, (h.leave rfl rfl).start rfl rfl⟩
    | pass _ accepted => exact ⟨_, h.pass rfl rfl rfl rfl ⟨rfl, accepted⟩ pairs⟩
    | lost answer error =>
      rw [told _ answer] at error
      cases error
    | write =>
      have apart := (h.perm.pairwise_iff Attempt.Apart.symm).2 guarded.apart
      obtain ⟨ahead', written⟩ := h.write rfl rfl apart
      refine quiet rfl ⟨ahead', ?_⟩
      rw [whole _ _ _ rfl rfl]
      exact written.start rfl rfl
    | _ => exact quiet rfl ⟨_, h.same rfl rfl⟩
  | _ => cases step <;> exact quiet rfl ⟨_, h.same rfl rfl⟩

end Ahead

end Carpark
