import Carpark.Proofs.Apart
import Carpark.Proofs.Crew
import Mathlib.Logic.Relation

/-!
The store in use, one table write at a time. Whoever reads takes no locks, so there may be a reader
between any two writes, of one commit or of several.
-/

namespace Carpark

open Relation

structure Workshop where
  shared : SharedStore
  crew : List Worker
  /-- For the record: the commits that the log has acknowledged, in that order. -/
  logged : List Commit
  /-- For the record: the transactions that are in the tables in full, and whose they are. -/
  landed : List (TaskId × Txn)

namespace Job

def logs : Job → Stage → Stage → List Commit
  | .commit txn, .logging _, .applying .. => [txn.writes]
  | _, _, _ => []

def lands : Job → Stage → List Txn
  | .commit txn, .applying _ [_] => [txn]
  | _, _ => []

theorem eq_of_lands {job : Job} {stage : Stage} {txn : Txn} (h : txn ∈ job.lands stage) :
    job = .commit txn := by
  unfold lands at h
  split at h
  · rw [List.mem_singleton.1 h]
  · cases h

end Job

namespace Workshop

def rest (store : Store) : Workshop := ⟨.ofStore store, [], [], []⟩

def tables (S : Workshop) : Tables := S.shared.store.tables

/-- Anyone goes on, or comes with a job that may be brought, or the log does something. -/
inductive Step (may : TaskId → Job → Prop) : Workshop → Workshop → Prop
  | start {S : Workshop} {i : TaskId} {job : Job} : (∀ w ∈ S.crew, w.task ≠ i) → may i job →
    Step may S { S with crew := ⟨i, job, .start⟩ :: S.crew }
  | work {S : Workshop} {others : List Worker} {i : TaskId} {job : Job} {stage stage' : Stage}
      {shared : SharedStore} :
    S.crew.Perm (⟨i, job, stage⟩ :: others) →
    S.shared.step i job stage = some (shared, stage') →
    Step may S {
      shared, crew := ⟨i, job, stage'⟩ :: others
      logged := S.logged ++ job.logs stage stage'
      landed := S.landed ++ (job.lands stage).map (i, ·) }
  | retire {S : Workshop} {others : List Worker} {i : TaskId} {job : Job}
      {result : Except CommitError Nat} :
    S.crew.Perm (⟨i, job, .finished result⟩ :: others) → Step may S { S with crew := others }
  /-- Whatever the log makes of its queue, it may fail at any time. -/
  | log {S : Workshop} (log : LogFile) (queue : List (TaskId × LogCommand))
      (answers : List (TaskId × LogAnswer)) :
    Step may S { S with shared := { S.shared with
      store := { S.shared.store with log }, queue, answers } }

abbrev Steps (may : TaskId → Job → Prop) : Workshop → Workshop → Prop := ReflTransGen (Step may)

end Workshop

/-! ### Steps of a job -/

namespace SharedStore

variable {s s' : SharedStore} {i : TaskId} {job : Job} {stage stage' : Stage}

theorem step_cases (h : s.step i job stage = some (s', stage')) :
    (∃ txn taken w rest, job = .commit txn ∧ stage = .applying taken (w :: rest) ∧
      stage' = .applying taken rest ∧
      s' = { s with store := { s.store with tables := s.store.tables.write w } }) ∨
    s.Moves i job stage s' stage' ∧ s'.store.tables = s.store.tables ∧ job.lands stage = [] ∧
      ∀ txn taken w rest, job = .commit txn → stage ≠ .applying taken (w :: rest) := by
  have other (h : s.stride i job stage = some (s', stage'))
      (tables : ∀ txn taken c, job = .commit txn → stage ≠ .applying taken c) :
      s.Moves i job stage s' stage' ∧ s'.store.tables = s.store.tables ∧ job.lands stage = [] ∧
        ∀ txn taken w rest, job = .commit txn → stage ≠ .applying taken (w :: rest) := by
    have moves := Moves.of_stride h
    refine ⟨moves, ?_, ?_, fun txn taken w rest => tables txn taken (w :: rest)⟩
    · cases moves with
      | write => exact absurd rfl (tables _ _ _ rfl)
      | _ => rfl
    · cases moves with
      | write => exact absurd rfl (tables _ _ _ rfl)
      | _ => rfl
  cases job with
  | commit txn =>
    cases stage with
    | applying taken c =>
      cases c with
      | nil =>
        cases h
        exact .inr ⟨.write (c := []), rfl, rfl, fun _ _ _ _ _ => nofun⟩
      | cons w rest =>
        cases h
        exact .inl ⟨txn, taken, w, rest, rfl, rfl, rfl, rfl⟩
    | _ => exact .inr (other h nofun)
  | compact => exact .inr (other h nofun)
  | count => exact .inr (other h nofun)

theorem Moves.writes_of_applying {txn : Txn} {taken : List Nat} {rest : Commit}
    (h : s.Moves i (.commit txn) stage s' (.applying taken rest)) :
    stage = .logging taken ∧ rest = txn.writes.ordered := by
  cases h with
  | logged => exact ⟨rfl, rfl⟩

theorem Moves.isChecked {txn : Txn} (h : s.Moves i (.commit txn) stage s' stage')
    (checked : Job.isChecked (.commit txn) stage' = true) :
    Job.isChecked (.commit txn) stage = true ∨ s.store.tables.refusal? txn = none := by
  cases h with
  | pass _ accepted => exact .inr accepted
  | logged => exact .inl rfl
  | _ => cases checked

end SharedStore

namespace Worker

/-- What is left to be written is a part of what the transaction writes. -/
def Proper (w : Worker) : Prop :=
  ∀ txn taken rest, w.job = .commit txn → w.stage = .applying taken rest →
    rest <:+ txn.writes.ordered

def Writes (C : Txn → Prop) (w : Worker) : Prop :=
  ∃ txn taken rest, w.job = .commit txn ∧ w.stage = .applying taken rest ∧ rest ≠ [] ∧ C txn

/-- The commit has passed its check and has not been written yet, and satisfies this. -/
def Checked (D : Txn → Prop) (w : Worker) : Prop :=
  ∃ txn, w.job = .commit txn ∧ w.job.isChecked w.stage = true ∧ D txn

theorem exists_perm {ws : List Worker} {w : Worker} (hw : w ∈ ws) :
    ∃ others, ws.Perm (w :: others) := by
  obtain ⟨before, after, rfl⟩ := List.append_of_mem hw
  exact ⟨before ++ after, List.perm_middle⟩

end Worker

namespace Workshop

variable {may : TaskId → Job → Prop} {S S' : Workshop}

structure Sound (S : Workshop) : Prop where
  guarded : S.shared.Guarded S.crew
  proper : ∀ w ∈ S.crew, w.Proper

theorem Sound.rest (store : Store) : (rest store).Sound where
  guarded := .ofStore store
  proper := List.forall_mem_nil _

theorem Sound.perm (h : S.Sound) {crew : List Worker} (hp : S.crew.Perm crew) :
    Sound { S with crew } where
  guarded := h.guarded.perm hp
  proper := fun w hw => h.proper w (hp.mem_iff.2 hw)

theorem Sound.holdsAll (h : S.Sound) {others : List Worker} {i : TaskId} {txn : Txn}
    {taken : List Nat} (crew : S.crew.Perm (⟨i, .commit txn, .locking taken []⟩ :: others))
    (holds : S.shared.holdsAll i taken = true) :
    Sound { S with crew := ⟨i, .commit txn, .logging taken⟩ :: others } where
  guarded := (h.perm crew).guarded.holdsAll holds
  proper := List.forall_mem_cons.2 ⟨nofun, (List.forall_mem_cons.1 (h.perm crew).proper).2⟩

theorem Sound.unlocked (h : S.Sound) {others : List Worker} {i : TaskId} {txn : Txn} {stage : Stage}
    (crew : S.crew.Perm (⟨i, .commit txn, stage⟩ :: others))
    (checked : Job.isChecked (.commit txn) stage = true) {key : RowKey}
    (locked : key ∈ txn.lockKeys) {w : Worker} (hw : w ∈ others) {txn' : Txn}
    (job : w.job = .commit txn') (checked' : w.job.isChecked w.stage = true) :
    key ∉ txn'.lockKeys := by
  have guarded := (h.perm crew).guarded
  exact guarded.disjoint (.head _) (.tail _ hw) (Ne.symm (guarded.other hw)) rfl job checked
    checked' locked

theorem Sound.unwritten (h : S.Sound) {i : TaskId} {txn : Txn} {taken : List Nat}
    (me : ⟨i, .commit txn, .locking taken []⟩ ∈ S.crew) (holds : S.shared.holdsAll i taken = true)
    {key : RowKey} (locked : key ∈ txn.lockKeys) {C : Txn → Prop}
    (hC : ∀ txn', C txn' → key ∈ txn'.lockKeys) {w : Worker} (hw : w ∈ S.crew) : ¬ w.Writes C := by
  obtain ⟨others, crew⟩ := Worker.exists_perm me
  rintro ⟨txn', taken', rest, job, stage, -, satisfies⟩
  rcases List.mem_cons.1 (crew.mem_iff.1 hw) with rfl | hw
  · cases stage
  · refine (h.holdsAll crew holds).unlocked (.refl _) rfl locked hw job ?_ (hC txn' satisfies)
    rw [job, stage]
    rfl

theorem Step.sound (h : Step may S S') (hs : S.Sound) : S'.Sound := by
  cases h with
  | start fresh => exact ⟨hs.guarded.start fresh, List.forall_mem_cons.2 ⟨nofun, hs.proper⟩⟩
  | @work others i job stage stage' shared hp step =>
    obtain ⟨guarded, proper⟩ := hs.perm hp
    obtain ⟨first, others⟩ := List.forall_mem_cons.1 proper
    rcases SharedStore.step_cases step with ⟨txn, taken, w, rest, rfl, rfl, rfl, rfl⟩ | ⟨moves, -⟩
    · refine ⟨guarded.updateStage rfl rfl (fun _ => id) (fun _ => guarded.inside _ (.head _) rfl)
        (guarded.rows _ (.head _)), List.forall_mem_cons.2 ⟨?_, others⟩⟩
      rintro _ _ _ ⟨⟩ ⟨⟩
      exact (List.suffix_cons w rest).trans (first txn taken _ rfl rfl)
    · refine ⟨guarded.move moves, List.forall_mem_cons.2 ⟨?_, others⟩⟩
      rintro txn taken rest rfl rfl
      obtain ⟨-, rfl⟩ := moves.writes_of_applying
      exact List.suffix_rfl
  | retire hp =>
    obtain ⟨guarded, proper⟩ := hs.perm hp
    exact ⟨guarded.retire (by cases ‹Job› <;> rfl), (List.forall_mem_cons.1 proper).2⟩
  | log =>
    exact ⟨⟨hs.guarded.tasks, hs.guarded.wanted, hs.guarded.once, hs.guarded.inside,
      hs.guarded.bounded, hs.guarded.rows⟩, hs.proper⟩

theorem Steps.sound (h : Steps may S S') (hs : S.Sound) : S'.Sound := by
  induction h with
  | refl => exact hs
  | tail _ step ih => exact step.sound ih

theorem Step.mono {may' : TaskId → Job → Prop} (hmay : ∀ i job, may i job → may' i job)
    (h : Step may S S') : Step may' S S' := by
  cases h with
  | start fresh brings => exact .start fresh (hmay _ _ brings)
  | work crew step => exact .work crew step
  | retire crew => exact .retire crew
  | log log queue answers => exact .log log queue answers

theorem Steps.mono {may' : TaskId → Job → Prop} (hmay : ∀ i job, may i job → may' i job)
    (h : Steps may S S') : Steps may' S S' :=
  ReflTransGen.mono (fun _ _ => Step.mono hmay) _ _ h

/-! ### What is in the tables in full -/

theorem Step.landed (h : Step may S S') : S.landed <+: S'.landed := by
  cases h with
  | work => exact List.prefix_append _ _
  | _ => exact List.prefix_rfl

theorem Steps.landed (h : Steps may S S') : S.landed <+: S'.landed := by
  induction h with
  | refl => exact List.prefix_rfl
  | tail _ step ih => exact ih.trans step.landed

theorem Steps.jobs {Q : TaskId → Job → Prop} (hmay : ∀ i job, may i job → Q i job)
    (h : Steps may S S') (crew : ∀ w ∈ S.crew, Q w.task w.job) :
    (∀ w ∈ S'.crew, Q w.task w.job) ∧
      ∃ more, S'.landed = S.landed ++ more ∧ ∀ x ∈ more, Q x.1 (.commit x.2) := by
  induction h with
  | refl => exact ⟨crew, [], (List.append_nil _).symm, List.forall_mem_nil _⟩
  | @tail S₁ S₂ _ step ih =>
    obtain ⟨crew, more, landed, all⟩ := ih
    cases step with
    | start _ brought =>
      exact ⟨List.forall_mem_cons.2 ⟨hmay _ _ brought, crew⟩, more, landed, all⟩
    | @work others i job stage stage' shared hp =>
      obtain ⟨first, rest⟩ := List.forall_mem_cons.1 fun w hw => crew w (hp.mem_iff.2 hw)
      refine ⟨List.forall_mem_cons.2 ⟨first, rest⟩, more ++ (job.lands stage).map (i, ·), ?_, ?_⟩
      · exact (congrArg (· ++ _) landed).trans (List.append_assoc _ _ _)
      · refine List.forall_mem_append.2 ⟨all, List.forall_mem_map.2 fun txn lands => ?_⟩
        rwa [Job.eq_of_lands lands] at first
    | retire hp =>
      exact ⟨fun w hw => crew w (hp.mem_iff.2 (.tail _ hw)), more, landed, all⟩
    | log => exact ⟨crew, more, landed, all⟩

/-- This holds of the tables, and none of these transactions has passed its check. -/
structure Stands (P : Tables → Prop) (D : Txn → Prop) (S : Workshop) : Prop where
  tables : P S.tables
  unchecked : ∀ w ∈ S.crew, ¬ w.Checked D

theorem Stands.of_tables {P : Tables → Prop} (h : P S.tables) : S.Stands P fun _ => False :=
  ⟨h, fun _ _ ⟨_, _, _, no⟩ => no⟩

variable {P : Tables → Prop} {C D : Txn → Prop} {others : List Worker} {i : TaskId} {txn : Txn}

theorem Stands.goOn {job : Job} {stage stage' : Stage} (h : S.Stands P D)
    (crew : S.crew.Perm (⟨i, job, stage⟩ :: others))
    (crew' : S'.crew = ⟨i, job, stage'⟩ :: others) (now : P S'.tables)
    (free : ¬ Worker.Checked D ⟨i, job, stage'⟩) : S'.Stands P D where
  tables := now
  unchecked := by
    rw [crew']
    exact List.forall_mem_cons.2 ⟨free, fun w hw => h.unchecked w (crew.mem_iff.2 (.tail _ hw))⟩

theorem exists_writes_of_perm {job : Job} {stage : Stage}
    (crew : S.crew.Perm (⟨i, job, stage⟩ :: others)) (h : ∃ w ∈ S.crew, w.Writes C) :
    Worker.Writes C ⟨i, job, stage⟩ ∨ ∃ w ∈ others, w.Writes C := by
  obtain ⟨w, hw, writes⟩ := h
  rcases List.mem_cons.1 (crew.mem_iff.1 hw) with rfl | hw
  · exact .inl writes
  · exact .inr ⟨w, hw, writes⟩

/-- What is kept by all writes but those of certain transactions holds after a step, unless one of
these has been written in full or in part. -/
theorem Step.kept (refuses : ∀ txn t, D txn → P t → t.refusal? txn ≠ none)
    (kept : ∀ txn t w, w ∈ Txn.writes txn → ¬ C txn → ¬ D txn → P t → P (t.write w)) (hs : S.Sound)
    (h : Step may S S') (start : S.Stands P D ∨ ∃ w ∈ S.crew, w.Writes C) :
    ∃ more, S'.landed = S.landed ++ more ∧
      (S'.Stands P D ∨ (∃ x ∈ more, C x.2) ∨ ∃ w ∈ S'.crew, w.Writes C) := by
  cases h with
  | start =>
    refine ⟨[], (List.append_nil _).symm, start.imp (fun now => ⟨now.tables, ?_⟩) ?_⟩
    · refine List.forall_mem_cons.2 ⟨?_, now.unchecked⟩
      rintro ⟨_, rfl, checked, -⟩
      cases checked
    · exact fun ⟨w, hw, h⟩ => .inr ⟨w, .tail _ hw, h⟩
  | log =>
    exact ⟨[], (List.append_nil _).symm, start.imp (fun ⟨now, free⟩ => ⟨now, free⟩) .inr⟩
  | retire crew =>
    refine ⟨[], (List.append_nil _).symm, start.imp (fun now => ⟨now.tables, ?_⟩) fun h => ?_⟩
    · exact fun w hw => now.unchecked w (crew.mem_iff.2 (.tail _ hw))
    · rcases exists_writes_of_perm crew h with ⟨_, _, _, _, stage, -⟩ | h
      · cases stage
      · exact .inr h
  | @work others i job stage stage' shared crew step =>
    refine ⟨_, rfl, ?_⟩
    rcases SharedStore.step_cases step with ⟨txn, taken, w, rest, rfl, rfl, rfl, rfl⟩ |
      ⟨moves, same, -, other⟩
    · by_cases hC : C txn
      · cases rest with
        | nil => exact .inr (.inl ⟨(i, txn), .head _, hC⟩)
        | cons w' rest =>
          exact .inr (.inr ⟨_, .head _, txn, taken, _, rfl, rfl, List.cons_ne_nil _ _, hC⟩)
      · rcases start with now | h
        · have mem : w ∈ Txn.writes txn := (Commit.ordered_perm _).mem_iff.1
            ((hs.proper _ (crew.mem_iff.2 (.head _)) txn taken _ rfl rfl).subset (.head _))
          have hD (refused : D txn) : False :=
            now.unchecked _ (crew.mem_iff.2 (.head _)) ⟨txn, rfl, rfl, refused⟩
          refine .inl (now.goOn crew rfl (kept txn _ w mem hC hD now.tables) ?_)
          rintro ⟨_, ⟨⟩, -, refused⟩
          exact hD refused
        · rcases exists_writes_of_perm crew h with ⟨_, _, _, ⟨⟩, -, -, hC'⟩ | ⟨v, hv, h⟩
          · exact absurd hC' hC
          · exact .inr (.inr ⟨v, .tail _ hv, h⟩)
    · rcases start with now | h
      · refine .inl (now.goOn crew rfl ((congrArg P same).mpr now.tables) ?_)
        rintro ⟨txn, rfl, checked, refused⟩
        rcases moves.isChecked checked with checked | accepted
        · exact now.unchecked _ (crew.mem_iff.2 (.head _)) ⟨txn, rfl, checked, refused⟩
        · exact refuses txn _ refused now.tables accepted
      · rcases exists_writes_of_perm crew h with ⟨_, _, rest, rfl, rfl, some, -⟩ | ⟨v, hv, h⟩
        · -- a commit that has writes left can do nothing but write
          cases rest with
          | nil => exact absurd rfl some
          | cons w rest => exact absurd rfl (other _ _ w rest rfl)
        · exact .inr (.inr ⟨v, .tail _ hv, h⟩)

theorem Steps.kept (refuses : ∀ txn t, D txn → P t → t.refusal? txn ≠ none)
    (kept : ∀ txn t w, w ∈ Txn.writes txn → ¬ C txn → ¬ D txn → P t → P (t.write w)) (hs : S.Sound)
    (h : Steps may S S') (start : S.Stands P D) :
    ∃ more, S'.landed = S.landed ++ more ∧
      (S'.Stands P D ∨ (∃ x ∈ more, C x.2) ∨ ∃ w ∈ S'.crew, w.Writes C) := by
  induction h with
  | refl => exact ⟨[], (List.append_nil _).symm, .inl start⟩
  | @tail S₁ S₂ steps step ih =>
    obtain ⟨more, landed, now⟩ := ih
    have goesOn (now : S₁.Stands P D ∨ ∃ w ∈ S₁.crew, w.Writes C) :
        ∃ more, S₂.landed = S.landed ++ more ∧
          (S₂.Stands P D ∨ (∃ x ∈ more, C x.2) ∨ ∃ w ∈ S₂.crew, w.Writes C) := by
      obtain ⟨last, hlast, now⟩ := step.kept refuses kept (Steps.sound steps hs) now
      refine ⟨more ++ last, by rw [hlast, landed, List.append_assoc], now.imp_right ?_⟩
      exact .imp_left fun ⟨x, hx, h⟩ => ⟨x, List.mem_append_right _ hx, h⟩
    rcases now with now | ⟨x, hx, hC⟩ | now
    · exact goesOn (.inl now)
    · obtain ⟨last, hlast⟩ := step.landed
      exact ⟨more ++ last, by rw [← hlast, landed, List.append_assoc],
        .inr (.inl ⟨x, List.mem_append_left _ hx, hC⟩)⟩
    · exact goesOn (.inr now)

end Workshop

end Carpark
