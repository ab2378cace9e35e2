import Carpark.Proofs.Amid

/-!
A commit of one's own among those of others. It is in the tables in full exactly once if it has
succeeded, and not at all if it has not; and if it has lost a race for a row, somebody else has got
into the tables since that row was read.
-/

namespace Carpark

variable {me : TaskId} {own : Ulid → Prop}

/-! ### What no write changes, or those of some transactions alone -/

def Txn.Changes (u : Ulid) (txn : Txn) : Prop := ∃ v, (.reservation u, some v) ∈ txn.expects

namespace Tables

variable {t : Tables} {txn : Txn} {w : Write} {key : RowKey}

structure Shelved (t : Tables) : Prop where
  sector : ∀ {id : Ulid} {s : Sector}, t.sectors.get? id = some s → s.id = id
  reservation : t.Keyed

theorem Indexed.shelved (h : t.Indexed) : t.Shelved := ⟨h.sector_id, h.reservation_id⟩

theorem Shelved.write (h : t.Shelved) (w : Write) : (t.write w).Shelved where
  sector := by
    intro id s hs
    cases w with
    | putSector row =>
      simp only [Tables.write, sectors_putSector, Table.get?_insert] at hs
      split at hs
      next hid =>
        cases hs
        exact hid.symm
      next => exact h.sector hs
    | deleteSector k =>
      simp only [Tables.write, sectors_deleteSector, Table.get?_erase] at hs
      split at hs
      · cases hs
      · exact h.sector hs
    | deleteParking k => exact h.sector (by simpa [Tables.write] using hs)
    | putReservation r => exact h.sector (by simpa [Tables.write] using hs)
    | _ => exact h.sector hs
  reservation := Keyed.write (fun hr => h.reservation hr) w

theorem version?_write (hw : w ∈ txn.writes) (unlocked : key ∉ txn.lockKeys) :
    (t.write w).version? key = t.version? key := by
  rw [version?_eq, version?_eq, row?_write, if_neg]
  intro hkey
  obtain ⟨v, hv, -⟩ := Txn.exists_expects hw hkey
  exact unlocked (Txn.mem_lockKeys.2 (.inl ⟨v, hv⟩))

theorem version?_write_ne_none (hw : w ∈ txn.writes) (spared : ¬ txn.Deletes key)
    (there : t.version? key ≠ none) : (t.write w).version? key ≠ none := by
  rw [version?_eq, row?_write]
  split
  next hkey =>
    intro gone
    exact spared ⟨w, hw, hkey, Option.map_eq_none_iff.1 gone⟩
  next => rwa [version?_eq] at there

theorem version?_write_eq_none {u : Ulid} (hw : w ∈ txn.writes) (others : ¬ txn.Inserts u)
    (unaware : ¬ txn.Changes u) (gone : t.version? (.reservation u) = none) :
    (t.write w).version? (.reservation u) = none := by
  refine (version?_write hw fun locked => ?_).trans gone
  rcases Txn.mem_lockKeys.1 locked with ⟨none | v, hv⟩ | ⟨_, _, _, ⟨⟩⟩
  · exact others hv
  · exact unaware ⟨v, hv⟩

theorem refusal?_of_changes {u : Ulid} (aware : txn.Changes u)
    (gone : t.version? (.reservation u) = none) : t.refusal? txn ≠ none := by
  obtain ⟨v, hv⟩ := aware
  intro accepted
  cases gone.symm.trans ((refusal?_eq_none_iff.1 accepted).1 _ _ hv)

end Tables

theorem Txn.Deletes.locked {txn : Txn} {key : RowKey} (h : txn.Deletes key) :
    key ∈ txn.lockKeys := by
  obtain ⟨w, hw, hkey, -⟩ := h
  obtain ⟨v, hv, -⟩ := exists_expects hw hkey
  exact mem_lockKeys.2 (.inl ⟨v, hv⟩)

namespace Workshop

variable {may : TaskId → Job → Prop} {S S' : Workshop}

theorem Steps.shelved (h : Steps may S S') (hs : S.Sound) (shelved : S.tables.Shelved) :
    S'.tables.Shelved := by
  obtain ⟨_, -, now | ⟨_, -, no⟩ | ⟨_, -, _, _, _, -, -, -, no⟩⟩ :=
    Steps.kept (C := fun _ => False) (fun _ _ no => no.elim) (fun _ _ w _ _ _ h => h.write w) hs h
      (.of_tables shelved)
  · exact now.tables
  · exact no.elim
  · exact no.elim

/-- What was so before and is not so when all locks are taken was changed by somebody who has
landed. -/
theorem Steps.exists_landed {P : Tables → Prop} {C D : Txn → Prop}
    (refuses : ∀ txn t, D txn → P t → t.refusal? txn ≠ none)
    (kept : ∀ txn t w, w ∈ Txn.writes txn → ¬ C txn → ¬ D txn → P t → P (t.write w)) (hs : S.Sound)
    (h : Steps may S S') (start : S.Stands P D) {txn : Txn} {taken : List Nat}
    (checks : ⟨me, .commit txn, .locking taken []⟩ ∈ S'.crew)
    (holds : S'.shared.holdsAll me taken = true) {key : RowKey} (locked : key ∈ txn.lockKeys)
    (hC : ∀ txn', C txn' → key ∈ txn'.lockKeys) (changed : ¬ P S'.tables) :
    ∃ more, S'.landed = S.landed ++ more ∧ ∃ x ∈ more, C x.2 := by
  obtain ⟨more, landed, now | found | ⟨w, hw, writes⟩⟩ := Steps.kept refuses kept hs h start
  · exact absurd now.tables changed
  · exact ⟨more, landed, found⟩
  · exact absurd writes ((Steps.sound h hs).unwritten checks holds locked hC hw)

/-! ### Between two jobs of one's own -/

abbrev Unborn (u : Ulid) : Workshop → Prop :=
  Stands (fun t => t.version? (.reservation u) = none) (Txn.Changes u)

/-- One has nothing under way, and the identifiers that one has to oneself are new. -/
structure Ready (me : TaskId) (own : Ulid → Prop) (S : Workshop) : Prop extends S.Sound where
  shelved : S.tables.Shelved
  others : ∀ w ∈ S.crew, Others me own w.task w.job
  unused : ∀ u, own u → S.Unborn u

theorem Ready.of_steps (h : Ready me own S) (steps : Steps may S S')
    (others : ∀ w ∈ S'.crew, Others me own w.task w.job)
    (landed : ∃ more, S'.landed = S.landed ++ more ∧ ∀ x ∈ more, Others me own x.1 (.commit x.2)) :
    Ready me own S' where
  toSound := Steps.sound steps h.toSound
  shelved := Steps.shelved steps h.toSound h.shelved
  others := others
  unused := fun u hu => by
    obtain ⟨more, landed, theirs⟩ := landed
    obtain ⟨more', landed', now | ⟨x, hx, inserts⟩ | ⟨w, hw, txn, _, _, job, -, -, inserts⟩⟩ :=
      Steps.kept (fun _ _ => Tables.refusal?_of_changes)
        (fun _ _ _ => Tables.version?_write_eq_none) h.toSound steps (h.unused u hu)
    · exact now
    · cases List.append_cancel_left (landed.symm.trans landed')
      exact absurd inserts ((theirs x hx).2 u hu)
    · have avoids := (others w hw).2
      rw [job] at avoids
      exact absurd inserts (avoids u hu)

theorem Ready.later (h : Ready me own S) (steps : Steps (Others me own) S S') :
    Ready me own S' := by
  obtain ⟨others, landed⟩ := Steps.jobs (fun _ _ => id) steps h.others
  exact h.of_steps steps others landed

end Workshop

/-! ### One commit -/

def landings (me : TaskId) (xs : List (TaskId × Txn)) : Nat := xs.countP (·.1 = me)

theorem landings_append (xs ys : List (TaskId × Txn)) :
    landings me (xs ++ ys) = landings me xs + landings me ys := List.countP_append

theorem landings_map_self (txns : List Txn) : landings me (txns.map (me, ·)) = txns.length := by
  rw [landings, List.countP_map, List.countP_eq_length.2]
  exact fun _ _ => decide_eq_true rfl

theorem landings_map_other {i : TaskId} (other : i ≠ me) (txns : List Txn) :
    landings me (txns.map (i, ·)) = 0 := by
  rw [landings, List.countP_map, List.countP_eq_zero]
  exact fun _ _ => by simpa using other

theorem countP_of_landings_eq_zero {xs : List (TaskId × Txn)} (h : landings me xs = 0) :
    xs.countP (·.1 ≠ me) = xs.length :=
  List.countP_eq_length.2 fun x hx => by simpa using List.countP_eq_zero.1 h x hx

/-- How far the commit has got by this stage, having been in the tables in full this often. -/
def Txn.Progress (txn : Txn) (n : Nat) (refused : CommitError → Prop) : Stage → Prop
  | .start => n = 0
  | .joined | .locking .. | .fetched .. | .logging _ => txn.isEmpty = false ∧ n = 0
  | .applying _ rest => txn.isEmpty = false ∧ n = if rest.isEmpty then 1 else 0
  | .unlocking _ (.ok _) | .released _ _ (.ok _) | .tidying _ (.ok _) => txn.isEmpty = false ∧ n = 1
  | .finished (.ok _) => n = if txn.isEmpty then 0 else 1
  | .unlocking _ (.error e) | .released _ _ (.error e) | .tidying _ (.error e)
  | .finished (.error e) => n = 0 ∧ refused e

theorem Txn.Progress.mono {txn : Txn} {n : Nat} {refused refused' : CommitError → Prop}
    {stage : Stage} (h : txn.Progress n refused stage) (hr : ∀ e, refused e → refused' e) :
    txn.Progress n refused' stage := by
  cases stage with
  | unlocking taken result | released lock taken result | tidying rest result | finished result =>
    cases result with
    | ok m => exact h
    | error e => exact h.imp_right (hr e)
  | _ => exact h

theorem Txn.ordered_writes_isEmpty {txn : Txn} (h : txn.isEmpty = false) :
    (Commit.ordered txn.writes).isEmpty = false := (Commit.ordered_perm _).isEmpty_eq.trans h

theorem Txn.Progress.step {txn : Txn} {n : Nat} {refused : CommitError → Prop}
    {stage stage' : Stage} {s s' : SharedStore} (h : txn.Progress n refused stage)
    (step : s.step me (.commit txn) stage = some (s', stage'))
    (refuses : ∀ taken e, stage = .locking taken [] → s.holdsAll me taken = true →
      s.store.tables.refusal? txn = some e → refused e)
    (loses : ∀ reason, refused (.log reason)) :
    txn.Progress (n + ((Job.commit txn).lands stage).length) refused stage' := by
  rcases SharedStore.step_cases step with ⟨_, taken, w, rest, ⟨⟩, rfl, rfl, rfl⟩ |
    ⟨moves, -, lands, other⟩
  · obtain ⟨writes, rfl⟩ := h
    cases rest with
    | nil => exact ⟨writes, rfl⟩
    | cons w' rest => exact ⟨writes, rfl⟩
  · rw [lands, List.length_nil, Nat.add_zero]
    cases moves with
    | skip empty => exact h.trans (if_pos empty).symm
    | share writes => exact ⟨writes, h⟩
    | enter => exact h
    | fetch => exact h
    | lock => exact h
    | refuse holds refusal => exact ⟨h.2, refuses _ _ rfl holds refusal⟩
    | pass => exact h
    | logged => exact ⟨h.1, h.2.trans (if_neg (by simp [ordered_writes_isEmpty h.1])).symm⟩
    | @lost _ _ answer e _ error =>
      refine ⟨h.2, ?_⟩
      cases answer with
      | refused reason =>
        cases error
        exact loses reason
      | _ => cases error
    | @write _ taken c =>
      cases c with
      | nil => exact h
      | cons w c => exact absurd rfl (other txn taken w c rfl)
    | @unlock _ _ _ result => cases result <;> exact h
    | @drop _ _ _ result => cases result <;> exact h
    | @leave _ result => cases result <;> exact h
    | @tidy _ _ _ result => cases result <;> exact h
    | @finish _ result =>
      cases result with
      | ok m => exact h.2.trans (if_neg (by simp [h.1])).symm
      | error e => exact h

namespace Workshop

variable {S S' S'' : Workshop} {txn : Txn} {result : Except CommitError Nat}

def Refused (me : TaskId) (txn : Txn) (S S' : Workshop) (e : CommitError) : Prop :=
  (∃ reason, e = .log reason) ∨ ∃ C taken, Steps (fun _ _ => True) S C ∧ C.landed <+: S'.landed ∧
    ⟨me, .commit txn, .locking taken []⟩ ∈ C.crew ∧ C.shared.holdsAll me taken = true ∧
    C.tables.refusal? txn = some e

/-- From the first state to the second one has been at this commit and nothing else. -/
def Underway (me : TaskId) (txn : Txn) (S S' : Workshop) : Prop :=
  ∃ more, S'.landed = S.landed ++ more ∧ ∀ w ∈ S'.crew, w.task = me →
    w.job = .commit txn ∧ txn.Progress (landings me more) (Refused me txn S S') w.stage

theorem Underway.step (h : Underway me txn S S') (steps : Steps (fun _ _ => True) S S')
    (sound : S'.Sound) (step : Step (Others me own) S' S'') : Underway me txn S S'' := by
  obtain ⟨more, landed, mine⟩ := h
  have grows := step.landed
  have refused (e : CommitError) (h : Refused me txn S S' e) : Refused me txn S S'' e :=
    h.imp_right fun ⟨C, taken, before, upTo, rest⟩ => ⟨C, taken, before, upTo.trans grows, rest⟩
  have same (w : Worker) (hw : w ∈ S'.crew) (task : w.task = me) :=
    (mine w hw task).imp_right (·.mono refused)
  cases step with
  | start _ brings =>
    exact ⟨more, landed, List.forall_mem_cons.2 ⟨fun task => absurd task brings.1, same⟩⟩
  | retire crew => exact ⟨more, landed, fun w hw => same w (crew.mem_iff.2 (.tail _ hw))⟩
  | log => exact ⟨more, landed, same⟩
  | @work others i job stage stage' shared crew step =>
    refine ⟨more ++ (job.lands stage).map (i, ·), ?_, ?_⟩
    · exact (congrArg (· ++ _) landed).trans (List.append_assoc _ _ _)
    · rw [landings_append]
      have guarded := (sound.perm crew).guarded
      by_cases hi : i = me
      · subst hi
        obtain ⟨rfl, progress⟩ := same _ (crew.mem_iff.2 (.head _)) rfl
        rw [landings_map_self]
        refine List.forall_mem_cons.2 ⟨fun _ => ⟨rfl, progress.step step ?_ ?_⟩,
          fun w hw task => absurd task (guarded.other hw)⟩
        · rintro taken e rfl holds refusal
          exact .inr ⟨S', taken, steps, grows, crew.mem_iff.2 (.head _), holds, refusal⟩
        · exact fun reason => .inl ⟨reason, rfl⟩
      · rw [landings_map_other hi]
        exact List.forall_mem_cons.2 ⟨fun task => absurd task hi,
          fun w hw => same w (crew.mem_iff.2 (.tail _ hw))⟩

theorem Underway.steps (sound : S.Sound) (start : Underway me txn S S)
    (h : Steps (Others me own) S S') : Underway me txn S S' := by
  induction h with
  | refl => exact start
  | tail steps step ih =>
    exact ih.step (Steps.mono (fun _ _ _ => trivial) steps) (Steps.sound steps sound) step

theorem Does.commit (ready : Ready me own S) (h : Does me own (.commit txn) S result S') :
    ∃ more, S'.landed = S.landed ++ more ∧
      (∀ x ∈ more, x.1 ≠ me → Others me own x.1 (.commit x.2)) ∧
      match result with
      | .ok _ => landings me more = if txn.isEmpty then 0 else 1
      | .error e => landings me more = 0 ∧ Ready me own S' ∧ Refused me txn S S' e := by
  obtain ⟨S₁, others, fresh, steps, crew, rfl⟩ := h
  have brought : Step (fun _ _ => True) S { S with crew := ⟨me, .commit txn, .start⟩ :: S.crew } :=
    .start fresh trivial
  have sound := brought.sound ready.toSound
  have onward : Steps (fun _ _ => True) _ S₁ := Steps.mono (fun _ _ _ => trivial) steps
  obtain ⟨more, landed, mine⟩ := Underway.steps sound ⟨[], (List.append_nil _).symm,
    List.forall_mem_cons.2 ⟨fun _ => ⟨rfl, rfl⟩, fun w hw task => absurd task (fresh w hw)⟩⟩ steps
  have progress := (mine _ (crew.mem_iff.2 (.head _)) rfl).2
  -- Others have brought what they may, and one has brought this commit.
  obtain ⟨jobs, _, landed', brought'⟩ := Steps.jobs
    (Q := fun i job => i ≠ me → Others me own i job) (fun _ _ h _ => h) steps
    (List.forall_mem_cons.2 ⟨fun other => absurd rfl other, fun w hw _ => ready.others w hw⟩)
  cases List.append_cancel_left (landed.symm.trans landed')
  refine ⟨more, landed, brought', ?_⟩
  cases result with
  | ok n => exact progress
  | error e =>
    obtain ⟨none, refused⟩ := progress
    have guarded := ((Steps.sound steps sound).perm crew).guarded
    have theirs (x : TaskId × Txn) (hx : x ∈ more) : Others me own x.1 (.commit x.2) :=
      brought' x hx fun own => by simpa [own] using List.countP_eq_zero.1 none x hx
    refine ⟨none, ?_, refused.imp_right fun ⟨C, taken, before, rest⟩ =>
      ⟨C, taken, .head brought before, rest⟩⟩
    exact ready.of_steps ((Relation.ReflTransGen.head brought onward).tail (.retire crew))
      (fun w hw => jobs w (crew.mem_iff.2 (.tail _ hw)) (guarded.other hw)) ⟨more, landed, theirs⟩

end Workshop

/-! ### Lost races -/

theorem Tables.staleRow?_eq_some {t : Tables} {txn : Txn} {e : CommitError}
    (h : t.staleRow? txn = some e) : ∃ key v, (key, v) ∈ txn.expects ∧ t.version? key ≠ v ∧
      e = .versionMismatch key v (t.version? key) := by
  obtain ⟨⟨key, v⟩, hv, stale⟩ := List.exists_of_findSome?_eq_some h
  simp only [Option.ite_none_left_eq_some, Option.some.injEq] at stale
  exact ⟨key, v, hv, stale.1, stale.2.symm⟩

def Failure.isStale : Failure → Bool
  | .versionMismatch .. => true
  | _ => false

theorem Failure.isStale_of_isRowContention {e : Failure} (h : e.isRowContention = true) :
    e.isStale = true := by
  unfold isRowContention at h
  split at h
  · rfl
  · rfl
  · cases h

namespace Workshop

variable {S S₁ S' : Workshop} {txn : Txn}

/-- What may be expected of a row: its version at some instant, or that it is not there yet. -/
inductive Seen (me : TaskId) (own : Ulid → Prop) (S S' : Workshop) : RowKey → Option Version → Prop
  | fresh {u : Ulid} : own u → Seen me own S S' (.reservation u) none
  | sector {s : Sector} {S₁ : Workshop} : Steps (Others me own) S S₁ →
    Steps (Others me own) S₁ S' → S₁.tables.sectors.get? s.id = some s →
    Seen me own S S' (.sector s.id) (some s.version)
  | reservation {r : Reservation} {S₁ : Workshop} : Steps (Others me own) S S₁ →
    Steps (Others me own) S₁ S' → S₁.tables.reservations.get? r.id = some r →
    Seen me own S S' (.reservation r.id) (some r.version)

theorem Seen.row {key : RowKey} {v : Version} (h : Seen me own S S' key (some v)) :
    (∃ S₁, Steps (Others me own) S S₁ ∧ Steps (Others me own) S₁ S' ∧
      S₁.tables.version? key = some v) ∧
      ∀ now, (Failure.ofCommit (.versionMismatch key (some v) (some now))).isRowContention =
        true := by
  cases h with
  | sector before after row =>
    exact ⟨⟨_, before, after, Option.map_eq_some_iff.2 ⟨_, row, rfl⟩⟩, fun _ => rfl⟩
  | reservation before after row =>
    exact ⟨⟨_, before, after, Option.map_eq_some_iff.2 ⟨_, row, rfl⟩⟩, fun _ => rfl⟩

theorem Seen.changed (ready : Ready me own S) (reads : Steps (Others me own) S S₁)
    {key : RowKey} {v : Option Version} (seen : Seen me own S S₁ key v) {C : Workshop}
    (steps : Steps (fun _ _ => True) S₁ C) {taken : List Nat}
    (checks : ⟨me, .commit txn, .locking taken []⟩ ∈ C.crew)
    (holds : C.shared.holdsAll me taken = true) (locked : key ∈ txn.lockKeys)
    (changed : C.tables.version? key ≠ v) :
    ∃ (Sr : Workshop) (xs : List (TaskId × Txn)), S.landed <+: Sr.landed ∧
      C.landed = Sr.landed ++ xs ∧
      ((∃ x ∈ xs, ∃ u, own u ∧ x.2.Inserts u) ∨ xs ≠ [] ∧
        ((Failure.ofCommit (.versionMismatch key v (C.tables.version? key))).isRowContention =
            true ∨
          ∃ x ∈ xs, x.2.Deletes key)) := by
  cases v with
  | none =>
    cases seen with
    | @fresh u hu =>
      have ready₁ := ready.later reads
      obtain ⟨xs, landed, x, hx, theirs⟩ := Steps.exists_landed
        (fun _ _ => Tables.refusal?_of_changes) (fun _ _ _ => Tables.version?_write_eq_none)
        ready₁.toSound steps (ready₁.unused u hu) checks holds locked
        (fun _ h => Txn.mem_lockKeys.2 (.inl ⟨_, h⟩)) changed
      exact ⟨S₁, xs, Steps.landed reads, landed, .inl ⟨x, hx, u, hu, theirs⟩⟩
  | some v =>
    obtain ⟨⟨Sr, before, after, row⟩, again⟩ := seen.row
    have sound := (ready.later before).toSound
    have onward := (Steps.mono (fun _ _ _ => trivial) after).trans steps
    obtain ⟨xs, landed, x, hx, -⟩ := Steps.exists_landed
      (P := fun t => t.version? key = some v) (C := fun txn => key ∈ txn.lockKeys)
      (fun _ _ no => no.elim) (fun _ _ _ hw free _ row => (Tables.version?_write hw free).trans row)
      sound onward (.of_tables row) checks holds locked (fun _ h => h) changed
    refine ⟨Sr, xs, Steps.landed before, landed, .inr ⟨List.ne_nil_of_mem hx, ?_⟩⟩
    cases now : C.tables.version? key with
    | some w => exact .inl (again w)
    | none =>
      obtain ⟨xs', landed', found⟩ := Steps.exists_landed
        (P := fun t => t.version? key ≠ Option.none) (fun _ _ no => no.elim)
        (fun _ _ _ hw spared _ => Tables.version?_write_ne_none hw spared) sound onward
        (.of_tables (row ▸ Option.some_ne_none v)) checks holds locked (fun _ h => h.locked) (· now)
      cases List.append_cancel_left (landed.symm.trans landed')
      exact .inr found

/-- What has been staged expects of each row what has been seen of it. -/
structure Staged (me : TaskId) (own : Ulid → Prop) (S : Workshop) (txn : Txn) (S' : Workshop) :
    Prop where
  claims : txn.claims = []
  expects : ∀ p ∈ txn.expects, Seen me own S S' p.1 p.2

theorem Staged.nil : Staged me own S [] S' := ⟨rfl, List.forall_mem_nil _⟩

theorem landings_of_others {xs : List (TaskId × Txn)}
    (h : ∀ x ∈ xs, Others me own x.1 (.commit x.2)) : landings me xs = 0 :=
  List.countP_eq_zero.2 fun x hx => by simpa using (h x hx).1

/-- Who fails over the version of a row has lost a race to somebody who has landed. -/
theorem Staged.lost (ready : Ready me own S) (reads : Steps (Others me own) S S₁)
    (staged : Staged me own S txn S₁) {e : CommitError}
    (does : Does me own (.commit txn) S₁ (.error e) S') :
    ∃ more, S'.landed = S.landed ++ more ∧ landings me more = 0 ∧ Ready me own S' ∧
      ((Failure.ofCommit e).isStale = true → more ≠ [] ∧
        ((Failure.ofCommit e).isRowContention = true ∨ ∃ x ∈ more, ∃ key, x.2.Deletes key)) := by
  have ready₁ := ready.later reads
  obtain ⟨-, more₁, landed₁, theirs₁⟩ := Steps.jobs (fun _ _ => id) reads ready.others
  obtain ⟨more₂, landed₂, theirs₂, none, ready', refused⟩ := does.commit ready₁
  have landed : S'.landed = S.landed ++ (more₁ ++ more₂) := by
    rw [landed₂, landed₁, List.append_assoc]
  have theirs (x : TaskId × Txn) (hx : x ∈ more₁ ++ more₂) : Others me own x.1 (.commit x.2) := by
    rcases List.mem_append.1 hx with hx | hx
    · exact theirs₁ x hx
    · exact theirs₂ x hx fun mine => by simpa [mine] using List.countP_eq_zero.1 none x hx
  refine ⟨more₁ ++ more₂, landed, landings_of_others theirs, ready', fun stale => ?_⟩
  obtain ⟨reason, rfl⟩ | ⟨C, taken, steps, upTo, checks, holds, refusal⟩ := refused
  · cases stale
  -- Whoever has got into the tables between a reading and the check is among them.
  have since {Sr : Workshop} {xs : List (TaskId × Txn)} (before : S.landed <+: Sr.landed)
      (h : C.landed = Sr.landed ++ xs) (x : TaskId × Txn) (hx : x ∈ xs) : x ∈ more₁ ++ more₂ := by
    obtain ⟨first, hfirst⟩ := before
    obtain ⟨last, hlast⟩ := upTo
    rw [← hlast, h, ← hfirst, List.append_assoc, List.append_assoc] at landed
    rw [← List.append_cancel_left landed]
    exact List.mem_append_right _ (List.mem_append_left _ hx)
  have free : C.tables.takenAddress? txn = Option.none := by
    rw [Tables.takenAddress?, staged.claims]
    rfl
  rw [Tables.refusal?, free, Option.or_none] at refusal
  obtain ⟨key, v, hv, changed, rfl⟩ := Tables.staleRow?_eq_some refusal
  have locked : key ∈ txn.lockKeys := Txn.mem_lockKeys.2 (.inl ⟨v, hv⟩)
  obtain ⟨Sr, xs, before, landedC, ⟨x, hx, u, hu, used⟩ | ⟨some, why⟩⟩ :=
    (staged.expects _ hv).changed ready reads steps checks holds locked changed
  · exact absurd used ((theirs x (since before landedC x hx)).2 u hu)
  · refine ⟨?_, why.imp_right fun deleted => ?_⟩
    · obtain ⟨x, hx⟩ := List.exists_mem_of_ne_nil _ some
      exact List.ne_nil_of_mem (since before landedC x hx)
    · obtain ⟨x, hx, deletes⟩ := deleted
      exact ⟨x, since before landedC x hx, key, deletes⟩

end Workshop

end Carpark
