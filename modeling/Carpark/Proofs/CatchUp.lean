import Carpark.Proofs.Forecast
import Carpark.Proofs.Sweeps

/-!
A sweep that was missed is made up for by the next one: what was due stays due until it is done, and
it is done in the same way at whichever sweep. Only the gate log tells at which of them an
overstayed car was written off.
-/

namespace Carpark

/-! ### What becomes of what is due -/

namespace Tables

/-- What steps of a sweep from `t` to `t'` have made of a row: it waits as before, or is done for
good. -/
inductive Fares (settings : Settings) (now : Ms) (t t' : Tables) (phase : SweepPhase) (id : Ulid) :
    Prop
  | waits :
    (∀ later, now ≤ later →
      (id ∈ t'.due settings later phase ↔ id ∈ t.due settings later phase)) →
    (phase = .forceEnded → t'.eventsOf id = t.eventsOf id) → Fares settings now t t' phase id
  | settled :
    id ∈ t.due settings now phase →
    (∀ later, now ≤ later → id ∉ t'.due settings later phase) →
    (phase = .forceEnded → ∃ u, t'.eventsOf id = t.eventsOf id ++ [.forcedExit u id now]) →
    Fares settings now t t' phase id

namespace Fares

variable {settings : Settings} {now : Ms} {t t' t'' : Tables} {phase : SweepPhase} {id : Ulid}

theorem refl (settings : Settings) (now : Ms) (t : Tables) (phase : SweepPhase) (id : Ulid) :
    Fares settings now t t phase id :=
  .waits (fun _ _ => .rfl) fun _ => rfl

theorem trans (h : Fares settings now t t' phase id) (h' : Fares settings now t' t'' phase id) :
    Fares settings now t t'' phase id := by
  cases h with
  | waits due events =>
    cases h' with
    | waits due' events' =>
      exact .waits (fun later hle => (due' later hle).trans (due later hle))
        fun hphase => (events' hphase).trans (events hphase)
    | settled found gone exits =>
      refine .settled ((due now (Int.le_refl _)).1 found) gone fun hphase => ?_
      rw [← events hphase]
      exact exits hphase
  | settled found gone exits =>
    cases h' with
    | waits due' events' =>
      refine .settled found (fun later hle => mt (due' later hle).1 (gone later hle)) ?_
      intro hphase
      rw [events' hphase]
      exact exits hphase
    | settled found' =>
      -- nothing is done twice
      exact absurd found' (gone now (Int.le_refl _))

section

variable (h : Fares settings now t t' phase id) (idle : t'.due settings now phase = [])

include h idle

theorem mem_due_iff {later : Ms} (hle : now ≤ later) :
    id ∈ t'.due settings later phase ↔
      id ∈ t.due settings later phase ∧ id ∉ t.due settings now phase := by
  cases h with
  | waits due _ =>
    have early : id ∉ t.due settings now phase := by
      rw [← due now (Int.le_refl _), idle]
      exact List.not_mem_nil
    rw [due later hle]
    exact (and_iff_left early).symm
  | settled found gone _ => exact iff_of_false (gone later hle) fun rest => rest.2 found

theorem eventsOf (hphase : phase = .forceEnded) :
    if id ∈ t.due settings now phase then
      ∃ u, t'.eventsOf id = t.eventsOf id ++ [.forcedExit u id now]
    else t'.eventsOf id = t.eventsOf id := by
  cases h with
  | waits due events =>
    rw [if_neg]
    · exact events hphase
    · rw [← due now (Int.le_refl _), idle]
      exact List.not_mem_nil
  | settled found _ exits =>
    rw [if_pos found]
    exact exits hphase

end

end Fares

variable {settings : Settings} {now : Ms} {t t' : Tables} {phase : SweepPhase} {id : Ulid}

theorem SweepStep.fares (h : SweepStep settings now t phase id t') (p : SweepPhase) (k : Ulid) :
    Fares settings now t t' p k := by
  have due {later : Ms} (hle : now ≤ later) :
      k ∈ t'.due settings later p ↔ k ∈ t.due settings later p ∧ ¬ (p = phase ∧ k = id) := by
    rw [h.clears hle p, List.mem_filter, decide_eq_true_eq, List.mem_singleton]
  by_cases here : p = phase ∧ k = id
  · obtain ⟨rfl, rfl⟩ := here
    refine .settled h.due (fun later hle => ?_) ?_
    · simp [due hle]
    · rintro rfl
      cases h with
      | ends hphase => exact absurd rfl hphase
      | @evicts r s u => exact ⟨u, by simp [eventsOf_addEvent, GateEvent.forcedExit]⟩
  · refine .waits (fun later hle => ?_) ?_
    · rw [due hle]
      exact and_iff_left here
    · rintro rfl
      cases h with
      | ends => rw [eventsOf_putReservation]
      | @evicts r s u =>
        have other : k ≠ r.id := fun same => here ⟨rfl, same⟩
        simp [eventsOf_addEvent, GateEvent.forcedExit, other]
      | closes => rfl

end Tables

/-! ### Reports -/

instance : Add SweepReport where
  add r r' := {
    expired := r.expired + r'.expired
    forceEnded := r.forceEnded + r'.forceEnded
    closed := r.closed + r'.closed
    deactivated := r.deactivated + r'.deactivated
    failed := r.failed + r'.failed }

namespace Tables

def backlog (settings : Settings) (now : Ms) (t : Tables) : SweepReport where
  expired := (t.due settings now .expired).length
  forceEnded := (t.due settings now .forceEnded).length
  closed := (t.due settings now .closed).length
  deactivated := (t.due settings now .deactivated).length
  failed := 0

variable {settings : Settings} {now later : Ms} {t t' : Tables}

theorem backlog_add (hle : now ≤ later)
    (rest : ∀ phase id, id ∈ t'.due settings later phase ↔
      id ∈ t.due settings later phase ∧ id ∉ t.due settings now phase) :
    t.backlog settings now + t'.backlog settings later = t.backlog settings later := by
  have split (phase : SweepPhase) : (t.due settings now phase).length +
      (t'.due settings later phase).length = (t.due settings later phase).length := by
    rw [← List.length_append]
    refine List.Perm.length_eq ((List.perm_ext_iff_of_nodup ?_ (due_nodup phase)).2 fun id => ?_)
    · refine List.nodup_append.2 ⟨due_nodup phase, due_nodup phase, ?_⟩
      rintro id found _ left rfl
      exact ((rest phase id).1 left).2 found
    · rw [List.mem_append, rest phase id]
      have early : id ∈ t.due settings now phase → id ∈ t.due settings later phase := due_mono hle
      tauto
  exact (SweepReport.mk.injEq ..).mpr ⟨split _, split _, split _, split _, rfl⟩

end Tables

namespace Engine

variable {e : Engine} {cs : List Commit} {now later : Ms}

theorem Sound.fares (hs : e.Sound cs) (now : Ms) (phase : SweepPhase) (id : Ulid) :
    e.tables.Fares e.settings now
      (e.run (Request.program e.settings (.sweep now))).engine.tables phase id :=
  hs.invariant_sweep (P := fun t => e.tables.Fares e.settings now t phase id) (.refl _ _ _ _ _)
    fun _ step fares => fares.trans (step.fares phase id)

theorem Reachable.run_sweep (h : e.Reachable cs) (now : Ms) :
    let o := e.run (Request.program e.settings (.sweep now))
    o.answer = .ok (.report (some (e.tables.backlog e.settings now))) ∧
      ∀ phase, o.engine.tables.due e.settings now phase = [] := by
  intro o
  obtain ⟨report, -, -, done⟩ := @Sweepable.run_sweep e.settings now _ h.sweepable h.alone
  obtain ⟨answer, engine⟩ : o.answer = .ok (.report (e.run (Sweep.once e.settings now)).answer) ∧
      o.engine = (e.run (Sweep.once e.settings now)).engine := by
    simp only [o]
    rw [Request.program, run_bind_answer, run_bind_engine]
    exact ⟨rfl, rfl⟩
  rw [answer, engine, report]
  exact ⟨rfl, done⟩

theorem Reachable.rows_sweep (h : e.Reachable cs) (now : Ms) :
    (e.run (Request.program e.settings (.sweep now))).engine.tables.rows =
      e.tables.forecast e.settings now := by
  rw [← h.sound.forecast_sweep (Int.le_refl now)]
  exact (Tables.forecast_of_idle (h.run_sweep now).2 (h.asked (.sweep now)).linked).symm

theorem Reachable.eventsOf_sweep (h : e.Reachable cs) (now : Ms) (id : Ulid) :
    let o := e.run (Request.program e.settings (.sweep now))
    if id ∈ e.tables.due e.settings now .forceEnded then
      ∃ u, o.engine.tables.eventsOf id = e.tables.eventsOf id ++ [.forcedExit u id now]
    else o.engine.tables.eventsOf id = e.tables.eventsOf id :=
  (h.sound.fares now .forceEnded id).eventsOf ((h.run_sweep now).2 .forceEnded) rfl

theorem Reachable.eventsOf_early (h : e.Reachable cs) (hle : now ≤ later) (id : Ulid) :
    let early := e.run (Request.program e.settings (.sweep now))
    let late := early.engine.run (Request.program e.settings (.sweep later))
    if id ∈ e.tables.due e.settings later .forceEnded then
      ∃ u, late.engine.tables.eventsOf id = e.tables.eventsOf id ++ [.forcedExit u id
        (if id ∈ e.tables.due e.settings now .forceEnded then now else later)]
    else late.engine.tables.eventsOf id = e.tables.eventsOf id := by
  intro early late
  have settings : early.engine.settings = e.settings := settings_run e _
  have h' : early.engine.Reachable _ := h.asked (.sweep now)
  have first := h.eventsOf_sweep now id
  have second := h'.eventsOf_sweep later id
  simp only [settings] at second
  have left : id ∈ early.engine.tables.due e.settings later .forceEnded ↔
      id ∈ e.tables.due e.settings later .forceEnded ∧
        id ∉ e.tables.due e.settings now .forceEnded :=
    (h.sound.fares now .forceEnded id).mem_due_iff ((h.run_sweep now).2 .forceEnded) hle
  by_cases overdue : id ∈ e.tables.due e.settings later .forceEnded
  · by_cases before : id ∈ e.tables.due e.settings now .forceEnded
    · rw [if_pos before] at first
      rw [if_neg fun found => (left.1 found).2 before] at second
      rw [if_pos overdue, if_pos before]
      obtain ⟨u, first⟩ := first
      exact ⟨u, second.trans first⟩
    · rw [if_neg before] at first
      rw [if_pos (left.2 ⟨overdue, before⟩)] at second
      rw [if_pos overdue, if_neg before, ← first]
      exact second
  · rw [if_neg (mt (Tables.due_mono hle) overdue)] at first
    rw [if_neg fun found => overdue (left.1 found).1] at second
    rw [if_neg overdue]
    exact second.trans first

/-- An early sweep changes nothing in the end: rows and the sum of the reports are those of the
later sweep alone. Only the forced exits bear the time of the sweep that wrote them. -/
theorem Reachable.sweep_early (h : e.Reachable cs) (hle : now ≤ later) :
    let early := e.run (Request.program e.settings (.sweep now))
    let late := early.engine.run (Request.program e.settings (.sweep later))
    let alone := e.run (Request.program e.settings (.sweep later))
    late.engine.tables = { alone.engine.tables with events := late.engine.tables.events } ∧
      (∀ id ∉ e.tables.due e.settings later .forceEnded,
        late.engine.tables.eventsOf id = e.tables.eventsOf id ∧
          alone.engine.tables.eventsOf id = e.tables.eventsOf id) ∧
      (∀ id ∈ e.tables.due e.settings later .forceEnded, ∃ u u',
        late.engine.tables.eventsOf id = e.tables.eventsOf id ++ [.forcedExit u id
          (if id ∈ e.tables.due e.settings now .forceEnded then now else later)] ∧
        alone.engine.tables.eventsOf id = e.tables.eventsOf id ++ [.forcedExit u' id later]) ∧
      ∃ r r', early.answer = .ok (.report (some r)) ∧ late.answer = .ok (.report (some r')) ∧
        alone.answer = .ok (.report (some (r + r'))) := by
  intro early late alone
  have settings : early.engine.settings = e.settings := settings_run e _
  have h' : early.engine.Reachable _ := h.asked (.sweep now)
  obtain ⟨report, done⟩ := h.run_sweep now
  obtain ⟨report', -⟩ := h'.run_sweep later
  have rows := h'.rows_sweep later
  rw [settings] at report' rows
  refine ⟨Tables.eq_of_rows ?_, fun id inTime => ?_, fun id overdue => ?_, _, _, report, report',
    ?_⟩
  · calc late.engine.tables.rows
        = early.engine.tables.forecast e.settings later := rows
      _ = e.tables.forecast e.settings later := h.sound.forecast_sweep hle
      _ = alone.engine.tables.rows := (h.rows_sweep later).symm
  · have twice := h.eventsOf_early hle id
    have once := h.eventsOf_sweep later id
    rw [if_neg inTime] at once twice
    exact ⟨twice, once⟩
  · have twice := h.eventsOf_early hle id
    have once := h.eventsOf_sweep later id
    rw [if_pos overdue] at once twice
    obtain ⟨u, twice⟩ := twice
    obtain ⟨u', once⟩ := once
    exact ⟨u, u', twice, once⟩
  · have rest (phase : SweepPhase) (id : Ulid) :=
      (h.sound.fares now phase id).mem_due_iff (done phase) hle
    rw [Tables.backlog_add hle rest]
    exact (h.run_sweep later).1

def twoCars : Engine :=
  oneCar.serve [.operation ⟨.anonymous, 10 * hour⟩ (.driveIn (.ofNat 1) true)]

set_option maxRecDepth 10000 in
theorem sweep_early_twoCars :
    let early := twoCars.run (Request.program twoCars.settings (.sweep (25 * hour)))
    let late := early.engine.run (Request.program twoCars.settings (.sweep (35 * hour)))
    let alone := twoCars.run (Request.program twoCars.settings (.sweep (35 * hour)))
    ∃ cs, twoCars.Reachable cs ∧ 25 * hour ≤ 35 * hour ∧
      late.engine.tables = { alone.engine.tables with events := late.engine.tables.events } ∧
      (∃ u u', late.engine.tables.eventsOf (.ofNat 4) =
          twoCars.tables.eventsOf (.ofNat 4) ++ [.forcedExit u (.ofNat 4) (25 * hour)] ∧
        alone.engine.tables.eventsOf (.ofNat 4) =
          twoCars.tables.eventsOf (.ofNat 4) ++ [.forcedExit u' (.ofNat 4) (35 * hour)]) ∧
      (∃ u u', late.engine.tables.eventsOf (.ofNat 7) =
          twoCars.tables.eventsOf (.ofNat 7) ++ [.forcedExit u (.ofNat 7) (35 * hour)] ∧
        alone.engine.tables.eventsOf (.ofNat 7) =
          twoCars.tables.eventsOf (.ofNat 7) ++ [.forcedExit u' (.ofNat 7) (35 * hour)]) ∧
      early.answer = .ok (.report (some { forceEnded := 1 })) ∧
      alone.answer = .ok (.report (some { forceEnded := 2 })) := by
  intro early late alone
  obtain ⟨cs, reachable⟩ : ∃ cs, oneCar.Reachable cs := (Reachable.fresh _ _ _ _).serve _
  obtain ⟨cs, reachable⟩ : ∃ cs, twoCars.Reachable cs := reachable.serve _
  have order : 25 * hour ≤ 35 * hour := by decide
  have first : twoCars.tables.due twoCars.settings (25 * hour) .forceEnded = [.ofNat 4] := by decide
  have both : twoCars.tables.due twoCars.settings (35 * hour) .forceEnded =
      [.ofNat 4, .ofNat 7] := by decide
  obtain ⟨rows, -, exits, -⟩ := Reachable.sweep_early reachable order
  refine ⟨cs, reachable, order, rows, ?_, ?_, ?_, ?_⟩
  · have := exits (.ofNat 4) (by simp [both])
    simpa [first] using this
  · have := exits (.ofNat 7) (by simp [both])
    have ne : (.ofNat 7 : Ulid) ≠ .ofNat 4 := by decide
    simpa [first, ne] using this
  · rfl
  · rfl

end Engine

end Carpark
