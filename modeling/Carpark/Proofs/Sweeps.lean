import Carpark.Proofs.Alone
import Carpark.Proofs.Due
import Carpark.Proofs.Traces
import Carpark.Proofs.Twins
import Mathlib.Data.List.Basic

/-!
A sweep that runs alone finishes its job: it does what it finds to do, fails at nothing, and leaves
nothing to do behind.
-/

namespace Carpark

/-! ### What a phase finds -/

namespace Listing

theorem eval_go (fits : Reservation → List GateEvent → Bool) (t : Tables) (ids : Nat → Ulid)
    (rs : List Reservation) (n : Nat) :
    (selectReservations.go fits rs).eval t ids n =
      ((rs.filter fun r => fits r (t.eventsOf r.id)).map (·.id), n) := by
  induction rs generalizing n with
  | nil => rfl
  | cons r rs ih =>
    have rest := Reading.eval_bind t ids (selectReservations.go fits rs) (fun more =>
      .done (if fits r (t.eventsOf r.id) then r.id :: more else more)) n
    refine rest.trans ?_
    rw [ih]
    cases chosen : fits r (t.eventsOf r.id) <;> simp [Reading.eval, chosen]

theorem eval_selectReservations {t : Tables} (ht : t.Indexed)
    (fits : Reservation → List GateEvent → Bool) (ids : Nat → Ulid) (n : Nat) :
    (selectReservations fits).eval t ids n =
      (t.reservations.keys.filter fun id =>
        (t.reservations.get? id).any fun r => fits r (t.eventsOf id), n) := by
  refine (eval_go fits t ids t.reservations.values n).trans ?_
  rw [Table.map_filter_values fun h => ht.reservation_id h]
  refine congrArg (·, n) (List.filter_congr fun id _ => ?_)
  cases hr : t.reservations.get? id with
  | none => rfl
  | some r => simp [ht.reservation_id hr]

theorem eval_lapsed {t : Tables} (ht : t.Indexed) (now : Ms) (ids : Nat → Ulid) (n : Nat) :
    (lapsed now).eval t ids n =
      (t.sectors.keys.filter fun id => (t.sectors.get? id).any (·.isLapsed now), n) := by
  rw [← Table.map_filter_values fun h => ht.sector_id h]
  refine congrArg (·, n) (?_ : t.sectors.values.filterMap _ = _)
  induction t.sectors.values with
  | nil => rfl
  | cons s ss ih => cases lapsed : s.isLapsed now <;> simp_all [Sector.isLapsed]

end Listing

namespace Sweep

variable {t : Tables} (ht : t.Indexed) (settings : Settings) (now : Ms) (ids : Nat → Ulid) (n : Nat)

include ht

theorem eval_candidates (phase : SweepPhase) :
    (candidates settings now phase).eval t ids n = (t.due settings now phase, n) := by
  cases phase with
  | deactivated => exact Listing.eval_lapsed ht now ids n
  | _ => exact Listing.eval_selectReservations ht _ ids n

theorem eval_survey (phases : List SweepPhase) :
    (survey settings now phases).eval t ids n =
      (phases.map fun p => (p, t.due settings now p), n) := by
  induction phases with
  | nil => rfl
  | cons phase rest ih =>
    refine (Reading.eval_bind t ids (candidates settings now phase) _ n).trans ?_
    rw [eval_candidates ht settings now ids n]
    refine (Reading.eval_bind t ids (survey settings now rest) _ n).trans ?_
    rw [ih]
    rfl

end Sweep

/-! ### One row -/

theorem SweepPhase.program_operation (settings : Settings) (now : Ms) (id : Ulid)
    (phase : SweepPhase) :
    (phase.operation id).program settings ⟨.system, now⟩ =
      (Sweep.transition settings now id phase).answering .flag := by
  cases phase <;> rfl

structure Engine.Sweepable (e : Engine) : Prop where
  linked : e.tables.Linked
  balanced : ∃ lost, e.tables.Balanced lost ∧ ∀ k, e.tables.sectors.get? k = none → lost k = 0

namespace Engine

variable {settings : Settings} {now : Ms} {e : Engine} {phase : SweepPhase} {id : Ulid}

theorem run_bind_of {α β : Type} {e e' : Engine} {p : Program α} {a : α}
    (h : e.run p = ⟨a, e', []⟩) (f : α → Program β) : e.run (p >>= f) = e'.run (f a) := by
  have answer := run_bind_answer e p f
  have engine := run_bind_engine e p f
  have signals := run_bind_signals e p f
  rw [h] at answer engine signals
  cases hrun : e.run (p >>= f)
  rw [hrun] at answer engine signals
  cases hrest : e'.run (f a)
  simp_all

theorem Sweepable.run_candidates (h : e.Sweepable) (phase : SweepPhase) :
    e.run (Program.ofReading (Sweep.candidates settings now phase)) =
      ⟨e.tables.due settings now phase, e, []⟩ := by
  rw [run_ofReading, Sweep.eval_candidates h.linked.toIndexed]

theorem run_answering {α : Type} (e : Engine) (p : Program (Except Failure α)) (f : α → Answer) :
    (e.run (p.answering f)).answer = (e.run p).answer.map f ∧
      (e.run (p.answering f)).engine = (e.run p).engine := by
  rw [Program.answering, run_bind_answer, run_bind_engine]
  exact ⟨rfl, rfl⟩

theorem Sweepable.run_transition (h : e.Sweepable) (due : id ∈ e.tables.due settings now phase) :
    let o := e.run (Sweep.transition settings now id phase)
    o.answer = .ok true ∧ o.engine.Sweepable ∧
      Tables.Clears settings now phase [id] e.tables o.engine.tables := by
  intro o
  obtain ⟨lost, balanced, absent⟩ := h.balanced
  obtain ⟨ids, txn, transition, hok, drawn⟩ :=
    Transition.of_due h.linked balanced due (e.supply e.drawn)
  have upkeep : ∀ parking anonymous, phase.operation id ≠ .driveIn parking anonymous := by
    intro parking anonymous same
    cases phase <;> cases same
  have supplied : ∀ i u, ids[i]? = some u → e.supply (e.drawn + i) = u := by
    rcases drawn with rfl | rfl
    · simp
    · simp [List.getElem?_singleton, eq_comm]
  obtain ⟨⟨answer, hanswer⟩, tables, -⟩ := Engine.run_transition transition upkeep hok supplied
  have changes : (phase.operation id).isQuery = false := by cases phase <;> rfl
  have settled := Program.Settles.operation settings ⟨.system, now⟩ changes e
  rw [SweepPhase.program_operation] at hanswer tables settled
  obtain ⟨result, same⟩ := run_answering e (Sweep.transition settings now id phase) .flag
  have clears := (transition.sweepStep h.linked).clears (Int.le_refl now)
  rw [← tables, same] at clears
  have linked := transition.linked h.linked hok
  have balanced := transition.balanced h.linked balanced absent hok
  have isUpkeep : (phase.operation id).isUpkeep := by cases phase <;> rfl
  have absent k none := absent k (transition.sector_of_upkeep isUpkeep (k := k) none)
  rw [← tables, same] at linked balanced absent
  refine ⟨?_, ⟨linked, _, balanced, absent⟩, clears⟩
  have notIdle : answer.isIdle = false := by
    cases settled with
    | failed failed _ _ => cases hanswer.symm.trans failed
    | done _ passed something _ _ =>
      cases hanswer.symm.trans passed
      exact something
    | idle _ _ store _ =>
      -- What is done shows in the tables.
      have unchanged : o.engine.tables = e.tables := congrArg Store.tables (same ▸ store)
      rw [unchanged] at clears
      have gone := clears phase ▸ due
      simp at gone
  rw [result] at hanswer
  cases answered : (e.run (Sweep.transition settings now id phase)).answer with
  | error f =>
    rw [answered] at hanswer
    cases hanswer
  | ok b =>
    rw [answered] at hanswer
    cases hanswer
    have done : b = true := by simpa [Answer.isIdle] using notIdle
    exact congrArg _ done

end Engine

/-! ### One phase after another -/

def SweepReport.plus (r : SweepReport) (n : Nat) : SweepPhase → SweepReport
  | .expired => { r with expired := r.expired + n }
  | .forceEnded => { r with forceEnded := r.forceEnded + n }
  | .closed => { r with closed := r.closed + n }
  | .deactivated => { r with deactivated := r.deactivated + n }

theorem SweepReport.plus_zero (r : SweepReport) (phase : SweepPhase) : r.plus 0 phase = r := by
  cases phase <;> rfl

theorem SweepReport.addTransition_plus (r : SweepReport) (n : Nat) (phase : SweepPhase) :
    (r.addTransition phase).plus n phase = r.plus (n + 1) phase := by
  cases phase <;> simp [addTransition, plus, Nat.add_comm, Nat.add_left_comm]

namespace Engine

variable {settings : Settings} {now : Ms} {e : Engine} {phase : SweepPhase}

theorem Sweepable.run_rows (h : e.Sweepable) {ids : List Ulid} (nodup : ids.Nodup)
    (due : ∀ id ∈ ids, id ∈ e.tables.due settings now phase) (r : SweepReport) :
    let o := e.run (Sweep.rows settings now phase ids r)
    o.answer = r.plus ids.length phase ∧ o.engine.Sweepable ∧
      Tables.Clears settings now phase ids e.tables o.engine.tables := by
  induction ids generalizing e r with
  | nil => exact ⟨(r.plus_zero phase).symm, h, .nil phase _⟩
  | cons id ids ih =>
    obtain ⟨new, nodup⟩ := List.nodup_cons.1 nodup
    obtain ⟨answer, swept, clears⟩ := h.run_transition (due id List.mem_cons_self)
    have still : ∀ k ∈ ids, k ∈ (e.run (Sweep.transition settings now id phase)).engine.tables.due
        settings now phase := by
      intro k hk
      rw [clears phase, List.mem_filter]
      refine ⟨due k (List.mem_cons_of_mem _ hk), ?_⟩
      have other : k ≠ id := fun same => new (same ▸ hk)
      simp [other]
    obtain ⟨report, swept', clears'⟩ := ih swept nodup still (r.addTransition phase)
    simp only [Sweep.rows, run_bind_answer, run_bind_engine, answer]
    refine ⟨?_, swept', clears.cons clears'⟩
    rw [List.length_cons, ← SweepReport.addTransition_plus]
    exact report

theorem Sweepable.run_phases (h : e.Sweepable) {phases : List SweepPhase} (nodup : phases.Nodup)
    (r : SweepReport) :
    let o := e.run (Sweep.phases settings now phases r)
    o.answer = phases.foldl (fun r p => r.plus (e.tables.due settings now p).length p) r ∧
      o.engine.Sweepable ∧
      (∀ p ∈ phases, o.engine.tables.due settings now p = []) ∧
      ∀ p, p ∉ phases → o.engine.tables.due settings now p = e.tables.due settings now p := by
  induction phases generalizing e r with
  | nil => exact ⟨rfl, h, by simp, fun _ _ => rfl⟩
  | cons phase rest ih =>
    obtain ⟨new, nodup⟩ := List.nodup_cons.1 nodup
    have distinct : (e.tables.due settings now phase).Nodup := Tables.due_nodup phase
    obtain ⟨report, swept, clears⟩ := h.run_rows distinct (fun _ hid => hid) r
    obtain ⟨report', swept', done, others⟩ :=
      ih swept nodup (r.plus (e.tables.due settings now phase).length phase)
    rw [Sweep.phases, run_bind_of (h.run_candidates phase)]
    simp only [run_bind_answer, run_bind_engine, report]
    have other {p : SweepPhase} (hp : p ∈ rest) : p ≠ phase := fun same => new (same ▸ hp)
    refine ⟨report'.trans ?_, swept', ?_, fun p hp => ?_⟩
    · exact List.foldl_ext _ _ _ fun r p hp => by rw [clears.other (other hp)]
    · intro p hp
      rcases List.mem_cons.1 hp with rfl | hp
      · rw [others p new, clears.all]
      · exact done p hp
    · obtain ⟨hne, hp⟩ := not_or.1 (mt List.mem_cons.2 hp)
      rw [others p hp, clears.other hne]

theorem Sweepable.run_phases_idle (h : e.Sweepable)
    (idle : ∀ p, e.tables.due settings now p = []) (phases : List SweepPhase) (r : SweepReport) :
    e.run (Sweep.phases settings now phases r) = ⟨r, e, []⟩ := by
  induction phases with
  | nil => rfl
  | cons phase rest ih =>
    rw [Sweep.phases, run_bind_of (h.run_candidates phase), idle phase]
    exact ih

theorem run_sweep (alone : e.sweeping = false) :
    e.run (Sweep.once settings now) =
      { e with sweeping := true }.run (do
        let r ← Sweep.phases settings now SweepPhase.all {}
        if 0 < r.transitions + r.failed then Program.line r.line
        .endSweep (.done (some r))) := by
  simp only [Sweep.once, run, alone]
  rfl

theorem run_reporting (e : Engine) (r : SweepReport) :
    let o := e.run (do
      if 0 < r.transitions + r.failed then Program.line r.line
      .endSweep (.done (some r)) : Program (Option SweepReport))
    o.answer = some r ∧ o.engine = { e with sweeping := false } := by
  intro o
  by_cases some : 0 < r.transitions + r.failed
  · simp only [o, some, if_true]
    exact ⟨rfl, rfl⟩
  · simp only [o, some, if_false]
    exact ⟨rfl, rfl⟩

theorem Sweepable.run_sweep (h : e.Sweepable) (alone : e.sweeping = false) :
    let o := e.run (Sweep.once settings now)
    o.answer = some {
      expired := (e.tables.due settings now .expired).length
      forceEnded := (e.tables.due settings now .forceEnded).length
      closed := (e.tables.due settings now .closed).length
      deactivated := (e.tables.due settings now .deactivated).length
      failed := 0 } ∧
      o.engine.Sweepable ∧ o.engine.sweeping = false ∧
      ∀ p, o.engine.tables.due settings now p = [] := by
  have begun : { e with sweeping := true }.Sweepable := ⟨h.linked, h.balanced⟩
  obtain ⟨report, swept, done, -⟩ := @Sweepable.run_phases settings now _ begun SweepPhase.all
    (by decide) {}
  intro o
  let swept' := { e with sweeping := true }.run (Sweep.phases settings now SweepPhase.all {})
  obtain ⟨answer, engine⟩ :
      o.answer = some swept'.answer ∧ o.engine = { swept'.engine with sweeping := false } := by
    simp only [o]
    rw [Engine.run_sweep alone, run_bind_answer, run_bind_engine]
    exact run_reporting _ _
  rw [answer, engine, report]
  refine ⟨?_, ⟨swept.linked, swept.balanced⟩, rfl, fun p => done p ?_⟩
  · simp [SweepPhase.all, SweepReport.plus, Engine.tables]
  · cases p <;> decide

theorem Sweepable.run_sweep_idle (h : e.Sweepable) (alone : e.sweeping = false)
    (idle : ∀ p, e.tables.due settings now p = []) :
    e.run (Sweep.once settings now) = ⟨some {}, e, []⟩ := by
  have begun : { e with sweeping := true }.Sweepable := ⟨h.linked, h.balanced⟩
  rw [Engine.run_sweep alone, run_bind_of (begun.run_phases_idle idle _ _)]
  cases e
  cases alone
  rfl

/-! ### Reachable engines -/

variable {cs : List Commit}

theorem Reachable.alone (h : e.Reachable cs) : e.sweeping = false := by
  induction h using Reachable.induct with
  | begun => rfl
  | @asked e cs r reachable ih =>
    by_cases happends : r = .appends
    · subst happends
      exact ih
    by_cases hcompact : r = .compact
    · subst hcompact
      exact ih
    have twin : e.Twin false e :=
      ⟨rfl, rfl, ih, ih, .refl _, reachable.linked.reservation_id, fun _ => rfl⟩
    exact (Program.Steady.request r happends hcompact e e twin).2.sweeping_right
  | reopened => rfl

theorem Reachable.sweepable (h : e.Reachable cs) : e.Sweepable := by
  obtain ⟨lost, loses⟩ := h.loses
  exact ⟨h.linked, lost, loses.balanced⟩

theorem Sweepable.answer_candidates (h : e.Sweepable) (now : Ms) :
    (e.run (Request.program e.settings (.candidates now))).answer =
      .ok (.candidates (SweepPhase.all.map fun p => (p, e.tables.due e.settings now p))) := by
  rw [Request.program, run_bind_answer, run_ofReading,
    Sweep.eval_survey h.linked.toIndexed e.settings now]
  rfl

/-- A sweep does all that its scans find and fails at nothing. A second sweep finds nothing to
do. -/
theorem Reachable.sweep_finishes (h : e.Reachable cs) (now : Ms) :
    let o := e.run (Request.program e.settings (.sweep now))
    ∃ expirable overstayed finished lapsed : List Ulid,
      (e.run (Request.program e.settings (.candidates now))).answer = .ok (.candidates
        [(.expired, expirable), (.forceEnded, overstayed), (.closed, finished),
          (.deactivated, lapsed)]) ∧
      o.answer = .ok (.report (some {
        expired := expirable.length, forceEnded := overstayed.length, closed := finished.length
        deactivated := lapsed.length, failed := 0 })) ∧
      (∀ now' ≤ now, (o.engine.run (Request.program e.settings (.candidates now'))).answer =
        .ok (.candidates [(.expired, []), (.forceEnded, []), (.closed, []), (.deactivated, [])])) ∧
      o.engine.run (Request.program e.settings (.sweep now)) =
        ⟨.ok (.report (some {})), o.engine, []⟩ ∧
      ∀ id r, o.engine.tables.reservations.get? id = some r → r.status = .created →
        now ≤ r.window.stop ∨
          r.isOccupying (o.engine.tables.eventsOf id) = true ∧
            now ≤ r.window.stop + e.settings.grace := by
  intro o
  obtain ⟨report, swept, alone, done⟩ :=
    @Sweepable.run_sweep e.settings now _ h.sweepable h.alone
  have settings : o.engine.settings = e.settings := settings_run e _
  obtain ⟨answer, engine⟩ : o.answer = .ok (.report (e.run (Sweep.once e.settings now)).answer) ∧
      o.engine = (e.run (Sweep.once e.settings now)).engine := by
    simp only [o]
    rw [Request.program, run_bind_answer, run_bind_engine]
    exact ⟨rfl, rfl⟩
  rw [← engine] at swept alone done
  refine ⟨_, _, _, _, h.sweepable.answer_candidates now, ?_, fun now' hle => ?_, ?_, ?_⟩
  · rw [answer, report]
  · have nothing (p : SweepPhase) : o.engine.tables.due e.settings now' p = [] :=
      List.eq_nil_iff_forall_not_mem.2 fun id hid => by simpa [done p] using Tables.due_mono hle hid
    rw [← settings, swept.answer_candidates, settings]
    simp [SweepPhase.all, nothing]
  · rw [Request.program, run_bind_of (swept.run_sweep_idle alone done)]
    rfl
  · intro id r hr created
    refine Reservation.of_not_isDue created fun p => ?_
    cases p with
    | deactivated => rfl
    | _ =>
      rw [← Bool.not_eq_true]
      intro due
      have found := (Tables.mem_due (by decide)).2 ⟨r, hr, due⟩
      simp [done] at found

set_option maxRecDepth 10000 in
theorem sweep_finishes_oneCar :
    let now : Ms := 10000000000000
    let o := oneCar.run (Request.program oneCar.settings (.sweep now))
    ∃ cs, oneCar.Reachable cs ∧ o.answer = .ok (.report (some { forceEnded := 1 })) ∧
      o.engine.run (Request.program oneCar.settings (.sweep now)) =
        ⟨.ok (.report (some {})), o.engine, []⟩ := by
  intro now o
  obtain ⟨cs, reachable⟩ : ∃ cs, oneCar.Reachable cs := (Reachable.fresh _ _ _ _).serve _
  obtain ⟨expirable, overstayed, finished, lapsed, found, report, -, again, -⟩ :=
    Reachable.sweep_finishes reachable now
  have overstay : (oneCar.run (Request.program oneCar.settings (.candidates now))).answer =
      .ok (.candidates
        [(.expired, []), (.forceEnded, [.ofNat 4]), (.closed, []), (.deactivated, [])]) := rfl
  cases overstay.symm.trans found
  exact ⟨cs, reachable, report, again⟩

end Engine

end Carpark
