import Carpark.Proofs.Confinement
import Carpark.Proofs.Sweeps

/-!
A car that is inside can leave. Its sector is still there, and by the ledger one of the places of
the sector is taken, so whoever may let the car out can do so at any time.
-/

namespace Carpark

variable {α β : Type}

/-! ### Attempts that read once -/

namespace Engine

variable {e : Engine} {a : Lookup (Plan α)}

theorem run_bind_silent (p : Program α) {f : α → Program β} {g : α → β}
    (hf : ∀ r, Program.Silent (f r) (g r)) :
    (e.run (p >>= f)).answer = g (e.run p).answer ∧
      (e.run (p >>= f)).engine = (e.run p).engine := by
  obtain ⟨answer, engine, -⟩ := hf (e.run p).answer (e.run p).engine []
  rw [run_bind_answer, run_bind_engine]
  exact ⟨answer, engine⟩

theorem run_retrying {plan : Plan α} {n : Nat} (s : Settings) (name : OpName)
    (staged : a.run.eval e.tables e.supply e.drawn = (.ok plan, n))
    (accepted : (e.store.commit plan.txn).1 = .ok ()) :
    (e.run (Program.retrying s name a)).answer = .ok plan.answer ∧
      (e.run (Program.retrying s name a)).engine.store = (e.store.commit plan.txn).2 := by
  obtain ⟨answer, engine, -⟩ := run_attempt_ok staged []
  rw [accepted] at answer
  have first : (e.run (Program.attempt a)).answer = .ok plan.answer := answer
  have store := congrArg Engine.store engine
  rw [Program.retrying]
  cases s.capacityRetries - 1 with
  | zero => exact ⟨first, store⟩
  | succ left =>
    rw [Program.attempts, run_bind_answer, run_bind_engine, first]
    exact ⟨rfl, store⟩

theorem run_retrying_error {f : Failure} {n : Nat} (s : Settings) (name : OpName)
    (failed : a.run.eval e.tables e.supply e.drawn = (.error f, n))
    (final : f.isRowContention = false) :
    (e.run (Program.retrying s name a)).answer = .error f := by
  obtain ⟨answer, -, -⟩ := run_attempt_error failed []
  rw [Program.retrying]
  cases s.capacityRetries - 1 with
  | zero => exact answer
  | succ left =>
    rw [Program.attempts, run_bind_answer, answer]
    simp only [final]
    rfl

theorem exists_drawn_of_attempt {f : Failure}
    (h : (e.run (Program.attempt a)).answer = .error f) :
    ∃ n, (e.run (Program.attempt a)).engine = { e with drawn := n } := by
  match staged : a.run.eval e.tables e.supply e.drawn with
  | (.error _, n) => exact ⟨n, (run_attempt_error staged []).2.1⟩
  | (.ok plan, n) =>
    obtain ⟨answer, engine, -⟩ := run_attempt_ok staged []
    refine ⟨n, engine.trans ?_⟩
    rw [answer] at h
    cases writes : plan.txn.isEmpty with
    | true => rw [(Store.commit_of_isEmpty writes []).1]
    | false =>
      cases refusal : e.store.tables.refusal? plan.txn with
      | some error => rw [(Store.commit_of_refusal writes refusal []).1]
      | none =>
        rw [(Store.commit_of_accepted writes refusal []).1] at h
        cases h

theorem exists_plan_of_attempt {x : α} (h : (e.run (Program.attempt a)).answer = .ok x) :
    ∃ n n' plan, a.run.eval e.tables e.supply n = (.ok plan, n') ∧ plan.answer = x ∧
      (plan.txn.isEmpty = false → (e.run (Program.attempt a)).engine.tables =
        e.tables.apply plan.txn.writes) := by
  match staged : a.run.eval e.tables e.supply e.drawn with
  | (.error f, n) => cases (run_attempt_error staged []).1.symm.trans h
  | (.ok plan, n) =>
    obtain ⟨answer, engine, -⟩ := run_attempt_ok staged []
    rw [answer] at h
    refine ⟨_, _, plan, staged, ?_, fun writes => ?_⟩
    · cases commit : (e.store.commit plan.txn).1 with
      | error error => rw [commit] at h; cases h
      | ok _ => rw [commit] at h; exact Except.ok.inj h
    · cases refusal : e.store.tables.refusal? plan.txn with
      | some error =>
        rw [(Store.commit_of_refusal writes refusal []).1] at h
        cases h
      | none =>
        rw [engine]
        exact Store.tables_commit writes refusal

theorem exists_plan_of_retrying {s : Settings} {name : OpName} {x : α}
    (h : (e.run (Program.retrying s name a)).answer = .ok x) :
    ∃ n n' plan, a.run.eval e.tables e.supply n = (.ok plan, n') ∧ plan.answer = x ∧
      (plan.txn.isEmpty = false → (e.run (Program.retrying s name a)).engine.tables =
        e.tables.apply plan.txn.writes) := by
  rw [Program.retrying] at h ⊢
  generalize s.capacityRetries - 1 = left at h ⊢
  generalize 1 = m at h ⊢
  induction left generalizing e m with
  | zero => exact exists_plan_of_attempt h
  | succ left ih =>
    rw [Program.attempts, run_bind_answer] at h
    rw [Program.attempts, run_bind_engine]
    cases first : (e.run (Program.attempt a)).answer with
    | ok y =>
      rw [first] at h
      cases h
      exact exists_plan_of_attempt first
    | error f =>
      rw [first] at h
      cases retry : f.isRowContention with
      | false =>
        simp only [retry] at h
        cases h
      | true =>
        obtain ⟨n, engine⟩ := exists_drawn_of_attempt first
        simp only [retry, if_true, engine] at h ⊢
        exact ih (m + 1) h

end Engine

/-! ### Operations at the gate -/

namespace Engine

variable (settings : Settings) (ctx : Context)

theorem run_bind_answering (e : Engine) (p : Program (Except Failure α))
    {f : Except Failure α → Program (Except Failure β)} {g : Except Failure α → Except Failure β}
    (hf : ∀ r, Program.Silent (f r) (g r)) (answer : β → Answer) :
    let o := e.run ((p >>= f).answering answer)
    o.answer = (g (e.run p).answer).map answer ∧ o.engine = (e.run p).engine := by
  obtain ⟨answer₁, engine₁⟩ := run_answering e (p >>= f) answer
  obtain ⟨answer₂, engine₂⟩ := run_bind_silent p hf (e := e)
  exact ⟨answer₁.trans (congrArg _ answer₂), engine₁.trans engine₂⟩

theorem run_exit (e : Engine) (id : Ulid) (code : Option String) (ending : Bool) :
    let o := e.run (Program.retrying settings .exitParking (Gate.exitAttempt ctx id code ending))
    let o' := e.run ((Operation.exit id code ending).program settings ctx)
    o'.answer = o.answer.map .reservation ∧ o'.engine = o.engine := by
  refine run_bind_answering e _ (g := fun r => r) (fun r => ?_) _
  cases r with
  | error _ => exact .bind (.count _) (.pure _)
  | ok _ => exact .bind (.count _) (.bind (.line _) (.pure _))

theorem run_enter (e : Engine) (id : Ulid) :
    let o := e.run (Program.retrying settings .enterWithReservation (Gate.enterAttempt ctx id))
    let o' := e.run ((Operation.enter id).program settings ctx)
    o'.answer = o.answer.map .ticket ∧ o'.engine = o.engine := by
  refine run_bind_answering e _ (g := fun r => r) (fun r => ?_) _
  cases r with
  | error _ => exact .bind (.count _) (.pure _)
  | ok _ => exact .bind (.count _) (.bind (.line _) (.pure _))

theorem run_driveIn (e : Engine) (parking : Ulid) (anonymous : Bool) :
    let o := e.run (Program.retrying settings .enterWithoutReservation
      (Gate.driveInAttempt settings ctx parking (if anonymous then none else ctx.caller.client?)))
    let o' := e.run ((Operation.driveIn parking anonymous).program settings ctx)
    o'.answer = o.answer.map .ticket ∧ o'.engine = o.engine := by
  refine run_bind_answering e _ (g := fun r => r) (fun r => ?_) _
  cases r with
  | error _ => exact .bind (.count _) (.pure _)
  | ok _ => exact .bind (.count _) (.bind (.line _) (.pure _))

theorem run_forceExit (e : Engine) (id : Ulid) (admin : ctx.requirePrivileged = .ok ()) :
    let o := e.run (Program.retrying settings .forceExit
      (Termination.forceExitAttempt settings ctx id))
    let o' := e.run ((Operation.forceExit id).program settings ctx)
    o'.answer = o.answer.map (fun r => .flag r.isSome) ∧ o'.engine = o.engine := by
  simp only [Operation.program, Termination.forceExit, admin]
  have silent (n : Reservation → Notification) (r : Except Failure (Option Reservation)) :
      Program.Silent (Termination.informing r n) (r.map (·.isSome)) := by
    rcases r with _ | (_ | r)
    · exact .pure _
    · exact .pure _
    · exact .bind (.inform _ _) (.pure _)
  obtain ⟨answer, engine⟩ :=
    run_bind_answering e _ (silent fun r => .forcedExit id r.sector ctx.now)
    Answer.flag
  refine ⟨answer.trans ?_, engine⟩
  cases (e.run (Program.retrying settings .forceExit _)).answer <;> rfl

end Engine

/-! ### Who is let out -/

namespace Reservation

variable {r : Reservation} {caller : Caller} {code : Option String}

/-- The owner and privileged callers, and for a stay without owner who has its code. -/
def MayLeave (r : Reservation) (caller : Caller) (code : Option String) : Prop :=
  (r.IsOwn caller ∨ caller.isPrivileged = true) ∧ (code = none ∨ code = r.code) ∨
    r.client = none ∧ code = r.code

theorem MayLeave.authorizeExit (h : r.MayLeave caller code) (hcode : r.code.isSome = true) :
    r.authorizeExit caller code = .ok () := by
  have right : (code.isSome && code ≠ r.code) = false := by
    rcases h with ⟨-, rfl | rfl⟩ | ⟨-, rfl⟩ <;> simp
  simp only [Reservation.authorizeExit, right]
  rcases h with ⟨⟨owned, own⟩ | privileged, -⟩ | ⟨none, rfl⟩
  · simp [requireOwner, ← own, owned]
  · simp [privileged, requireOwner]
  · simp [none, hcode]

theorem Moves.same_code {settings : Settings} {now : Ms} {op : Operation} {r' : Reservation}
    {es es' : List GateEvent} (h : r.Moves settings now es op r' es') :
    r'.code = r.code ∧ es' = es ∨ es.length < es'.length := by
  cases h with
  | cancels | expires | closes => exact .inl ⟨rfl, rfl⟩
  | enters | leaves | evicts => exact .inr (by simp)

theorem authorizeExit_error {f : Failure} (h : r.authorizeExit caller code = .error f) :
    f = .codeMismatch r.id ∨ f = .notOwner r.id := by
  simp only [Reservation.authorizeExit, requireOwner] at h
  grind

end Reservation

/-! ### At the exit -/

namespace Lookup

variable {t : Tables} {ids : Nat → Ulid} {n n' : Nat}

theorem eval_bind_of {x : Lookup α} {f : α → Lookup β} {a : α}
    (h : x.run.eval t ids n = (.ok a, n')) :
    (x >>= f).run.eval t ids n = (f a).run.eval t ids n' := by
  refine (Reading.eval_bind t ids x.run _ n).trans ?_
  rw [h]
  rfl

theorem eval_reservation {id : Ulid} {r : Reservation} (hr : t.reservations.get? id = some r) :
    (reservation id).run.eval t ids n = (.ok r, n) :=
  Reading.eval_of_sees (sees_reservation.2 ⟨⟨rfl, hr⟩, rfl⟩) ids n (by simp)

end Lookup

def Reservation.left (r : Reservation) (ending : Bool) : Reservation :=
  { r with
    status := if ending || !r.booked then .ended else r.status, version := r.version + 1 }

/-- From the tables `t` to the tables `t'` the car has left, and its place is free. -/
structure Tables.Vacated (t t' : Tables) (id : Ulid) (r r' : Reservation) : Prop where
  row : t'.reservations.get? id = some r'
  outside : r'.isOccupying (t'.eventsOf id) = false
  place : ∃ s, t.sectors.get? r.sector = some s ∧ t'.sectors.get? r.sector =
    some { s with availablePlaces := s.availablePlaces + 1, version := s.version + 1 }

theorem Tables.get?_gate {t : Tables} {s : Sector} {r : Reservation} {e : GateEvent} :
    (t.apply [.putSector s, .putReservation r, .appendEvent e]).reservations.get? r.id =
      some r := by
  simp [apply_gate]

theorem Tables.Vacated.gate {t : Tables} {r r' : Reservation} {s : Sector} {e : GateEvent}
    (hs : t.sectors.get? r.sector = some s) (hid : s.id = r.sector) (same : r'.id = r.id)
    (he : e.reservation = r.id) (exit : e.kind = .exit) :
    t.Vacated (t.apply [
      .putSector { s with availablePlaces := s.availablePlaces + 1, version := s.version + 1 },
      .putReservation r', .appendEvent e]) r.id r r' where
  row := same ▸ get?_gate
  outside := by
    rw [apply_gate, eventsOf_addEvent, if_pos he.symm, Reservation.isOccupying, isInside_append,
      exit]
    simp
  place := ⟨s, hs, by simp [apply_gate, hid]⟩

namespace Gate

theorem eval_exitAttempt_error {ctx : Context} {t : Tables} {id : Ulid} {code : Option String}
    (ending : Bool) {r : Reservation} {f : Failure} (hr : t.reservations.get? id = some r)
    (refused : r.authorizeExit ctx.caller code = .error f) (ids : Nat → Ulid) (n : Nat) :
    (exitAttempt ctx id code ending).run.eval t ids n = (.error f, n) := by
  rw [exitAttempt, Lookup.eval_bind_of (Lookup.eval_reservation hr), refused]
  rfl

end Gate

namespace Engine

variable {e : Engine} {cs : List Commit} {id : Ulid} {r : Reservation}

theorem Reachable.vacates (h : e.Reachable cs) (hr : e.tables.reservations.get? id = some r)
    (inside : r.isOccupying (e.tables.eventsOf id) = true) (a : Lookup (Plan α)) {x : α}
    (r' : Reservation) (event : GateEvent) (same : r'.id = r.id ∧ r'.version = r.version)
    (he : event.reservation = id) (exit : event.kind = .exit)
    (plans : ∀ s freed, e.tables.sectors.get? r.sector = some s → s.freePlace = .ok freed →
      Lookup.Sees (fun t => t) Eq a e.tables [e.supply e.drawn]
        ⟨[.updateSector freed, .updateReservation r', .appendEvent event], x⟩ e.tables)
    (settings : Settings) (name : OpName) :
    let o := e.run (Program.retrying settings name a)
    o.answer = .ok x ∧
      e.tables.Vacated o.engine.tables id r { r' with version := r'.version + 1 } := by
  obtain rfl := h.linked.reservation_id hr
  obtain ⟨s, hs, -⟩ := h.linked.placed hr
  have hid := h.linked.sector_id hs
  obtain ⟨lost, balanced⟩ := h.balanced
  have freed := balanced.freePlace hr rfl inside hs
  have staged := Reading.eval_of_sees (plans s _ hs freed) e.supply e.drawn
    (by simp [List.getElem?_singleton, eq_comm])
  have accepted : e.tables.refusal? [
      .updateSector { s with availablePlaces := s.availablePlaces + 1 }, .updateReservation r',
      .appendEvent event] = none := by
    rw [Tables.refusal?_eq_none]
    simp [Change.suits, same, hr, hid, hs]
  obtain ⟨commit, -⟩ := Store.commit_of_accepted (s := e.store) rfl accepted []
  obtain ⟨answer, store⟩ := run_retrying settings name staged (congrArg Prod.fst commit)
  refine ⟨answer, ?_⟩
  rw [Engine.tables, Engine.tables, store, congrArg Prod.snd commit]
  exact .gate hs hid same.1 he exit

theorem Reachable.exits (h : e.Reachable cs) (hr : e.tables.reservations.get? id = some r)
    (inside : r.isOccupying (e.tables.eventsOf id) = true) {ctx : Context} {code : Option String}
    (allowed : r.authorizeExit ctx.caller code = .ok ()) (ending : Bool) :
    let o := e.run ((Operation.exit id code ending).program e.settings ctx)
    o.answer = .ok (.reservation (r.left ending)) ∧
      e.tables.Vacated o.engine.tables id r (r.left ending) := by
  intro o
  have created := (Reservation.isOccupying_iff.1 inside).1
  obtain ⟨answer, vacated⟩ := h.vacates hr inside (x := r.left ending)
    (Gate.exitAttempt ctx id code ending)
    { r with status := if ending || !r.booked then .ended else r.status }
    ⟨e.supply e.drawn, id, ctx.now, .exit, false⟩
    ⟨rfl, rfl⟩ rfl rfl
    (fun s freed hs free => by
      simp only [Gate.exitAttempt, Lookup.sees_reservation_bind, Lookup.sees_lift_bind,
        Lookup.sees_guard, Lookup.sees_events_bind, Lookup.sees_sector_bind, Lookup.sees_draw_bind,
        Lookup.sees_pure]
      exact ⟨r, _, ⟨rfl, hr⟩, (), allowed, not_not_intro created, _, rfl, by simpa using inside, s,
        _, ⟨rfl, hs⟩, freed, free, _, [], rfl, rfl, rfl, rfl⟩)
    e.settings .exitParking
  obtain ⟨answer', engine⟩ := run_exit e.settings ctx e id code ending
  rw [answer] at answer'
  refine ⟨answer', ?_⟩
  rw [show o.engine = _ from engine]
  exact vacated

theorem Reachable.evicts (h : e.Reachable cs) (hr : e.tables.reservations.get? id = some r)
    (inside : r.isOccupying (e.tables.eventsOf id) = true) {ctx : Context}
    (admin : ctx.caller.isPrivileged = true) (late : r.window.stop + e.settings.grace < ctx.now) :
    let o := e.run ((Operation.forceExit id).program e.settings ctx)
    o.answer = .ok (.flag true) ∧ e.tables.Vacated o.engine.tables id r (r.left true) := by
  intro o
  have due := Reservation.isOverstayed_iff.2 ⟨inside, late⟩
  obtain ⟨answer, vacated⟩ := h.vacates hr inside (x := some (r.left true))
    (Termination.forceExitAttempt e.settings ctx id) { r with status := .ended }
    ⟨e.supply e.drawn, id, ctx.now, .exit, true⟩
    ⟨rfl, rfl⟩ rfl rfl
    (fun s freed hs free => by
      refine Lookup.sees_ask_bind.2 ⟨_, rfl, ?_⟩
      rw [show e.tables.answer (.reservation _) = some _ from hr]
      refine Lookup.sees_events_bind.2 ⟨_, rfl, ?_⟩
      simp only [due, if_true, Lookup.sees_sector_bind, Lookup.sees_lift_bind,
        Lookup.sees_draw_bind, Lookup.sees_pure]
      exact ⟨s, _, ⟨rfl, hs⟩, freed, free, _, [], rfl, rfl, rfl, rfl⟩)
    e.settings .forceExit
  obtain ⟨answer', engine⟩ := run_forceExit e.settings ctx e id
    (by rw [Context.requirePrivileged, if_pos admin])
  rw [answer] at answer'
  refine ⟨answer', ?_⟩
  rw [show o.engine = _ from engine]
  exact vacated

theorem Reachable.exit_error (h : e.Reachable cs) (hr : e.tables.reservations.get? id = some r)
    (inside : r.isOccupying (e.tables.eventsOf id) = true) {ctx : Context} {code : Option String}
    {ending : Bool} {f : Failure}
    (failed : (e.run ((Operation.exit id code ending).program e.settings ctx)).answer = .error f) :
    f = .codeMismatch r.id ∨ f = .notOwner r.id := by
  cases authorized : r.authorizeExit ctx.caller code with
  | ok _ => cases (h.exits hr inside authorized ending).1.symm.trans failed
  | error f' =>
    have reason := Reservation.authorizeExit_error authorized
    have final : f'.isRowContention = false := by
      rcases reason with rfl | rfl <;> rfl
    have refused := run_retrying_error e.settings .exitParking
      (Gate.eval_exitAttempt_error ending hr authorized e.supply e.drawn) final
    obtain ⟨answer, -⟩ := run_exit e.settings ctx e id code ending
    rw [refused] at answer
    cases answer.symm.trans failed
    exact reason

theorem Reachable.forceExit_error (h : e.Reachable cs)
    (hr : e.tables.reservations.get? id = some r)
    (inside : r.isOccupying (e.tables.eventsOf id) = true) {ctx : Context} {f : Failure}
    (failed : (e.run ((Operation.forceExit id).program e.settings ctx)).answer = .error f) :
    f = .forbidden "registry changes require an admin" := by
  cases admin : ctx.caller.isPrivileged with
  | false =>
    simp only [Operation.program, Termination.forceExit, Context.requirePrivileged, admin] at failed
    cases failed
    rfl
  | true =>
    rcases Int.lt_or_le (r.window.stop + e.settings.grace) ctx.now with late | early
    · cases (h.evicts hr inside admin late).1.symm.trans failed
    · have staged : Lookup.Sees (fun t => t) Eq (Termination.forceExitAttempt e.settings ctx id)
          e.tables [] ⟨[], none⟩ e.tables := by
        have waits : r.isOverstayed (e.tables.eventsOf id) e.settings.grace ctx.now = false := by
          simpa [Reservation.isOverstayed, inside] using early
        refine Lookup.sees_ask_bind.2 ⟨_, rfl, ?_⟩
        rw [show e.tables.answer (.reservation _) = some _ from hr]
        refine Lookup.sees_events_bind.2 ⟨_, rfl, ?_⟩
        rw [waits]
        exact Lookup.sees_pure.2 ⟨rfl, rfl, rfl⟩
      obtain ⟨answer, -⟩ := run_retrying e.settings .forceExit
        (Reading.eval_of_sees staged e.supply e.drawn (by simp)) rfl
      obtain ⟨answer', -⟩ := run_forceExit e.settings ctx e id
        (by rw [Context.requirePrivileged, if_pos admin])
      rw [answer] at answer'
      cases answer'.symm.trans failed

/-! ### Tickets -/

theorem Reachable.ticket (h : e.Reachable cs) {ctx : Context} {op : Operation} {k : Ticket}
    (entered : (e.run (op.program e.settings ctx)).answer = .ok (.ticket k)) :
    ∃ r, (e.run (op.program e.settings ctx)).engine.tables.reservations.get? k.reservation =
      some r ∧ r.code = some k.code := by
  have planned {a : Lookup (Plan Ticket)} {name : OpName} (ha : a.Changes)
      (entered : (e.run (Program.retrying e.settings name a)).answer.map Answer.ticket =
        .ok (.ticket k)) :
      ∃ ids txn, Lookup.Sees (fun t => t) Eq a e.tables ids ⟨txn, k⟩ e.tables ∧
        (e.run (Program.retrying e.settings name a)).engine.tables =
          e.tables.apply txn.writes := by
    cases answer : (e.run (Program.retrying e.settings name a)).answer with
    | error f =>
      rw [answer] at entered
      cases entered
    | ok x =>
      rw [answer] at entered
      cases entered
      obtain ⟨n, n', plan, staged, rfl, tables⟩ := exists_plan_of_retrying answer
      have sees : Reading.Sees (fun t => t) Eq a.run e.tables _
          (a.run.eval e.tables e.supply n).1 e.tables := Reading.sees_eval rfl e.supply a.run n
      rw [staged] at sees
      exact ⟨_, _, sees, tables (ha _ _ _ _ _ staged)⟩
  cases op with
  | enter id =>
    obtain ⟨answer, engine⟩ := run_enter e.settings ctx e id
    obtain ⟨ids, txn, sees, tables⟩ := planned Gate.plans_enterAttempt (answer.symm.trans entered)
    rw [engine, tables]
    simp only [Gate.enterAttempt, Lookup.sees_reservation_bind, Lookup.sees_lift_bind,
      Lookup.sees_guard, Lookup.sees_events_bind, Lookup.sees_sector_bind, Lookup.sees_draw_bind,
      Lookup.sees_pure, Plan.mk.injEq] at sees
    obtain ⟨r, _, ⟨rfl, hr⟩, -, -, -, _, -, -, -, -, s, _, -, taken, -, u, _, -, v, _, -,
      same, -⟩ :=
      sees
    obtain ⟨rfl, rfl⟩ := same
    obtain rfl := h.linked.reservation_id hr
    exact ⟨_, Tables.get?_gate (r := { r with code := some u.code, version := r.version + 1 }), rfl⟩
  | driveIn parking anonymous =>
    obtain ⟨answer, engine⟩ := run_driveIn e.settings ctx e parking anonymous
    obtain ⟨ids, txn, sees, tables⟩ := planned Gate.plans_driveInAttempt (answer.symm.trans entered)
    rw [engine, tables]
    simp only [Gate.driveInAttempt, Lookup.sees_parking_bind, Lookup.sees_sectorsOf_bind] at sees
    obtain ⟨p, _, -, ss, _, -, sees⟩ := sees
    split at sees
    next => exact absurd sees Lookup.not_sees_throw
    next s _ =>
      simp only [Lookup.sees_lift_bind, Lookup.sees_draw_bind, Lookup.sees_pure,
        Plan.mk.injEq] at sees
      obtain ⟨taken, -, u, _, -, v, _, -, w, _, -, same, -⟩ := sees
      obtain ⟨rfl, rfl⟩ := same
      exact ⟨_, Tables.get?_gate (r := .driveIn e.settings ctx.now v parking s.id _ u.code), rfl⟩
  | _ =>
    rw [Operation.program, (run_answering e _ _).1] at entered
    generalize (Engine.run e _).answer = x at entered
    cases x <;> cases entered

theorem Leads.keeps_code {e' : Engine} {cs' : List Commit} (h : e.Onward cs e' cs')
    (he : e.Reachable cs) (hr : e.tables.reservations.get? id = some r) :
    ∃ r', e'.tables.reservations.get? id = some r' ∧
      (r'.code = r.code ∧ e'.tables.eventsOf id = e.tables.eventsOf id ∨
        (e.tables.eventsOf id).length < (e'.tables.eventsOf id).length) := by
  let P (r' : Reservation) (es : List GateEvent) : Prop :=
    r'.code = r.code ∧ es = e.tables.eventsOf id ∨ (e.tables.eventsOf id).length < es.length
  have kept := h.keeps (P := P) he hr (.inl ⟨rfl, rfl⟩) fun moves before => by
    rcases moves.same_code with ⟨code, events⟩ | longer
    · simpa only [P, code, events] using before
    · refine .inr (Nat.lt_of_le_of_lt ?_ longer)
      rcases before with ⟨-, events⟩ | longer
      · exact Nat.le_of_eq (congrArg _ events.symm)
      · exact Nat.le_of_lt longer
  exact kept.resolve_right Drops.of_onward

/-- A car that is inside can always leave. An exit by who may leave and an eviction after the grace
succeed, and neither fails over a row or a place. The code is that of the last ticket. -/
theorem Reachable.departs (h : e.Reachable cs) (hr : e.tables.reservations.get? id = some r)
    (inside : r.isOccupying (e.tables.eventsOf id) = true) :
    (∀ ctx code ending, r.MayLeave ctx.caller code →
      let o := e.run ((Operation.exit id code ending).program e.settings ctx)
      ∃ r', o.answer = .ok (.reservation r') ∧ e.tables.Vacated o.engine.tables id r r') ∧
    (∀ ctx, ctx.caller.isPrivileged = true → r.window.stop + e.settings.grace < ctx.now →
      let o := e.run ((Operation.forceExit id).program e.settings ctx)
      o.answer = .ok (.flag true) ∧ ∃ r', e.tables.Vacated o.engine.tables id r r') ∧
    (∀ ctx (op : Operation), op = .forceExit id ∨ (∃ code ending, op = .exit id code ending) →
      let answer := (e.run (op.program e.settings ctx)).answer
      (∀ entity missing, answer ≠ .error (.notFound entity missing)) ∧
        ∀ sector, answer ≠ .error (.capacityOverflow sector)) ∧
    r.code.isSome = true ∧
    ∀ (e₀ : Engine) cs₀ ctx (op : Operation) (k : Ticket), e₀.Reachable cs₀ →
      let o := e₀.run (op.program e₀.settings ctx)
      o.answer = .ok (.ticket k) → k.reservation = id →
      o.engine.Onward (e₀.logged cs₀ (op.program e₀.settings ctx)) e cs →
      e.tables.eventsOf id = o.engine.tables.eventsOf id → r.code = some k.code := by
  have code : r.code.isSome = true := by
    refine (h.orderly id r hr).code.2 fun none => ?_
    rw [none] at inside
    simp [Reservation.isOccupying, isInside] at inside
  refine ⟨fun ctx code' ending allowed => ?_, fun ctx admin late => ?_, fun ctx op hop => ?_, code,
    fun e₀ cs₀ ctx op k reachable => ?_⟩
  · exact ⟨_, h.exits hr inside (allowed.authorizeExit code) ending⟩
  · obtain ⟨answer, vacated⟩ := h.evicts hr inside admin late
    exact ⟨answer, _, vacated⟩
  · have reason {f : Failure} (failed : (e.run (op.program e.settings ctx)).answer = .error f) :
        f = .codeMismatch r.id ∨ f = .notOwner r.id ∨
          f = .forbidden "registry changes require an admin" := by
      rcases hop with rfl | ⟨code', ending, rfl⟩
      · exact .inr (.inr (h.forceExit_error hr inside failed))
      · exact (h.exit_error hr inside failed).imp_right .inl
    exact ⟨fun _ _ failed => by simpa using reason failed,
      fun _ failed => by simpa using reason failed⟩
  · intro o entered same onward events
    obtain ⟨r₀, hr₀, hcode⟩ := reachable.ticket entered
    rw [same] at hr₀
    obtain ⟨r', hr', ⟨kept, -⟩ | longer⟩ :=
      onward.keeps_code (reachable.asked (.operation ctx op)) hr₀
    · cases hr.symm.trans hr'
      exact kept.trans hcode
    · rw [events] at longer
      exact absurd longer (Nat.lt_irrefl _)

def noCar : Engine :=
  (fresh {} .silent (fun n => .ofNat (n + 1)) false).serve [
    .operation ⟨.system, 0⟩ (.createParking ⟨"Rome", "00100", "Corso 1"⟩ none),
    .operation ⟨.system, 0⟩ (.addSector (.ofNat 1) ⟨"AB-01", .covered, 2, 1⟩)]

set_option maxRecDepth 10000 in
theorem departs_oneCar :
    let drive : Operation := .driveIn (.ofNat 1) true
    let exit : Operation := .exit (.ofNat 4) (some (Ulid.ofNat 3).code) false
    let left := oneCar.run (exit.program oneCar.settings ⟨.client (.ofNat 9), 10⟩)
    let evict : Operation := .forceExit (.ofNat 4)
    let evicted := oneCar.run (evict.program oneCar.settings ⟨.system, 25 * hour⟩)
    ∃ r k, (noCar.run (drive.program noCar.settings ⟨.anonymous, 0⟩)).answer = .ok (.ticket k) ∧
      r.code = some k.code ∧
      (∃ r', left.answer = .ok (.reservation r') ∧
        oneCar.tables.Vacated left.engine.tables (.ofNat 4) r r') ∧
      evicted.answer = .ok (.flag true) ∧
      ∃ r', oneCar.tables.Vacated evicted.engine.tables (.ofNat 4) r r' := by
  intro drive exit left evict evicted
  obtain ⟨cs, reachable⟩ : ∃ cs, noCar.Reachable cs := (Reachable.fresh _ _ _ _).serve _
  let r := Reservation.driveIn {} 0 (.ofNat 4) (.ofNat 1) (.ofNat 2) none (Ulid.ofNat 3).code
  let k : Ticket := ⟨.ofNat 4, (Ulid.ofNat 3).code, .ofNat 1, .ofNat 2, "AB-01", 0⟩
  have hr : oneCar.tables.reservations.get? (.ofNat 4) = some r := by decide
  have inside : r.isOccupying (oneCar.tables.eventsOf (.ofNat 4)) = true := by decide
  have entered : (noCar.run (drive.program noCar.settings ⟨.anonymous, 0⟩)).answer =
      .ok (.ticket k) := by rfl
  have again := reachable.asked (.operation ⟨.anonymous, 0⟩ drive)
  obtain ⟨exits, evicts, -, -, codes⟩ := Reachable.departs (e := oneCar) again hr inside
  exact ⟨r, k, entered, codes noCar cs ⟨.anonymous, 0⟩ drive k reachable entered rfl .here rfl,
    exits ⟨.client (.ofNat 9), 10⟩ _ false (.inr ⟨rfl, rfl⟩),
    evicts ⟨.system, 25 * hour⟩ rfl (by decide)⟩

end Engine

end Carpark
