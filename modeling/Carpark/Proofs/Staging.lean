import Carpark.Proofs.Errands
import Carpark.Proofs.Ledger
import Carpark.Proofs.Traces

/-!
What an attempt stages while others are about. It expects of each row what it has seen of it, at
whatever instant, and whatever else it fails for, it is not for a stale row: only the commit can
tell.
-/

namespace Carpark

open Workshop

variable {α β : Type} {me : TaskId} {own : Ulid → Prop} {S : Workshop}

theorem Program.ofReading_bind (x : Reading α) (f : α → Reading β) :
    Program.ofReading (x.bind f) = Program.ofReading x >>= fun a => Program.ofReading (f a) := by
  induction x with
  | done a => rfl
  | ask q k ih => exact congrArg (Program.ask q) (funext ih)
  | draw k ih => exact congrArg Program.draw (funext ih)

/-- Begun in this state, the reading does not end but with such a result in such a state. -/
def Lookup.Ensures (me : TaskId) (own : Ulid → Prop) (x : Lookup α) (S : Workshop)
    (Q : Except Failure α → Workshop → Prop) : Prop :=
  ∀ r S', (Program.ofLookup x).Amid me own S r S' → Q r S'

namespace Lookup.Ensures

variable {Q : Except Failure α → Workshop → Prop}

theorem pure {a : α} (h : Q (.ok a) S) : Ensures me own (Pure.pure a) S Q := by
  intro r S' run
  cases run
  exact h

theorem throw {e : Failure} (h : Q (.error e) S) : Ensures me own (MonadExcept.throw e) S Q := by
  intro r S' run
  cases run
  exact h

theorem bind {x : Lookup β} {f : β → Lookup α}
    (h : Ensures me own x S fun r S₁ => match r with
      | .error e => Q (.error e) S₁
      | .ok b => Ensures me own (f b) S₁ Q) :
    Ensures me own (x >>= f) S Q := by
  intro r S' run
  have parts := (Program.amid_bind (f := fun b => Program.ofReading _)).1
    ((congrArg (fun p => Program.Amid me own p S r S') (Program.ofReading_bind x.run _)).mp run)
  obtain ⟨r₁, S₁, first, second⟩ := parts
  have rest := h r₁ S₁ first
  cases r₁ with
  | error e =>
    cases second
    exact rest
  | ok b => exact rest r S' second

theorem mono {Q' : Except Failure α → Workshop → Prop} {x : Lookup α} (h : Ensures me own x S Q)
    (hQ : ∀ r S', Q r S' → Q' r S') : Ensures me own x S Q' :=
  fun r S' run => hQ r S' (h r S' run)

theorem guard {c : Prop} [Decidable c] {e : Failure} {f : β → Lookup α} {x : Lookup α}
    (stops : Q (.error e) S) (hx : Ensures me own x S Q) :
    Ensures me own (if c then MonadExcept.throw e >>= f else x) S Q := by
  split
  · exact .bind (.throw stops)
  · exact hx

theorem ite {c : Prop} [Decidable c] {x y : Lookup α} (hx : Ensures me own x S Q)
    (hy : Ensures me own y S Q) : Ensures me own (if c then x else y) S Q := by
  split
  · exact hx
  · exact hy

theorem lift {x : Except Failure α} (failed : ∀ e, x = .error e → Q (.error e) S)
    (passed : ∀ a, x = .ok a → Q (.ok a) S) : Ensures me own (liftM x) S Q := by
  cases x with
  | error e => exact throw (failed e rfl)
  | ok a => exact pure (passed a rfl)

theorem draw {Q : Except Failure Ulid → Workshop → Prop} (h : ∀ u, own u → Q (.ok u) S) :
    Ensures me own Lookup.draw S Q := by
  intro r S' run
  cases run with
  | draw hu run =>
    cases run
    exact h _ hu

theorem ask {q : Query} {Q : Except Failure q.Answer → Workshop → Prop}
    (h : ∀ S₁, Workshop.Steps (Others me own) S S₁ → Q (.ok (S₁.tables.answer q)) S₁) :
    Ensures me own (Lookup.ask q) S Q := by
  intro r S' run
  cases run with
  | ask steps run =>
    cases run
    exact h _ steps

/-! ### Rows -/

theorem row {x : Lookup (Option α)} {f : Option α → Lookup α} {e : Failure}
    (hsome : ∀ a, f (some a) = Pure.pure a) (hnone : f none = MonadExcept.throw e)
    (h : Ensures me own x S fun r S₁ => match r with
      | .error e => Q (.error e) S₁
      | .ok none => Q (.error e) S₁
      | .ok (some a) => Q (.ok a) S₁) : Ensures me own (x >>= f) S Q := by
  refine .bind (h.mono fun r S₁ hr => ?_)
  match r with
  | .error e => exact hr
  | .ok none =>
    change Ensures me own (f none) S₁ Q
    exact hnone ▸ throw hr
  | .ok (some a) =>
    change Ensures me own (f (some a)) S₁ Q
    exact hsome a ▸ pure hr

theorem parking {Q : Except Failure Parking → Workshop → Prop} {id : Ulid}
    (missing : ∀ S₁, Q (.error (.notFound .parking id)) S₁)
    (found : ∀ p S₁, Workshop.Steps (Others me own) S S₁ → Q (.ok p) S₁) :
    Ensures me own (Lookup.parking id) S Q :=
  row (fun _ => rfl) rfl <| ask fun S₁ steps => by
    cases S₁.tables.answer (.parking id) with
    | none => exact missing S₁
    | some p => exact found p S₁ steps

theorem sector {Q : Except Failure Sector → Workshop → Prop} {id : Ulid} (ready : Ready me own S)
    (missing : ∀ S₁, Q (.error (.notFound .sector id)) S₁)
    (found : ∀ s S₁, Workshop.Steps (Others me own) S S₁ →
      S₁.tables.sectors.get? s.id = some s → Q (.ok s) S₁) :
    Ensures me own (Lookup.sector id) S Q :=
  row (fun _ => rfl) rfl <| ask fun S₁ steps => by
    cases hs : S₁.tables.answer (.sector id) with
    | none => exact missing S₁
    | some s =>
      have hid := (ready.later steps).shelved.sector hs
      exact found s S₁ steps (hid ▸ hs)

theorem askReservation {Q : Except Failure (Option Reservation) → Workshop → Prop} {id : Ulid}
    (ready : Ready me own S) (missing : ∀ S₁, Q (.ok none) S₁)
    (found : ∀ r S₁, Workshop.Steps (Others me own) S S₁ →
      S₁.tables.reservations.get? r.id = some r → Q (.ok (some r)) S₁) :
    Ensures me own (Lookup.ask (.reservation id)) S Q :=
  ask fun S₁ steps => by
    cases hr : S₁.tables.answer (.reservation id) with
    | none => exact missing S₁
    | some r =>
      have hid := (ready.later steps).shelved.reservation hr
      exact found r S₁ steps (hid ▸ hr)

theorem reservation {Q : Except Failure Reservation → Workshop → Prop} {id : Ulid}
    (ready : Ready me own S) (missing : ∀ S₁, Q (.error (.notFound .reservation id)) S₁)
    (found : ∀ r S₁, Workshop.Steps (Others me own) S S₁ →
      S₁.tables.reservations.get? r.id = some r → Q (.ok r) S₁) :
    Ensures me own (Lookup.reservation id) S Q :=
  row (fun _ => rfl) rfl (askReservation ready missing found)

theorem rows {get : Ulid → Lookup (Option α)} {P : Workshop → α → Prop}
    {Q : Except Failure (List α) → Workshop → Prop}
    (hget : ∀ id {S Q}, Ready me own S → (∀ o S₁, Workshop.Steps (Others me own) S S₁ →
      (∀ a, o = some a → P S₁ a) → Q (.ok o) S₁) → Ensures me own (get id) S Q)
    (ready : Ready me own S) (l : List Ulid)
    (h : ∀ as S₁, Workshop.Steps (Others me own) S S₁ →
      (∀ a ∈ as, ∃ Sr, Workshop.Steps (Others me own) S Sr ∧
        Workshop.Steps (Others me own) Sr S₁ ∧ P Sr a) → Q (.ok as) S₁) :
    Ensures me own (Lookup.rows get l) S Q := by
  induction l generalizing S Q with
  | nil => exact pure (h [] S .refl (List.forall_mem_nil _))
  | cons id l ih =>
    refine bind (hget id ready fun o S₁ steps row => ?_)
    refine bind (ih (ready.later steps) fun as S₂ steps' found => pure ?_)
    refine h _ S₂ (steps.trans steps') (List.forall_mem_append.2 ⟨fun a ha => ?_, fun a ha => ?_⟩)
    · exact ⟨S₁, steps, steps', row a (Option.mem_toList.1 ha)⟩
    · obtain ⟨Sr, before, after, row⟩ := found a ha
      exact ⟨Sr, steps.trans before, after, row⟩

theorem sectorsOf {Q : Except Failure (List Sector) → Workshop → Prop} (ready : Ready me own S)
    {p : Parking} (h : ∀ ss S₁, Workshop.Steps (Others me own) S S₁ →
      (∀ s ∈ ss, ∃ Sr, Workshop.Steps (Others me own) S Sr ∧
        Workshop.Steps (Others me own) Sr S₁ ∧ Sr.tables.sectors.get? s.id = some s) →
      Q (.ok ss) S₁) : Ensures me own (Lookup.sectorsOf p) S Q := by
  refine rows (P := fun S₁ s => S₁.tables.sectors.get? s.id = some s) ?_ ready _ h
  intro id S Q ready found
  refine ask fun S₁ steps => found _ S₁ steps fun s hs => ?_
  have hid := (ready.later steps).shelved.sector hs
  exact hid ▸ hs

theorem reservationsOfSector {Q : Except Failure (List Reservation) → Workshop → Prop}
    (ready : Ready me own S) {id : Ulid}
    (h : ∀ rs S₁, Workshop.Steps (Others me own) S S₁ → Q (.ok rs) S₁) :
    Ensures me own (Lookup.reservationsOfSector id) S Q := by
  refine bind (ask fun S₁ steps => ?_)
  refine rows (P := fun _ _ => True) ?_ (ready.later steps) _ fun rs S₂ steps' _ =>
    h rs S₂ (steps.trans steps')
  exact fun id S Q _ found => ask fun S₁ steps => found _ S₁ steps fun _ _ => trivial

end Lookup.Ensures

/-! ### What an attempt comes to -/

/-- The attempt has failed, though not over a stale row, or has staged what it has seen. -/
def Stages (me : TaskId) (own : Ulid → Prop) (idle : α → Bool) (S : Workshop) :
    Except Failure (Plan α) → Workshop → Prop
  | .error e, _ => e.isStale = false
  | .ok plan, S' => Staged me own S plan.txn S' ∧ plan.Fits idle

def Lookup.Careful (idle : α → Bool) (a : Lookup (Plan α)) : Prop :=
  ∀ {me own S}, Ready me own S → a.Ensures me own S (Stages me own idle S)

/-! ### Refusals that have nothing to do with versions -/

variable {r : Reservation} {s : Sector} {settings : Settings} {ctx : Context} {caller : Caller}

theorem Context.requirePrivileged_isStale (e : Failure) (h : ctx.requirePrivileged = .error e) :
    e.isStale = false := by
  grind [requirePrivileged, Failure.isStale]

theorem Reservation.requireOwner_isStale (e : Failure) (h : r.requireOwner caller = .error e) :
    e.isStale = false := by
  grind [requireOwner, Failure.isStale]

theorem Reservation.authorizeExit_isStale {code : Option String} (e : Failure)
    (h : r.authorizeExit caller code = .error e) : e.isStale = false := by
  grind [authorizeExit, requireOwner, Failure.isStale]

theorem Sector.takePlace_isStale {now : Ms} (e : Failure) (h : s.takePlace now = .error e) :
    e.isStale = false := by
  grind [takePlace, Failure.isStale]

theorem Sector.freePlace_isStale (e : Failure) (h : s.freePlace = .error e) :
    e.isStale = false := by
  grind [freePlace, Failure.isStale]

theorem Span.ofRequest_isStale {start stop now most : Ms} (e : Failure)
    (h : ofRequest start stop now most = .error e) : e.isStale = false := by
  grind [ofRequest, Failure.isStale]

theorem Booking.request_isStale {start stop : Ms} (e : Failure)
    (h : request settings ctx start stop = .error e) : e.isStale = false := by
  simp only [request] at h
  split at h
  · cases h
    rfl
  · cases made : Span.ofRequest start stop ctx.now settings.maxReservation with
    | error f =>
      rw [made] at h
      cases h
      exact Span.ofRequest_isStale e made
    | ok w =>
      rw [made] at h
      cases h

/-! ### The attempts that are tried again -/

theorem Booking.careful_makeAttempt {client sector : Ulid} {window : Span} :
    Lookup.Careful (fun _ => false) (makeAttempt ctx client sector window) := by
  intro me own S ready
  refine .bind (.sector ready (fun _ => rfl) fun s S₁ steps₁ hs => .guard rfl ?_)
  refine .bind (.reservationsOfSector (ready.later steps₁) fun rs S₂ steps₂ => .guard rfl ?_)
  refine .bind (.draw fun u hu => .pure ⟨⟨rfl, ?_⟩, rfl⟩)
  exact List.forall_mem_cons.2 ⟨.sector steps₁ steps₂ hs,
    List.forall_mem_singleton.2 (.fresh hu)⟩

namespace Gate

theorem careful_enterAttempt {id : Ulid} :
    Lookup.Careful (fun _ => false) (enterAttempt ctx id) := by
  intro me own S ready
  refine .bind (.reservation ready (fun _ => rfl) fun r S₁ steps₁ hr => ?_)
  refine .bind (.lift Reservation.requireOwner_isStale fun _ _ => .guard rfl ?_)
  refine .bind (.ask fun S₂ steps₂ => .guard rfl <| .guard rfl <| .guard rfl ?_)
  have ready₂ := (ready.later steps₁).later steps₂
  refine .bind (.sector ready₂ (fun _ => rfl) fun s S₃ steps₃ hs => ?_)
  refine .bind (.lift Sector.takePlace_isStale fun taken htaken => ?_)
  refine .bind (.draw fun code _ => .bind (.draw fun event _ => .pure ⟨⟨rfl, ?_⟩, rfl⟩))
  obtain ⟨-, rfl⟩ := Sector.takePlace_eq_ok.1 htaken
  exact List.forall_mem_cons.2
    ⟨.sector (s := s) ((steps₁.trans steps₂).trans steps₃) .refl hs,
      List.forall_mem_singleton.2 (.reservation (r := r) steps₁ (steps₂.trans steps₃) hr)⟩

theorem careful_driveInAttempt {parking : Ulid} {client : Option Ulid} :
    Lookup.Careful (fun _ => false) (driveInAttempt settings ctx parking client) := by
  intro me own S ready
  refine .bind (.parking (fun _ => rfl) fun p S₁ steps₁ => ?_)
  refine .bind (.sectorsOf (ready.later steps₁) fun ss S₂ steps₂ found => ?_)
  dsimp only
  cases chosen : p.policy.choose ctx.now ss with
  | none => exact .throw rfl
  | some s =>
    obtain ⟨Sr, before, after, hs⟩ := found s (Policy.mem_of_choose chosen)
    refine .bind (.lift Sector.takePlace_isStale fun taken htaken => .bind (.draw fun code _ => ?_))
    refine .bind (.draw fun id hid => .bind (.draw fun event _ => .pure ⟨⟨rfl, ?_⟩, rfl⟩))
    obtain ⟨-, rfl⟩ := Sector.takePlace_eq_ok.1 htaken
    exact List.forall_mem_cons.2 ⟨.sector (s := s) (steps₁.trans before) after hs,
      List.forall_mem_singleton.2 (.fresh hid)⟩

theorem careful_exitAttempt {id : Ulid} {code : Option String} {ending : Bool} :
    Lookup.Careful (fun _ => false) (exitAttempt ctx id code ending) := by
  intro me own S ready
  refine .bind (.reservation ready (fun _ => rfl) fun r S₁ steps₁ hr => ?_)
  refine .bind (.lift Reservation.authorizeExit_isStale fun _ _ => .guard rfl ?_)
  refine .bind (.ask fun S₂ steps₂ => .guard rfl ?_)
  have ready₂ := (ready.later steps₁).later steps₂
  refine .bind (.sector ready₂ (fun _ => rfl) fun s S₃ steps₃ hs => ?_)
  refine .bind (.lift Sector.freePlace_isStale fun freed hfreed => ?_)
  refine .bind (.draw fun event _ => .pure ⟨⟨rfl, ?_⟩, rfl⟩)
  obtain ⟨-, rfl⟩ := Sector.freePlace_eq_ok.1 hfreed
  exact List.forall_mem_cons.2
    ⟨.sector (s := s) ((steps₁.trans steps₂).trans steps₃) .refl hs,
      List.forall_mem_singleton.2 (.reservation (r := r) steps₁ (steps₂.trans steps₃) hr)⟩

end Gate

namespace Termination

variable {id : Ulid}

theorem careful_expireAttempt : Lookup.Careful Option.isNone (expireAttempt ctx id) := by
  intro me own S ready
  refine .bind (.askReservation ready (fun _ => .pure ⟨.nil, rfl⟩) fun r S₁ steps₁ hr => ?_)
  refine .bind (.ask fun S₂ steps₂ => .ite (.pure ⟨⟨rfl, ?_⟩, rfl⟩) (.pure ⟨.nil, rfl⟩))
  exact List.forall_mem_singleton.2 (.reservation (r := r) steps₁ steps₂ hr)

theorem careful_forceExitAttempt :
    Lookup.Careful Option.isNone (forceExitAttempt settings ctx id) := by
  intro me own S ready
  refine .bind (.askReservation ready (fun _ => .pure ⟨.nil, rfl⟩) fun r S₁ steps₁ hr => ?_)
  refine .bind (.ask fun S₂ steps₂ => .ite ?_ (.pure ⟨.nil, rfl⟩))
  have ready₂ := (ready.later steps₁).later steps₂
  refine .bind (.sector ready₂ (fun _ => rfl) fun s S₃ steps₃ hs => ?_)
  refine .bind (.lift Sector.freePlace_isStale fun freed hfreed => ?_)
  refine .bind (.draw fun event _ => .pure ⟨⟨rfl, ?_⟩, rfl⟩)
  obtain ⟨-, rfl⟩ := Sector.freePlace_eq_ok.1 hfreed
  exact List.forall_mem_cons.2
    ⟨.sector (s := s) ((steps₁.trans steps₂).trans steps₃) .refl hs,
      List.forall_mem_singleton.2 (.reservation (r := r) steps₁ (steps₂.trans steps₃) hr)⟩

theorem careful_closeAttempt : Lookup.Careful (!·) (closeAttempt ctx id) := by
  intro me own S ready
  refine .bind (.askReservation ready (fun _ => .pure ⟨.nil, rfl⟩) fun r S₁ steps₁ hr => ?_)
  refine .bind (.ask fun S₂ steps₂ => .ite (.pure ⟨⟨rfl, ?_⟩, rfl⟩) (.pure ⟨.nil, rfl⟩))
  exact List.forall_mem_singleton.2 (.reservation (r := r) steps₁ steps₂ hr)

end Termination

end Carpark
