import Carpark.Proofs.GateLog

/-!
Readings that do not depend on the order of an index. On tables that are alike, with the same
identifiers to draw, they come to the same.
-/

namespace Carpark

variable {α β γ δ : Type}

def Tables.Keyed (t : Tables) : Prop :=
  ∀ {id : Ulid} {r : Reservation}, t.reservations.get? id = some r → r.id = id

/-- On alike tables the two readings come to results that `R` relates, and leave the same
identifiers to draw. -/
def Reading.Agree (R : α → β → Prop) (x : Reading α) (y : Reading β) : Prop :=
  ∀ (t t' : Tables) (ids ids' : Nat → Ulid) (n n' : Nat), t.Alike t' → t.Keyed →
    (∀ i, ids (n + i) = ids' (n' + i)) →
      R (x.eval t ids n).1 (y.eval t' ids' n').1 ∧
        ∀ i, ids ((x.eval t ids n).2 + i) = ids' ((y.eval t' ids' n').2 + i)

namespace Reading.Agree

variable {R : α → β → Prop} {S : γ → δ → Prop}

theorem done {a : α} {b : β} (h : R a b) : Agree R (.done a) (.done b) :=
  fun _ _ _ _ _ _ _ _ same => ⟨h, same⟩

theorem bind {x : Reading α} {y : Reading β} {f : α → Reading γ} {g : β → Reading δ}
    (hx : Agree R x y) (hf : ∀ a b, R a b → Agree S (f a) (g b)) :
    Agree S (x.bind f) (y.bind g) := by
  intro t t' ids ids' n n' alike keyed same
  obtain ⟨related, same'⟩ := hx t t' ids ids' n n' alike keyed same
  rw [eval_bind, eval_bind]
  exact hf _ _ related _ _ _ _ _ _ alike keyed same'

theorem get {q : Query} {R : q.Answer → q.Answer → Prop}
    (hq : ∀ {t t' : Tables}, t.Alike t' → R (t.answer q) (t'.answer q)) :
    Agree R (.get q) (.get q) :=
  fun _ _ _ _ _ _ alike _ same => ⟨hq alike, same⟩

theorem draw : Agree Eq (.draw .done) (.draw .done) := by
  intro t t' ids ids' n n' _ _ same
  refine ⟨same 0, fun i => ?_⟩
  have := same (i + 1)
  simpa [eval, Nat.add_assoc, Nat.add_comm i 1] using this

end Reading.Agree

/-! ### Readings that may fail -/

inductive Except.Related {ε : Type} (R : α → β → Prop) : Except ε α → Except ε β → Prop
  | ok {a : α} {b : β} : R a b → Related R (.ok a) (.ok b)
  | error (e : ε) : Related R (.error e) (.error e)

theorem Except.Related.eq {ε : Type} {x y : Except ε α} (h : Related Eq x y) : x = y := by
  cases h with
  | ok h => rw [h]
  | error e => rfl

namespace Lookup

variable {R : α → β → Prop} {S : γ → δ → Prop}

def Agree (R : α → β → Prop) (x : Lookup α) (y : Lookup β) : Prop :=
  Reading.Agree (Except.Related R) x.run y.run

abbrev Steady (x : Lookup α) : Prop := Agree Eq x x

theorem Agree.pure {a : α} {b : β} (h : R a b) : Agree R (Pure.pure a) (Pure.pure b) :=
  .done (.ok h)

theorem Agree.bind {x : Lookup α} {y : Lookup β} {f : α → Lookup γ} {g : β → Lookup δ}
    (hx : Agree R x y) (hf : ∀ a b, R a b → Agree S (f a) (g b)) :
    Agree S (x >>= f) (y >>= g) := by
  refine Reading.Agree.bind hx fun a b related => ?_
  cases related with
  | ok h => exact hf _ _ h
  | error e => exact .done (.error e)

theorem Agree.ask {q : Query} {R : q.Answer → q.Answer → Prop}
    (hq : ∀ {t t' : Tables}, t.Alike t' → R (t.answer q) (t'.answer q)) :
    Agree R (ask q) (ask q) :=
  Reading.Agree.bind (.get hq) fun _ _ h => .done (.ok h)

namespace Steady

theorem pure (a : α) : Steady (Pure.pure a : Lookup α) := Agree.pure rfl

theorem throw (e : Failure) : Steady (MonadExcept.throw e : Lookup α) := .done (.error e)

theorem lift (x : Except Failure α) : Steady (liftM x : Lookup α) := by
  cases x with
  | ok a => exact pure a
  | error e => exact throw e

theorem bind {x : Lookup α} {f : α → Lookup β} (hx : Steady x) (hf : ∀ a, Steady (f a)) :
    Steady (x >>= f) :=
  Agree.bind hx fun a _ h => h ▸ hf a

theorem ite {c : Prop} [Decidable c] {x y : Lookup α} (hx : Steady x) (hy : Steady y) :
    Steady (if c then x else y) := by
  split
  · exact hx
  · exact hy

theorem guard {c : Prop} [Decidable c] {e : Failure} {f : β → Lookup α} {x : Lookup α}
    (hx : Steady x) : Steady (if c then MonadExcept.throw e >>= f else x) :=
  ite (.done (.error e)) hx

theorem draw : Steady Lookup.draw :=
  Reading.Agree.bind .draw fun _ _ h => .done (.ok h)

theorem ask {q : Query} (hq : ∀ {t t' : Tables}, t.Alike t' → t.answer q = t'.answer q) :
    Steady (Lookup.ask q) :=
  Agree.ask hq

theorem askParking (id : Ulid) : Steady (Lookup.ask (.parking id)) :=
  ask fun h => by simp [Tables.answer, h.parkings]

theorem askSector (id : Ulid) : Steady (Lookup.ask (.sector id)) :=
  ask fun h => by simp [Tables.answer, h.sectors]

theorem askReservation (id : Ulid) : Steady (Lookup.ask (.reservation id)) :=
  ask fun h => by simp [Tables.answer, h.reservations]

theorem events (id : Ulid) : Steady (Lookup.events id) :=
  ask (q := .events id) fun h => by simp [Tables.answer, h.events]

theorem row {x : Lookup (Option α)} {f : Option α → Lookup β} (hx : Steady x)
    (hsome : ∀ a, Steady (f (some a))) (hnone : Steady (f none)) : Steady (x >>= f) :=
  bind hx fun o => by
    cases o with
    | none => exact hnone
    | some a => exact hsome a

theorem parking (id : Ulid) : Steady (Lookup.parking id) :=
  row (askParking id) pure (throw _)

theorem sector (id : Ulid) : Steady (Lookup.sector id) :=
  row (askSector id) pure (throw _)

theorem reservation (id : Ulid) : Steady (Lookup.reservation id) :=
  row (askReservation id) pure (throw _)

theorem rows {get : Ulid → Lookup (Option α)} (hget : ∀ id, Steady (get id)) (ids : List Ulid) :
    Steady (Lookup.rows get ids) := by
  induction ids with
  | nil => exact pure _
  | cons id ids ih => exact bind (hget id) fun _ => bind ih fun _ => pure _

theorem sectorsOf (p : Parking) : Steady (Lookup.sectorsOf p) := rows askSector _

theorem hasHistory (id : Ulid) : Steady (Lookup.hasHistory id) :=
  Agree.bind (.ask (q := .ofSector id) (R := List.Perm) fun h => h.bySector id) fun l l' h => by
    have same : l.isEmpty = l'.isEmpty := h.isEmpty_eq
    rw [same]
    exact pure _

end Steady

/-! ### Rows of an index -/

theorem eval_reservationRows (t : Tables) (ids : Nat → Ulid) (l : List Ulid) (n : Nat) :
    (rows (fun id => Lookup.ask (.reservation id)) l).run.eval t ids n =
      (.ok (l.filterMap t.reservations.get?), n) :=
  Reading.eval_of_sees
    (sees_reservationRows.2 ⟨seesRows_alone (fun t => t.reservations.get?) t l, rfl⟩) ids n
    (by simp)

def SameRows (rs rs' : List Reservation) : Prop :=
  rs.Perm rs' ∧ ∀ a ∈ rs, ∀ b ∈ rs', a.id = b.id → a = b

theorem agree_reservationRows {l l' : List Ulid} (h : l.Perm l') :
    Agree SameRows (rows (fun id => Lookup.ask (.reservation id)) l)
      (rows (fun id => Lookup.ask (.reservation id)) l') := by
  intro t t' ids ids' n n' alike keyed same
  rw [eval_reservationRows, eval_reservationRows, ← alike.reservations]
  refine ⟨.ok ⟨h.filterMap _, fun a ha b hb hid => ?_⟩, same⟩
  obtain ⟨k, -, hk⟩ := List.mem_filterMap.1 ha
  obtain ⟨k', -, hk'⟩ := List.mem_filterMap.1 hb
  have hkk : k = k' := (keyed hk).symm.trans (hid.trans (keyed hk'))
  rw [hkk, hk'] at hk
  exact (Option.some.inj hk).symm

theorem agree_reservationsOfSector (k : Ulid) :
    Agree SameRows (reservationsOfSector k) (reservationsOfSector k) :=
  .bind (.ask (q := .ofSector k) (R := List.Perm) fun h => h.bySector k) fun _ _ =>
    agree_reservationRows

theorem agree_reservationsOfClient (c : Ulid) :
    Agree SameRows (reservationsOfClient c) (reservationsOfClient c) :=
  .bind (.ask (q := .ofClient c) (R := List.Perm) fun h => h.byClient c) fun _ _ =>
    agree_reservationRows

end Lookup

/-! ### Attempts -/

namespace Registry

open Lookup

variable {ctx : Context}

theorem steady_requireFreeName {p : Parking} {name : String} {besides : Option Ulid} :
    Steady (requireFreeName p name besides) :=
  .bind (.sectorsOf p) fun _ => .ite (.throw _) (.pure _)

theorem steady_createAttempt {settings : Settings} {address : Address} {policy : Option Policy} :
    Steady (createAttempt ctx settings address policy) :=
  .bind (.lift _) fun _ => .bind (.lift _) fun _ => .bind .draw fun _ => .pure _

theorem steady_updateAttempt {id : Ulid} {version : Version} {address : Address}
    {policy : Policy} : Steady (updateAttempt ctx id version address policy) :=
  .bind (.lift _) fun _ => .bind (.lift _) fun _ => .bind (.parking id) fun _ =>
    .bind (.lift _) fun _ => .pure _

theorem steady_used {ss : List Sector} : Steady (deleteAttempt.used ss) := by
  induction ss with
  | nil => exact .pure _
  | cons s ss ih => exact .bind (.hasHistory s.id) fun _ => .ite (.pure _) ih

theorem steady_deleteAttempt {id : Ulid} {version : Version} :
    Steady (deleteAttempt ctx id version) :=
  .bind (.lift _) fun _ => .bind (.parking id) fun _ => .bind (.lift _) fun _ =>
    .bind (.sectorsOf _) fun _ => .bind steady_used fun _ => .guard (.pure _)

theorem steady_addSectorAttempt {parking : Ulid} {spec : SectorSpec} :
    Steady (addSectorAttempt ctx parking spec) :=
  .bind (.lift _) fun _ => .bind (.lift _) fun _ => .bind (.parking parking) fun _ =>
    .guard (.bind steady_requireFreeName fun _ => .bind .draw fun _ => .pure _)

theorem steady_updateSectorAttempt {id : Ulid} {version : Version} {spec : SectorSpec} :
    Steady (updateSectorAttempt ctx id version spec) :=
  .bind (.lift _) fun _ => .bind (.lift _) fun _ => .bind (.sector id) fun _ =>
    .bind (.lift _) fun _ => .guard (.guard (.ite (.bind (.pure _) fun _ => .pure _)
      (.bind (.parking _) fun _ => .bind steady_requireFreeName fun _ =>
        .bind (.pure _) fun _ => .pure _)))

theorem steady_activateAttempt {id : Ulid} {version : Version} :
    Steady (activateAttempt ctx id version) :=
  .bind (.lift _) fun _ => .bind (.sector id) fun _ => .bind (.lift _) fun _ => .guard (.pure _)

theorem steady_deactivateAttempt {id : Ulid} {version : Version} {time : Ms} :
    Steady (deactivateAttempt ctx id version time) :=
  .bind (.lift _) fun _ => .bind (.sector id) fun _ => .bind (.lift _) fun _ =>
    .guard (.guard (.guard (.pure _)))

theorem steady_deleteSectorAttempt {id : Ulid} {version : Version} :
    Steady (deleteSectorAttempt ctx id version) :=
  .bind (.lift _) fun _ => .bind (.sector id) fun _ => .bind (.lift _) fun _ =>
    .bind (.hasHistory id) fun _ => .guard (.bind (.parking _) fun _ => .pure _)

theorem steady_finalizeAttempt {id : Ulid} : Steady (finalizeAttempt ctx id) :=
  .bind (.lift _) fun _ => .row (.askSector id) (fun _ => .ite (.pure _) (.pure _)) (.pure _)

end Registry

open Lookup

theorem Booking.steady_makeAttempt {ctx : Context} {client sector : Ulid} {window : Span} :
    Steady (makeAttempt ctx client sector window) :=
  .bind (.sector sector) fun _ => .guard <|
    Agree.bind (agree_reservationsOfSector sector) fun rs rs' same => by
      have count : overlapping window rs = overlapping window rs' := same.1.countP_eq _
      simp only [count]
      exact Steady.guard (.bind .draw fun _ => .pure _)

theorem Booking.steady_cancelAttempt {ctx : Context} {id : Ulid} :
    Steady (cancelAttempt ctx id) :=
  .bind (.reservation id) fun _ => .bind (.lift _) fun _ => .guard <|
    .bind (.events id) fun _ => .guard (.pure _)

namespace Gate

variable {settings : Settings} {ctx : Context}

theorem steady_enterAttempt {id : Ulid} : Steady (enterAttempt ctx id) :=
  .bind (.reservation id) fun _ => .bind (.lift _) fun _ => .guard <|
    .bind (.events id) fun _ => .guard <| .guard <| .guard <|
      .bind (.sector _) fun _ => .bind (.lift _) fun _ => .bind .draw fun _ => .bind .draw fun _ =>
        .pure _

theorem steady_driveInAttempt {parking : Ulid} {client : Option Ulid} :
    Steady (driveInAttempt settings ctx parking client) := by
  refine .bind (.parking parking) fun p => .bind (.sectorsOf p) fun ss => ?_
  cases p.policy.choose ctx.now ss with
  | none => exact .throw _
  | some s =>
    exact .bind (.lift _) fun _ => .bind .draw fun _ => .bind .draw fun _ => .bind .draw fun _ =>
      .pure _

theorem steady_exitAttempt {id : Ulid} {code : Option String} {ending : Bool} :
    Steady (exitAttempt ctx id code ending) :=
  .bind (.reservation id) fun _ => .bind (.lift _) fun _ => .guard <|
    .bind (.events id) fun _ => .guard <| .bind (.sector _) fun _ => .bind (.lift _) fun _ =>
      .bind .draw fun _ => .pure _

end Gate

namespace Termination

variable {settings : Settings} {ctx : Context}

theorem steady_expireAttempt {id : Ulid} : Steady (expireAttempt ctx id) :=
  .row (.askReservation id) (fun _ => .bind (.events id) fun _ => .ite (.pure _) (.pure _))
    (.pure _)

theorem steady_forceExitAttempt {id : Ulid} : Steady (forceExitAttempt settings ctx id) :=
  .row (.askReservation id)
    (fun _ => .bind (.events id) fun _ => .ite
      (.bind (.sector _) fun _ => .bind (.lift _) fun _ => .bind .draw fun _ => .pure _) (.pure _))
    (.pure _)

theorem steady_closeAttempt {id : Ulid} : Steady (closeAttempt ctx id) :=
  .row (.askReservation id) (fun _ => .bind (.events id) fun _ => .ite (.pure _) (.pure _))
    (.pure _)

end Termination

/-! ### Listings -/

namespace Listing

variable {ctx : Context}

theorem steady_parkings {page : Page} : Steady (parkings page) :=
  .bind (.ask fun h => by simp [Tables.answer, h.parkings]) fun _ => .pure _

theorem steady_sectors {parking : Ulid} {page : Page} : Steady (sectors parking page) :=
  .bind (.parking parking) fun _ => .bind (.sectorsOf _) fun _ => .pure _

theorem steady_reservation {id : Ulid} : Steady (reservation ctx id) :=
  .bind (.reservation id) fun _ => .ite (.pure _) (.throw _)

theorem mergeSort_eq_of_sameRows {rs rs' : List Reservation} (h : SameRows rs rs') :
    (rs.mergeSort fun a b => a.id.val ≤ b.id.val) =
      rs'.mergeSort fun a b => a.id.val ≤ b.id.val := by
  have perm (l : List Reservation) := List.mergeSort_perm l fun a b => a.id.val ≤ b.id.val
  have sorted (l : List Reservation) : (l.mergeSort fun a b => a.id.val ≤ b.id.val).Pairwise
      fun a b => decide (a.id.val ≤ b.id.val) := by
    refine List.pairwise_mergeSort (fun a b c => ?_) (fun a b => ?_) l
    · simpa using Nat.le_trans
    · simpa using Nat.le_total _ _
  refine List.Perm.eq_of_pairwise (fun a b ha hb le le' => ?_) (sorted rs) (sorted rs')
    ((perm rs).trans (h.1.trans (perm rs').symm))
  have same : a.id = b.id :=
    Ulid.ext_val (Nat.le_antisymm (of_decide_eq_true le) (of_decide_eq_true le'))
  exact h.2 a ((perm rs).mem_iff.1 ha) b ((perm rs').mem_iff.1 hb) same

theorem steady_visible : Steady (visible ctx) := by
  refine .ite (.ask fun h => by simp [Tables.answer, h.reservations]) ?_
  cases ctx.caller.client? with
  | none => exact .pure _
  | some client =>
    refine Agree.bind (agree_reservationsOfClient client) fun rs rs' same => ?_
    rw [mergeSort_eq_of_sameRows same]
    exact Steady.pure _

theorem steady_reservations {page : Page} : Steady (reservations ctx page) :=
  .bind steady_visible fun _ => .pure _

theorem steady_events {id : Ulid} : Steady (events ctx id) :=
  .bind steady_reservation fun _ => .events id

theorem steady_isOccupying {id : Ulid} : Steady (isOccupying id) :=
  .bind (.reservation id) fun _ => .bind (.events id) fun _ => .pure _

theorem eval_countOccupying (t : Tables) (ids : Nat → Ulid) (rs : List Reservation) (n : Nat) :
    (countOccupying rs).run.eval t ids n =
      (.ok (rs.countP fun r => r.isOccupying (t.eventsOf r.id)), n) :=
  Reading.eval_of_sees (sees_countOccupying t rs) ids n (by simp)

theorem agree_countOccupying {rs rs' : List Reservation} (h : rs.Perm rs') :
    Agree Eq (countOccupying rs) (countOccupying rs') := by
  intro t t' ids ids' n n' alike _ same
  rw [eval_countOccupying, eval_countOccupying, ← alike.events, h.countP_eq]
  exact ⟨.ok rfl, same⟩

theorem steady_occupancy {sector : Ulid} : Steady (occupancy sector) :=
  .bind (.sector sector) fun _ => Agree.bind (agree_reservationsOfSector sector) fun _ _ same =>
    agree_countOccupying same.1

end Listing

/-! ### What a sweep looks for -/

namespace Reading

abbrev Steady (x : Reading α) : Prop := Agree Eq x x

theorem Steady.bind {x : Reading α} {f : α → Reading β} (hx : Steady x)
    (hf : ∀ a, Steady (f a)) : Steady (x >>= f) :=
  Agree.bind hx fun a _ h => h ▸ hf a

theorem Steady.pure (a : α) : Steady (Pure.pure a : Reading α) := .done rfl

end Reading

namespace Listing

theorem steady_selectReservations {fits : Reservation → List GateEvent → Bool} :
    (selectReservations fits).Steady := by
  refine .bind (.get fun h => by simp [Tables.answer, h.reservations]) fun rs => ?_
  induction rs with
  | nil => exact .pure _
  | cons r rs ih =>
    exact .bind (.get fun h => by simp [Tables.answer, h.events]) fun _ => .bind ih fun _ => .pure _

theorem steady_lapsed {now : Ms} : (lapsed now).Steady :=
  .bind (.get fun h => by simp [Tables.answer, h.sectors]) fun _ => .pure _

end Listing

namespace Sweep

variable {settings : Settings} {now : Ms}

theorem steady_candidates {phase : SweepPhase} : (candidates settings now phase).Steady := by
  cases phase with
  | expired | forceEnded | closed => exact Listing.steady_selectReservations
  | deactivated => exact Listing.steady_lapsed

theorem steady_survey {phases : List SweepPhase} : (survey settings now phases).Steady := by
  induction phases with
  | nil => exact .pure _
  | cons phase rest ih =>
    exact .bind steady_candidates fun _ => .bind ih fun _ => .pure _

end Sweep

end Carpark
