import Carpark.Proofs.Occupancy
import Carpark.Proofs.Reachable
import Carpark.Proofs.Stays

/-!
The order in which the events of a reservation come, and what its status says about them.
-/

namespace Carpark

/-! ### Entries and exits in turn -/

theorem getElem?_concat_cases {es : List GateEvent} {e e' : GateEvent} {i : Nat}
    (h : (es ++ [e])[i]? = some e') : es[i]? = some e' ∨ i = es.length ∧ e' = e := by
  rcases Nat.lt_trichotomy i es.length with lt | rfl | gt
  · exact .inl (by rwa [List.getElem?_append_left lt] at h)
  · exact .inr ⟨rfl, by simpa [eq_comm] using h⟩
  · rw [List.getElem?_eq_none (by rw [List.length_append]; exact gt)] at h
    cases h

/-- Entries and exits take turns, and an entry comes first. -/
def Alternates (events : List GateEvent) : Prop :=
  ∀ i e, events[i]? = some e → (e.kind = .entry ↔ i % 2 = 0)

namespace Alternates

variable {es : List GateEvent} {e : GateEvent}

theorem nil : Alternates [] := by
  intro i e he
  simp at he

theorem isInside_iff (h : Alternates es) : isInside es = true ↔ es.length % 2 = 1 := by
  rcases List.eq_nil_or_concat es with rfl | ⟨es, e, rfl⟩
  · simp [isInside]
  · have last := h es.length e (by simp)
    rw [List.concat_eq_append, isInside_append, decide_eq_true_iff, last, List.length_append]
    simp only [List.length_singleton]
    omega

theorem concat (h : Alternates es) (he : e.kind = .entry ↔ isInside es = false) :
    Alternates (es ++ [e]) := by
  intro i e' he'
  rcases getElem?_concat_cases he' with he' | ⟨rfl, rfl⟩
  · exact h i e' he'
  · have inside := h.isInside_iff
    rw [he, ← Bool.not_eq_true, inside]
    omega

theorem eq_nil (h : Alternates es) (unused : hasEntered es = false) : es = [] := by
  cases es with
  | nil => rfl
  | cons e es =>
    have entry : e.kind = .entry := (h 0 e rfl).2 rfl
    simp [hasEntered, entry] at unused

end Alternates

theorem exists_exit_of_outside {es : List GateEvent} (used : hasEntered es = true)
    (outside : isInside es = false) : ∃ e, es.getLast? = some e ∧ e.kind = .exit := by
  rcases List.eq_nil_or_concat es with rfl | ⟨es, e, rfl⟩
  · cases used
  · rw [List.concat_eq_append, isInside_append, decide_eq_false_iff_not] at outside
    refine ⟨e, by simp, ?_⟩
    cases hk : e.kind with
    | entry => exact absurd hk outside
    | exit => rfl

/-! ### Reservations -/

structure Reservation.Orderly (r : Reservation) (es : List GateEvent) : Prop where
  alternates : Alternates es
  unused : r.status = .cancelled ∨ r.status = .expired → es = []
  ended : r.status = .ended → ∃ e, es.getLast? = some e ∧ e.kind = .exit
  /-- A forced event is the exit with which the reservation has ended. -/
  forced : ∀ i e, es[i]? = some e → e.forced = true →
    e.kind = .exit ∧ i + 1 = es.length ∧ r.status = .ended
  /-- Who comes without a booking comes once, and is inside until the end. -/
  oneEntry : r.booked = false → es.countP (·.kind = .entry) = 1
  unbooked : r.booked = false → r.isOccupying es = true ∨ r.status = .ended
  code : r.code.isSome = true ↔ es ≠ []

namespace Reservation

variable {settings : Settings} {now : Ms} {op : Operation} {r r' : Reservation}
  {es es' : List GateEvent} {e : GateEvent}

theorem Begins.orderly (h : r.Begins settings now es) : r.Orderly es := by
  cases h with
  | booked hbooked created code _ _ =>
    exact {
      alternates := .nil
      unused := fun _ => rfl
      ended := fun h => by simp [created] at h
      forced := fun i e he => by simp at he
      oneEntry := fun h => by simp [hbooked] at h
      unbooked := fun h => by simp [hbooked] at h
      code := by simp [code] }
  | @drivesIn id parking sector client code e entry unforced =>
    exact {
      alternates := Alternates.nil.concat (by simp [entry, isInside])
      unused := fun h => by simp [driveIn] at h
      ended := fun h => by simp [driveIn] at h
      forced := fun i e' he' hforced => by
        obtain rfl : e = e' := by grind
        simp [unforced] at hforced
      oneEntry := fun _ => by simp [entry]
      unbooked := fun _ => .inl (by simp [isOccupying, driveIn, isInside, entry])
      code := by simp [driveIn] }

theorem Begins.window (h : r.Begins settings now es) (hmost : 0 < settings.maxReservation) :
    r.window.start < r.window.stop ∧
      r.window.stop ≤ r.window.start + settings.maxReservation := by
  cases h with
  | booked _ _ _ start stop => exact ⟨start, stop⟩
  | drivesIn => exact ⟨Int.lt_add_of_pos_right _ hmost, Int.le_refl _⟩

namespace Orderly

theorem unforced (h : r.Orderly es) (created : r.status = .created) (i : Nat) (e : GateEvent)
    (he : es[i]? = some e) : e.forced = false := by
  rw [← Bool.not_eq_true]
  intro hforced
  obtain ⟨-, -, ended⟩ := h.forced i e he hforced
  cases created.symm.trans ended

theorem booked_of_unused (h : r.Orderly es) (created : r.status = .created)
    (unused : hasEntered es = false) : es = [] ∧ r.booked = true := by
  have none := h.alternates.eq_nil unused
  refine ⟨none, ?_⟩
  rw [← Bool.not_eq_false]
  intro hbooked
  rcases h.unbooked hbooked with inside | ended
  · simp [isOccupying, isInside_of_not_hasEntered unused] at inside
  · cases created.symm.trans ended

theorem withStatus (h : r.Orderly es) (created : r.status = .created) {status : Status}
    {v : Version} (unused : status = .cancelled ∨ status = .expired → es = [] ∧ r.booked = true)
    (ended : status = .ended → ∃ e, es.getLast? = some e ∧ e.kind = .exit)
    (terminal : status ≠ .created) :
    { r with status, version := v : Reservation }.Orderly es where
  alternates := h.alternates
  unused := fun hs => (unused hs).1
  ended := ended
  forced := fun i e he hforced => by
    cases (h.unforced created i e he).symm.trans hforced
  oneEntry := h.oneEntry
  unbooked := fun hbooked => by
    cases status with
    | created => exact absurd rfl terminal
    | cancelled => cases (unused (.inl rfl)).2.symm.trans hbooked
    | expired => cases (unused (.inr rfl)).2.symm.trans hbooked
    | ended => exact .inr rfl
  code := h.code

theorem enter (h : r.Orderly es) (created : r.status = .created)
    (outside : r.isOccupying es = false) (entry : e.kind = .entry) (seen : e.forced = false)
    {code : String} {v : Version} :
    { r with code := some code, version := v : Reservation }.Orderly (es ++ [e]) := by
  have out : isInside es = false := by simpa [isOccupying, created] using outside
  have hbooked : r.booked = true := by
    rw [← Bool.not_eq_false]
    intro hbooked
    rcases h.unbooked hbooked with inside | ended
    · cases outside.symm.trans inside
    · cases created.symm.trans ended
  exact {
    alternates := h.alternates.concat (by simp [entry, out])
    unused := fun hs => by simp [created] at hs
    ended := fun hs => by cases created.symm.trans hs
    forced := fun i e' he' hforced => by
      rcases getElem?_concat_cases he' with he' | ⟨rfl, rfl⟩
      · cases (h.unforced created i e' he').symm.trans hforced
      · cases seen.symm.trans hforced
    oneEntry := fun hs => by cases hbooked.symm.trans hs
    unbooked := fun hs => by cases hbooked.symm.trans hs
    code := by simp }

theorem leave (h : r.Orderly es) (inside : r.isOccupying es = true) (exit : e.kind = .exit)
    {status : Status} {v : Version}
    (hstatus : status = .ended ∨ status = .created ∧ r.booked = true)
    (hforced : e.forced = true → status = .ended) :
    { r with status, version := v : Reservation }.Orderly (es ++ [e]) := by
  obtain ⟨created, inside⟩ := isOccupying_iff.1 inside
  have some : es ≠ [] := by
    rintro rfl
    simp [isInside] at inside
  exact {
    alternates := h.alternates.concat (by simp [exit, inside])
    unused := fun hs => by
      rcases hstatus with rfl | ⟨rfl, -⟩ <;> simp at hs
    ended := fun _ => ⟨e, by simp, exit⟩
    forced := fun i e' he' hf => by
      rcases getElem?_concat_cases he' with he' | ⟨rfl, rfl⟩
      · cases (h.unforced created i e' he').symm.trans hf
      · exact ⟨exit, by simp, hforced hf⟩
    oneEntry := fun hs => by simpa [exit] using h.oneEntry hs
    unbooked := fun hs => by
      rcases hstatus with rfl | ⟨-, hbooked⟩
      · exact .inr rfl
      · cases hbooked.symm.trans hs
    code := by simpa [some] using h.code }

end Orderly

theorem Moves.orderly (h : r.Moves settings now es op r' es') (ho : r.Orderly es) :
    r'.Orderly es' := by
  cases h with
  | cancels created unused =>
    exact ho.withStatus created (fun _ => ho.booked_of_unused created unused) (by simp) (by simp)
  | enters created outside _ _ entry seen => exact ho.enter created outside entry seen
  | @leaves code ending e inside exit seen =>
    refine ho.leave inside exit ?_ fun hforced => by cases seen.symm.trans hforced
    have created := (isOccupying_iff.1 inside).1
    cases ending <;> cases r.booked <;> simp [created]
  | expires due =>
    obtain ⟨⟨created, -⟩, unused⟩ := isExpirable_iff.1 due
    exact ho.withStatus created (fun _ => ho.booked_of_unused created unused) (by simp) (by simp)
  | evicts due exit forced =>
    exact ho.leave (isOverstayed_iff.1 due).1 exit (.inl rfl) fun _ => rfl
  | closes due =>
    obtain ⟨⟨⟨created, -⟩, used⟩, outside⟩ := isFinished_iff.1 due
    have out : isInside es = false := by simpa [isOccupying, created] using outside
    exact ho.withStatus created (by simp) (fun _ => exists_exit_of_outside used out) (by simp)

end Reservation

theorem Config.maxReservation_pos (vars : Variables) :
    0 < (ofVariables vars).settings.maxReservation := by
  change 0 < (Variables.positive _ _ _).1
  rw [Variables.positive]
  split
  next => decide
  next h => exact Int.not_le.1 h

/-! ### Reachable engines -/

namespace Tables

variable {settings : Settings} {now : Ms} {op : Operation} {t t' : Tables}

def Orderly (t : Tables) : Prop :=
  ∀ id r, t.reservations.get? id = some r → r.Orderly (t.eventsOf id)

def Bounded (most : Ms) (t : Tables) : Prop :=
  ∀ id r, t.reservations.get? id = some r →
    r.window.start < r.window.stop ∧ r.window.stop ≤ r.window.start + most

theorem orderly_empty : empty.Orderly := by
  intro id r hr
  cases hr

theorem bounded_empty (most : Ms) : empty.Bounded most := by
  intro id r hr
  cases hr

theorem Alike.orderly (h : t.Alike t') (ht : t.Orderly) : t'.Orderly := by
  intro id r hr
  rw [← h.events]
  exact ht id r (h.reservations ▸ hr)

theorem Forgets.orderly {a : Reservation} (h : t.Forgets a t') (ht : t.Orderly) : t'.Orderly := by
  intro id r hr
  obtain ⟨other, hr⟩ := h.get?_reservation.1 hr
  rw [h.events, if_neg other]
  exact ht id r hr

theorem Orderly.turns (ht : t.Orderly) (h : ∀ id, Turns settings now op t t' id) : t'.Orderly := by
  intro id r hr
  cases h id with
  | stays same events =>
    rw [events]
    exact ht id r (same ▸ hr)
  | moves hb hr' moves =>
    cases hr.symm.trans hr'
    exact moves.orderly (ht id _ hb)
  | begins _ hr' begins =>
    cases hr.symm.trans hr'
    exact begins.orderly

theorem Bounded.turns (hmost : 0 < settings.maxReservation)
    (ht : t.Bounded settings.maxReservation) (h : ∀ id, Turns settings now op t t' id) :
    t'.Bounded settings.maxReservation := by
  intro id r hr
  cases h id with
  | stays same _ => exact ht id r (same ▸ hr)
  | moves hb hr' moves =>
    cases hr.symm.trans hr'
    obtain ⟨-, -, -, -, window, -⟩ := moves.fixed
    rw [window]
    exact ht id _ hb
  | begins _ hr' begins =>
    cases hr.symm.trans hr'
    exact begins.window hmost

end Tables

namespace Engine

theorem Reachable.orderly {e : Engine} {cs : List Commit} (h : e.Reachable cs) :
    e.tables.Orderly :=
  h.invariant Tables.orderly_empty Tables.Alike.orderly (fun _ => Tables.Forgets.orderly)
    fun linked transition hok orderly => orderly.turns (transition.turns linked hok)

/-- The life of every reservation, from an empty log on. -/
theorem reservation_orderly (settings : Settings) (notifier : Notifier) (supply : Nat → Ulid)
    (obstructed : Bool) (hmost : 0 < settings.maxReservation) (rs : List Request) :
    let t := ((fresh settings notifier supply obstructed).serve rs).tables
    ∀ id r, t.reservations.get? id = some r →
      r.window.start < r.window.stop ∧
        r.window.stop ≤ r.window.start + settings.maxReservation ∧ r.Orderly (t.eventsOf id) := by
  intro t id r hr
  have reachable := Reachable.fresh settings notifier supply obstructed
  obtain ⟨_, served⟩ := reachable.serve rs
  have bounded : t.Bounded settings.maxReservation :=
    reachable.sound.invariant_serve (Tables.bounded_empty _)
      (fun linked transition hok bounded => bounded.turns hmost (transition.turns linked hok)) rs
  obtain ⟨start, stop⟩ := bounded id r hr
  exact ⟨start, stop, served.orderly id r hr⟩

def overstay : List Request := [
  .operation ⟨.system, 0⟩ (.createParking ⟨"Rome", "00100", "Corso 1"⟩ none),
  .operation ⟨.system, 0⟩ (.addSector (.ofNat 1) ⟨"AB-01", .covered, 2, 1⟩),
  .operation ⟨.anonymous, 0⟩ (.driveIn (.ofNat 1) true),
  .sweep (25 * hour)]

set_option maxRecDepth 10000 in
theorem reservation_orderly_overstay :
    let settings := (Config.ofVariables ⟨fun _ => none⟩).settings
    let t := ((fresh settings .silent (fun n => .ofNat (n + 1)) false).serve overstay).tables
    0 < settings.maxReservation ∧ ∃ r, t.reservations.get? (.ofNat 4) = some r ∧
      r.booked = false ∧ r.status = .ended ∧
      (t.eventsOf (.ofNat 4)).map (fun e => (e.kind, e.forced)) =
        [(.entry, false), (.exit, true)] ∧
      r.Orderly (t.eventsOf (.ofNat 4)) := by
  have defaults : (Config.ofVariables ⟨fun _ => none⟩).settings = {} := by decide
  have hmost := Config.maxReservation_pos ⟨fun _ => none⟩
  simp only [defaults] at hmost ⊢
  have hr : ((fresh {} .silent (fun n => .ofNat (n + 1)) false).serve
      overstay).tables.reservations.get? (.ofNat 4) = some {
        Reservation.driveIn {} 0 (.ofNat 4) (.ofNat 1) (.ofNat 2) none (Ulid.ofNat 3).code with
        status := .ended, version := 2 } := by decide
  obtain ⟨-, -, orderly⟩ := reservation_orderly {} .silent _ false hmost overstay _ _ hr
  exact ⟨hmost, _, hr, rfl, rfl, by decide, orderly⟩

end Engine

end Carpark
