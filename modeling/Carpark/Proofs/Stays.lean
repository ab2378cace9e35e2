import Carpark.Proofs.LinkedSteps

/-!
What a transition does to one reservation and its gate log. However an operation writes, a
reservation is begun, or moved on in one of six ways, or left as it is.
-/

namespace Carpark

/-- What an operation makes of a reservation `r` with the gate log `es`. Each way of moving it on
asks for one that has not ended, and raises the version. -/
inductive Reservation.Moves (settings : Settings) (now : Ms) (r : Reservation)
    (es : List GateEvent) : Operation → Reservation → List GateEvent → Prop
  | cancels : r.status = .created → hasEntered es = false →
    Moves settings now r es (.cancel r.id)
      { r with status := .cancelled, version := r.version + 1 } es
  | enters {code : String} {e : GateEvent} :
    r.status = .created → r.isOccupying es = false → r.window.start ≤ now → now ≤ r.window.stop →
    e.kind = .entry → e.forced = false →
    Moves settings now r es (.enter r.id) { r with code := some code, version := r.version + 1 }
      (es ++ [e])
  | leaves {code : Option String} {ending : Bool} {e : GateEvent} :
    r.isOccupying es = true → e.kind = .exit → e.forced = false →
    Moves settings now r es (.exit r.id code ending)
      { r with
        status := if ending || !r.booked then .ended else r.status, version := r.version + 1 }
      (es ++ [e])
  | expires : r.isExpirable es now = true →
    Moves settings now r es (.expire r.id)
      { r with status := .expired, version := r.version + 1 } es
  | evicts {e : GateEvent} :
    r.isOverstayed es settings.grace now = true → e.kind = .exit → e.forced = true →
    Moves settings now r es (.forceExit r.id)
      { r with status := .ended, version := r.version + 1 } (es ++ [e])
  | closes : r.isFinished es now = true →
    Moves settings now r es (.close r.id) { r with status := .ended, version := r.version + 1 } es

inductive Reservation.Begins (settings : Settings) (now : Ms) :
    Reservation → List GateEvent → Prop
  | booked {r : Reservation} :
    r.booked = true → r.status = .created → r.code = none → r.window.start < r.window.stop →
    r.window.stop ≤ r.window.start + settings.maxReservation → Begins settings now r []
  | drivesIn {id parking sector : Ulid} {client : Option Ulid} {code : String} {e : GateEvent} :
    e.kind = .entry → e.forced = false →
    Begins settings now (.driveIn settings now id parking sector client code) [e]

namespace Reservation

variable {settings : Settings} {now : Ms} {op : Operation} {r r' : Reservation}
  {es es' : List GateEvent}

theorem isOccupying_iff : r.isOccupying es = true ↔ r.status = .created ∧ isInside es = true := by
  simp [isOccupying]

theorem isExpirable_iff : r.isExpirable es now = true ↔
    (r.status = .created ∧ r.window.stop < now) ∧ hasEntered es = false := by
  simp [isExpirable]

theorem isOverstayed_iff {grace : Ms} : r.isOverstayed es grace now = true ↔
    r.isOccupying es = true ∧ r.window.stop + grace < now := by
  simp [isOverstayed]

theorem isFinished_iff : r.isFinished es now = true ↔
    ((r.status = .created ∧ r.window.stop < now) ∧ hasEntered es = true) ∧
      r.isOccupying es = false := by
  simp [isFinished]

namespace Moves

theorem created (h : r.Moves settings now es op r' es') : r.status = .created := by
  cases h with
  | cancels created _ => exact created
  | enters created => exact created
  | leaves inside => exact (isOccupying_iff.1 inside).1
  | expires due => exact (isExpirable_iff.1 due).1.1
  | evicts due => exact (isOccupying_iff.1 (isOverstayed_iff.1 due).1).1
  | closes due => exact (isFinished_iff.1 due).1.1.1

theorem fixed (h : r.Moves settings now es op r' es') :
    r'.id = r.id ∧ r'.client = r.client ∧ r'.parking = r.parking ∧ r'.sector = r.sector ∧
      r'.window = r.window ∧ r'.booked = r.booked ∧ r'.version = r.version + 1 := by
  cases h <;> exact ⟨rfl, rfl, rfl, rfl, rfl, rfl, rfl⟩

end Moves

end Reservation

theorem Span.of_ofRequest {start stop now most : Ms} {window : Span}
    (h : Span.ofRequest start stop now most = .ok window) :
    window.start < window.stop ∧ window.stop ≤ window.start + most := by
  simp only [Span.ofRequest] at h
  split at h
  · cases h
  split at h
  · cases h
  next order =>
  split at h
  · cases h
  next length =>
  split at h
  · cases h
  cases h
  exact ⟨Int.not_le.1 order, Int.le_add_of_sub_left_le (Int.not_lt.1 length)⟩

theorem Booking.ofRequest_of_request {settings : Settings} {ctx : Context} {start stop : Ms}
    {client : Ulid} {window : Span} (h : request settings ctx start stop = .ok (client, window)) :
    Span.ofRequest start stop ctx.now settings.maxReservation = .ok window := by
  simp only [request] at h
  split at h
  next => cases h
  next who _ =>
    cases made : Span.ofRequest start stop ctx.now settings.maxReservation with
    | error f =>
      rw [made] at h
      cases h
    | ok w =>
      rw [made] at h
      cases h
      rfl

theorem Booking.window_of_request {settings : Settings} {ctx : Context} {start stop : Ms}
    {client : Ulid} {window : Span} (h : request settings ctx start stop = .ok (client, window)) :
    window.start < window.stop ∧ window.stop ≤ window.start + settings.maxReservation :=
  Span.of_ofRequest (ofRequest_of_request h)

namespace Tables

/-- How a reservation and its gate log come from the tables `t` to the tables `t'`, by an
operation. -/
inductive Turns (settings : Settings) (now : Ms) (op : Operation) (t t' : Tables) (id : Ulid) :
    Prop
  | stays : t'.reservations.get? id = t.reservations.get? id → t'.eventsOf id = t.eventsOf id →
    Turns settings now op t t' id
  | moves {r r' : Reservation} :
    t.reservations.get? id = some r → t'.reservations.get? id = some r' →
    r.Moves settings now (t.eventsOf id) op r' (t'.eventsOf id) → Turns settings now op t t' id
  | begins {r : Reservation} :
    t.reservations.get? id = none → t'.reservations.get? id = some r →
    r.Begins settings now (t'.eventsOf id) → Turns settings now op t t' id

namespace Turns

variable {settings : Settings} {now : Ms} {op : Operation} {t t' : Tables}

theorem of_same (reservations : t'.reservations = t.reservations)
    (events : t'.eventsOf = t.eventsOf) (id : Ulid) : Turns settings now op t t' id :=
  .stays (by rw [reservations]) (by rw [events])

theorem of_put {r : Reservation} (reservations : t'.reservations = t.reservations.insert r.id r)
    (events : ∀ id, id ≠ r.id → t'.eventsOf id = t.eventsOf id)
    (h : (∃ b, t.reservations.get? r.id = some b ∧
        b.Moves settings now (t.eventsOf r.id) op r (t'.eventsOf r.id)) ∨
      t.reservations.get? r.id = none ∧ r.Begins settings now (t'.eventsOf r.id)) (id : Ulid) :
    Turns settings now op t t' id := by
  by_cases hid : id = r.id
  · subst hid
    have row : t'.reservations.get? r.id = some r := by rw [reservations, Table.get?_insert_self]
    rcases h with ⟨b, hb, moves⟩ | ⟨new, begins⟩
    · exact .moves hb row moves
    · exact .begins new row begins
  · exact .stays (by rw [reservations, Table.get?_insert_of_ne _ _ hid]) (events id hid)

theorem putReservation {r : Reservation}
    (h : ∃ b, t.reservations.get? r.id = some b ∧
      b.Moves settings now (t.eventsOf r.id) op r (t.eventsOf r.id)) (id : Ulid) :
    Turns settings now op t (t.putReservation r) id := by
  refine of_put (reservations_putReservation t r) (by simp) (.inl ?_) id
  rwa [eventsOf_putReservation]

theorem book {s : Sector} {r : Reservation} (absent : t.reservations.get? r.id = none)
    (unused : t.eventsOf r.id = []) (begins : r.Begins settings now []) (id : Ulid) :
    Turns settings now op t ((t.putSector s).putReservation r) id := by
  refine of_put (r := r) (by simp) (by simp) (.inr ⟨absent, ?_⟩) id
  rwa [eventsOf_putReservation, eventsOf_putSector, unused]

theorem gate {s : Sector} {r : Reservation} {e : GateEvent} (he : e.reservation = r.id)
    (h : (∃ b, t.reservations.get? r.id = some b ∧
        b.Moves settings now (t.eventsOf r.id) op r (t.eventsOf r.id ++ [e])) ∨
      t.reservations.get? r.id = none ∧ t.eventsOf r.id = [] ∧ r.Begins settings now [e])
    (id : Ulid) :
    Turns settings now op t (t.apply [.putSector s, .putReservation r, .appendEvent e]) id := by
  have events (k : Ulid) : (t.apply [.putSector s, .putReservation r, .appendEvent e]).eventsOf k =
      if k = r.id then t.eventsOf k ++ [e] else t.eventsOf k := by
    rw [apply_gate, eventsOf_addEvent, he, eventsOf_putReservation, eventsOf_putSector]
  refine of_put (r := r) (by simp [apply_gate]) (fun k hk => by rw [events, if_neg hk]) ?_ id
  rw [events, if_pos rfl]
  rcases h with moves | ⟨absent, unused, begins⟩
  · exact .inl moves
  · rw [unused]
    exact .inr ⟨absent, begins⟩

end Turns

end Tables

namespace Transition

open Tables

variable {settings : Settings} {ctx : Context} {t : Tables} {op : Operation} {ids : List Ulid}
  {txn : Txn}

theorem turns (h : Transition settings ctx t op ids txn) (ht : t.Linked)
    (hok : ∀ c ∈ txn, c.suits t) (id : Ulid) :
    Turns settings ctx.now op t (t.apply txn.writes) id := by
  cases h with
  | createParking | updateParking | addSector | updateSector | renameSector | activateSector
  | deactivateSector | deleteSector | finalize => refine .of_same ?_ ?_ id <;> rfl
  | @deleteParking _ _ p _ hp _ _ =>
    rw [Txn.writes_deleteSectors, ht.map_sectorsOf hp, apply_deleteSectors, foldl_deleteSector]
    exact .of_same (by simp) (by simp; rfl) id
  | @book sector client new _ _ window s asked hs _ _ =>
    have absent : t.reservations.get? new = none := hok _ (.tail _ (.head _))
    obtain ⟨start, stop⟩ := Booking.window_of_request asked
    exact .book absent (ht.eventsOf_eq_nil absent) (.booked rfl rfl rfl start stop) id
  | @cancel _ r hr _ created unused =>
    obtain rfl := ht.reservation_id hr
    refine .putReservation ?_ id
    exact ⟨r, hr, .cancels created unused⟩
  | @enter _ u v r s _ hr _ created out start stop hs taken =>
    obtain rfl := ht.reservation_id hr
    refine .gate rfl (.inl ?_) id
    exact ⟨r, hr, .enters created out start stop rfl rfl⟩
  | @driveIn parking u v w _ p s _ hp listed hs taken =>
    have absent : t.reservations.get? v = none := hok _ (.tail _ (.head _))
    refine .gate rfl (.inr ?_) id
    exact ⟨absent, ht.eventsOf_eq_nil absent, .drivesIn rfl rfl⟩
  | @exit _ u _ _ r s _ hr _ _ inside hs freed =>
    obtain rfl := ht.reservation_id hr
    refine .gate rfl (.inl ?_) id
    exact ⟨r, hr, .leaves inside rfl rfl⟩
  | @expire _ r _ hr due =>
    obtain rfl := ht.reservation_id hr
    refine .putReservation ?_ id
    exact ⟨r, hr, .expires due⟩
  | @forceExit _ u r s _ _ hr due hs freed =>
    obtain rfl := ht.reservation_id hr
    refine .gate rfl (.inl ?_) id
    exact ⟨r, hr, .evicts due rfl rfl⟩
  | @close _ r _ hr due =>
    obtain rfl := ht.reservation_id hr
    refine .putReservation ?_ id
    exact ⟨r, hr, .closes due⟩

end Transition

end Carpark
