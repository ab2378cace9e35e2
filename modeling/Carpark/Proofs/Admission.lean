import Carpark.Proofs.LaterSteps
import Carpark.Proofs.Reachable
import Mathlib.Data.List.Induction

/-!
Bookings of a sector are admitted against each other. Reservations that are open at one instant
have all been counted when the last of them was admitted, so they are no more than the places that
the sector had then.
-/

namespace Carpark

open Relation

/-! ### Reservations open at an instant -/

def Reservation.isOpenAt (r : Reservation) (sector : Ulid) (time : Ms) : Bool :=
  r.booked && r.status = .created && r.sector = sector && r.window.start ≤ time &&
    time < r.window.stop

def Tables.openAt (t : Tables) (sector : Ulid) (time : Ms) : List Reservation :=
  t.reservations.values.filter (·.isOpenAt sector time)

theorem Reservation.isOpenAt_iff {r : Reservation} {sector : Ulid} {time : Ms} :
    r.isOpenAt sector time = true ↔ r.booked = true ∧ r.status = .created ∧ r.sector = sector ∧
      r.window.start ≤ time ∧ time < r.window.stop := by
  simp [isOpenAt, and_assoc]

theorem Reservation.Becomes.isOpenAt {r r' : Reservation} (h : r.Becomes r') {sector : Ulid}
    {time : Ms} (hr' : r'.isOpenAt sector time = true) : r.isOpenAt sector time = true := by
  rw [Reservation.isOpenAt_iff] at hr' ⊢
  obtain ⟨booked, created, hsector, start, stop⟩ := hr'
  exact ⟨h.booked ▸ booked, h.created created, h.sector ▸ hsector, h.window ▸ start,
    h.window ▸ stop⟩

theorem Span.overlaps_of_shared {a b : Span} {time : Ms} (ha : a.start ≤ time)
    (ha' : time < a.stop) (hb : b.start ≤ time) (hb' : time < b.stop) : a.overlaps b = true := by
  simp only [overlaps, Bool.and_eq_true, decide_eq_true_eq]
  exact ⟨Int.lt_of_le_of_lt ha hb', Int.lt_of_le_of_lt hb ha'⟩

namespace Tables

variable {t : Tables}

theorem Indexed.openAt_nodup (ht : t.Indexed) (sector : Ulid) (time : Ms) :
    ((t.openAt sector time).map (·.id)).Nodup := by
  have keys := t.reservations.keys_nodup
  rw [← ht.map_id_values] at keys
  exact keys.sublist (List.filter_sublist.map _)

theorem Indexed.exists_of_mem_openAt (ht : t.Indexed) {sector : Ulid} {time : Ms} :
    ∀ id ∈ (t.openAt sector time).map (·.id),
      ∃ r, t.reservations.get? id = some r ∧ r.isOpenAt sector time = true := by
  refine List.forall_mem_map.2 fun r hr => ?_
  obtain ⟨hmem, isOpen⟩ := List.mem_filter.1 hr
  exact ⟨r, ht.get?_of_mem_values hmem, isOpen⟩

theorem Indexed.length_le_overlapping (ht : t.Indexed) {sector : Ulid} {time : Ms} {window : Span}
    (hstart : window.start ≤ time) (hstop : time < window.stop) {ids : List Ulid}
    (nodup : ids.Nodup)
    (isOpen : ∀ id ∈ ids, ∃ r, t.reservations.get? id = some r ∧ r.isOpenAt sector time = true) :
    ids.length ≤ Booking.overlapping window (t.reservationsOfSector sector) := by
  have counted : ids ⊆ ((t.reservationsOfSector sector).filter fun r =>
      r.status = .created && r.window.overlaps window).map (·.id) := by
    intro id hid
    obtain ⟨r, hr, isOpen⟩ := isOpen id hid
    obtain ⟨-, created, hsector, start, stop⟩ := Reservation.isOpenAt_iff.1 isOpen
    refine List.mem_map.2 ⟨r, List.mem_filter.2 ⟨?_, ?_⟩, ht.reservation_id hr⟩
    · exact List.mem_filterMap.2 ⟨id, ht.bySector.2 ⟨r, hr, hsector⟩, hr⟩
    · simp [created, Span.overlaps_of_shared start stop hstart hstop]
  have length := nodup.length_le_of_subset counted
  rwa [List.length_map, ← List.countP_eq_length_filter] at length

end Tables

namespace Transition

variable {settings : Settings} {ctx : Context} {t : Tables} {op : Operation} {ids : List Ulid}
  {txn : Txn}

theorem unbooked (h : Transition settings ctx t op ids txn)
    (hop : ∀ sector start stop, op ≠ .book sector start stop) {r : Reservation}
    (hr : .insertReservation r ∈ txn) : r.booked = false :=
  (h.of_insertReservation hr).2.resolve_left fun ⟨⟨_, _, _, same⟩, _⟩ => hop _ _ _ same

theorem admits {k : Ulid} {start stop : Ms}
    (h : Transition settings ctx t (.book k start stop) ids txn) (ht : t.Linked)
    (hok : ∀ c ∈ txn, c.suits t) {sector : Ulid} {time : Ms} {l : List Ulid}
    (nodup : l.Nodup)
    (isOpen : ∀ id ∈ l, ∃ r, (t.apply txn.writes).reservations.get? id = some r ∧
      r.isOpenAt sector time = true)
    {new : Ulid} (hnew : new ∈ l) (absent : t.reservations.get? new = none) :
    k = sector ∧ ∃ s, t.sectors.get? sector = some s ∧
      (t.apply txn.writes).sectors.get? sector = some { s with version := s.version + 1 } ∧
      l.length ≤ s.maxPlaces := by
  cases h with
  | @book _ client id _ _ window s _ hs _ room =>
    change ∀ j ∈ l, ∃ r, ((t.putSector _).putReservation _).reservations.get? j = some r ∧ _
      at isOpen
    simp only [Tables.reservations_putReservation, Tables.reservations_putSector,
      Table.get?_insert] at isOpen
    obtain ⟨b, hb, bOpen⟩ := isOpen new hnew
    by_cases hid : new = id
    · rw [if_pos hid] at hb
      cases hb
      obtain ⟨-, -, rfl, start', stop'⟩ := Reservation.isOpenAt_iff.1 bOpen
      have others : (l.erase new).length ≤
          Booking.overlapping window (t.reservationsOfSector k) := by
        refine ht.length_le_overlapping start' stop' (nodup.erase new) fun j hj => ?_
        obtain ⟨hne, hmem⟩ := nodup.mem_erase_iff.1 hj
        obtain ⟨b, hb, bOpen⟩ := isOpen j hmem
        rw [if_neg (hid ▸ hne)] at hb
        exact ⟨b, hb, bOpen⟩
      have length := List.length_erase_of_mem hnew
      have after : ((t.putSector { s with version := s.version + 1 }).putReservation
          { id, client := some client, parking := s.parking, sector := k, window
            status := .created, booked := true, code := none, version := 1 }).sectors.get? k =
          some { s with version := s.version + 1 } := by
        simp [ht.sector_id hs]
      exact ⟨rfl, s, hs, after, by omega⟩
    · rw [if_neg hid] at hb
      cases absent.symm.trans hb

end Transition

/-! ### Requests -/

theorem Request.book_or (r : Request) :
    (∃ ctx sector start stop, r = .operation ctx (.book sector start stop)) ∨
      ∀ ctx op, r.may ctx op → ∀ sector start stop, op ≠ .book sector start stop := by
  cases r with
  | operation ctx op =>
    cases op with
    | book sector start stop => exact .inl ⟨ctx, sector, start, stop, rfl⟩
    | _ =>
      refine .inr fun _ op hop _ _ _ h => ?_
      cases hop.2.symm.trans h
  | sweep now =>
    refine .inr fun _ op hop _ _ _ h => ?_
    subst h
    cases hop.2
  | _ => exact .inr fun _ _ hop => absurd hop id

namespace Engine

variable {settings : Settings} {may : Context → Operation → Prop}

theorem Sound.booked_before {x y : Engine × List Commit} (hs : x.1.Sound x.2)
    (h : ReflTransGen (Step settings may) x y)
    (hmay : ∀ ctx op, may ctx op → ∀ sector start stop, op ≠ .book sector start stop) :
    x.1.tables.Keeps y.1.tables ∧ ∀ id r, y.1.tables.reservations.get? id = some r →
      r.booked = true → ∃ b, x.1.tables.reservations.get? id = some b := by
  refine hs.invariant h (P := fun t => x.1.tables.Keeps t ∧ ∀ id r,
    t.reservations.get? id = some r → r.booked = true →
      ∃ b, x.1.tables.reservations.get? id = some b) ⟨.refl _, fun id r hr _ => ⟨r, hr⟩⟩ ?_
  rintro t ctx op ids txn linked hop transition hok ⟨keeps, before⟩
  refine ⟨keeps.trans (transition.keeps linked hok), fun id r hr booked => ?_⟩
  cases hmid : t.reservations.get? id with
  | some b =>
    obtain ⟨r', hr', becomes, -⟩ := transition.keeps linked hok id b hmid
    cases hr.symm.trans hr'
    exact before id b hmid (becomes.booked ▸ booked)
  | none =>
    obtain ⟨b, hb, rfl⟩ := transition.inserts linked hok hr hmid
    cases (transition.unbooked (hmay ctx op hop) hb).symm.trans booked

variable {e : Engine} {cs : List Commit}

theorem Sound.booked (hs : e.Sound cs) (r : Request) :
    e.tables.Keeps (e.run (r.program e.settings)).engine.tables ∧
      ∀ id b, (e.run (r.program e.settings)).engine.tables.reservations.get? id = some b →
        b.booked = true → e.tables.reservations.get? id = none →
          ∃ ctx sector start stop ids txn, r = .operation ctx (.book sector start stop) ∧
            Transition e.settings ctx e.tables (.book sector start stop) ids txn ∧
            (∀ c ∈ txn, c.suits e.tables) ∧
            (e.run (r.program e.settings)).engine.tables = e.tables.apply txn.writes := by
  rcases r.book_or with ⟨ctx, sector, start, stop, rfl⟩ | other
  · simp only [Request.program]
    rcases run_operation hs.linked e.settings ctx (.book sector start stop) with same | h
    · rw [same]
      refine ⟨.refl _, fun id b hb _ new => ?_⟩
      cases new.symm.trans hb
    · obtain ⟨ids, txn, transition, hok, tables⟩ := h
      refine ⟨?_, fun _ _ _ _ _ => ⟨_, _, _, _, ids, txn, rfl, transition, hok, tables⟩⟩
      rw [tables]
      exact transition.keeps hs.linked hok
  · have steps := Program.Steps.request e.settings r e cs
    obtain ⟨keeps, before⟩ := hs.booked_before (x := (e, cs)) steps other
    refine ⟨keeps, fun id b hb booked new => ?_⟩
    obtain ⟨b', hb'⟩ := before id b hb booked
    cases new.symm.trans hb'

theorem Sound.serve (hs : e.Sound cs) (rs : List Request) : ∃ cs', (e.serve rs).Sound cs' := by
  induction rs generalizing e cs with
  | nil => exact ⟨cs, hs⟩
  | cons r rs ih =>
    have step : (e.run (r.program e.settings)).engine.Sound (e.logged cs (r.program e.settings)) :=
      hs.steps (x := (e, cs)) (Program.Steps.request _ r e cs)
    exact ih step

theorem Sound.admitted (hs : e.Sound cs) (empty : ∀ id, e.tables.reservations.get? id = none)
    (rs : List Request) {sector : Ulid} {time : Ms} {ids : List Ulid} (nodup : ids.Nodup)
    (isOpen : ∀ id ∈ ids, ∃ r, (e.serve rs).tables.reservations.get? id = some r ∧
      r.isOpenAt sector time = true) :
    ids = [] ∨ ∃ before request after last s,
      rs = before ++ request :: after ∧
      (∃ ctx start stop, request = .operation ctx (.book sector start stop)) ∧
      last ∈ ids ∧ (e.serve before).tables.reservations.get? last = none ∧
      (∀ id ∈ ids, ∃ r, (e.serve (before ++ [request])).tables.reservations.get? id = some r) ∧
      (e.serve before).tables.sectors.get? sector = some s ∧
      (e.serve (before ++ [request])).tables.sectors.get? sector =
        some { s with version := s.version + 1 } ∧
      ids.length ≤ s.maxPlaces := by
  induction rs using List.reverseRecOn generalizing ids with
  | nil =>
    refine .inl (List.eq_nil_iff_forall_not_mem.2 fun id hid => ?_)
    obtain ⟨r, hr, -⟩ := isOpen id hid
    cases (empty id).symm.trans hr
  | append_singleton rs r ih =>
    obtain ⟨cs', sound⟩ := hs.serve rs
    obtain ⟨keeps, booked⟩ := sound.booked r
    have served : e.serve (rs ++ [r]) =
        ((e.serve rs).run (r.program (e.serve rs).settings)).engine :=
      serve_append e rs [r]
    rw [← served] at keeps booked
    -- what is open now was open before, if it was there
    have earlier {id : Ulid} (hid : id ∈ ids) {b : Reservation}
        (hb : (e.serve rs).tables.reservations.get? id = some b) :
        b.isOpenAt sector time = true := by
      obtain ⟨b', hb', isOpen⟩ := isOpen id hid
      obtain ⟨b'', hb'', becomes, -⟩ := keeps id b hb
      cases hb'.symm.trans hb''
      exact becomes.isOpenAt isOpen
    by_cases old : ∀ id ∈ ids, ∃ b, (e.serve rs).tables.reservations.get? id = some b
    · have isOpen' : ∀ id ∈ ids, ∃ b, (e.serve rs).tables.reservations.get? id = some b ∧
          b.isOpenAt sector time = true := by
        intro id hid
        obtain ⟨b, hb⟩ := old id hid
        exact ⟨b, hb, earlier hid hb⟩
      refine (ih nodup isOpen').imp id ?_
      rintro ⟨before, request, after, last, s, rfl, h⟩
      exact ⟨before, request, after ++ [r], last, s, by simp, h⟩
    · simp only [not_forall, not_exists] at old
      obtain ⟨new, hnew, absent⟩ := old
      have absent := Option.eq_none_iff_forall_ne_some.2 absent
      obtain ⟨b, hb, bOpen⟩ := isOpen new hnew
      obtain ⟨ctx, k, start, stop, _, txn, rfl, transition, hok, tables⟩ :=
        booked new b hb (Reservation.isOpenAt_iff.1 bOpen).1 absent
      have admits := transition.admits sound.linked hok nodup (tables ▸ isOpen) hnew absent
      obtain ⟨rfl, s, hs, hs', room⟩ := admits
      refine .inr ⟨rs, _, [], new, s, rfl, ⟨ctx, start, stop, rfl⟩, hnew, absent, fun id hid => ?_,
        hs, tables ▸ hs', room⟩
      obtain ⟨b, hb, -⟩ := isOpen id hid
      exact ⟨b, hb⟩

/-- Bookings of a sector that are open at one instant never exceed the places it had when the last
of them was admitted. -/
theorem openAt_le_maxPlaces (settings : Settings) (notifier : Notifier) (supply : Nat → Ulid)
    (obstructed : Bool) (rs : List Request) (sector : Ulid) (time : Ms) :
    let e := fresh settings notifier supply obstructed
    let bookings := (e.serve rs).tables.openAt sector time
    bookings = [] ∨ ∃ before request after last s,
      rs = before ++ request :: after ∧
      (∃ ctx start stop, request = .operation ctx (.book sector start stop)) ∧
      last ∈ bookings ∧ (e.serve before).tables.reservations.get? last.id = none ∧
      (∀ r ∈ bookings, ∃ r',
        (e.serve (before ++ [request])).tables.reservations.get? r.id = some r') ∧
      (e.serve before).tables.sectors.get? sector = some s ∧
      (e.serve (before ++ [request])).tables.sectors.get? sector =
        some { s with version := s.version + 1 } ∧
      bookings.length ≤ s.maxPlaces := by
  intro e bookings
  have sound : e.Sound [] := (Reachable.fresh settings notifier supply obstructed).sound
  obtain ⟨_, linked, -, -⟩ := sound.serve rs
  refine (sound.admitted (fun _ => rfl) rs (linked.openAt_nodup sector time)
    linked.exists_of_mem_openAt).imp List.map_eq_nil_iff.1 ?_
  rintro ⟨before, request, after, last, s, split, booking, hlast, absent, there, hs, hs', room⟩
  obtain ⟨r, hr, rfl⟩ := List.mem_map.1 hlast
  refine ⟨before, request, after, r, s, split, booking, hr, absent, fun b hb => ?_, hs, hs', ?_⟩
  · exact there b.id (List.mem_map_of_mem hb)
  · rwa [List.length_map] at room

end Engine

end Carpark
