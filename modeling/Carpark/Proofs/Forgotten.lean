import Carpark.Proofs.Alone
import Carpark.Proofs.Listings

/-!
A reservation that is forgotten. Its owner comes and goes so often that its gate log no longer fits
a frame; the log is compacted and opened anew, and the car that is inside is on a place of which
nothing is known.
-/

namespace Carpark

open Relation

/-! ### Coming and going -/

namespace Engine

/-- A sector with one place, and a booking for it. -/
def commuter : Engine :=
  (fresh {} .silent (fun n => .ofNat (n + 1)) false).serve [
    .operation ⟨.system, 0⟩ (.createParking ⟨"Rome", "00100", "Corso 1"⟩ none),
    .operation ⟨.system, 0⟩ (.addSector (.ofNat 1) ⟨"AB-01", .covered, 1, 1⟩),
    .operation ⟨.client (.ofNat 7), 0⟩
      (.book (.ofNat 2) Limits.earliest (Limits.earliest + hour))]

def commute (m : Nat) : Request :=
  .operation ⟨.client (.ofNat 7), Limits.earliest⟩
    (if m % 2 = 0 then .enter (.ofNat 3) else .exit (.ofNat 3) none false)

def commuting (m : Nat) : Engine := commuter.serve ((List.range m).map commute)

theorem commuting_succ (m : Nat) : commuting (m + 1) =
    ((commuting m).run ((commute m).program (commuting m).settings)).engine := by
  rw [commuting, List.range_succ, List.map_append, serve_append]
  rfl

theorem obstructed_run (e : Engine) (q : Request) :
    (e.run (q.program e.settings)).engine.store.log.obstructed = e.store.log.obstructed := by
  have kept {x y : Engine × List Commit} (h : ReflTransGen (Step e.settings q.may) x y) :
      y.1.store.log.obstructed = x.1.store.log.obstructed := by
    induction h with
    | refl => rfl
    | tail _ step ih => exact step.obstructed.trans ih
  exact kept (Program.Steps.request e.settings q e [])

theorem obstructed_serve (e : Engine) (rs : List Request) :
    (e.serve rs).store.log.obstructed = e.store.log.obstructed := by
  induction rs generalizing e with
  | nil => rfl
  | cons r rs ih => exact (ih _).trans (obstructed_run e r)

theorem commuting_obstructed (m : Nat) : (commuting m).store.log.obstructed = false :=
  (obstructed_serve _ _).trans (obstructed_serve _ _)

theorem commuting_reachable (m : Nat) : ∃ cs, (commuting m).Reachable cs := by
  obtain ⟨cs, reachable⟩ : ∃ cs, commuter.Reachable cs := (Reachable.fresh _ _ _ _).serve _
  exact reachable.serve _

end Engine

def Parking.commuted : Parking :=
  ⟨.ofNat 1, ⟨"Rome", "00100", "Corso 1"⟩, [.ofNat 2], .leastOccupied, 2⟩

def Sector.commuted (m : Nat) : Sector :=
  { ofSpec (.ofNat 2) (.ofNat 1) ⟨"AB-01", .covered, 1, 1⟩ with
    availablePlaces := 1 - m % 2, version := m + 2 }

def Reservation.commuted (code : Option String) (m : Nat) : Reservation :=
  ⟨.ofNat 3, some (.ofNat 7), .ofNat 1, .ofNat 2, ⟨Limits.earliest, Limits.earliest + hour⟩,
    .created, true, code, m + 1⟩

structure Tables.Commuted (t : Tables) (m : Nat) : Prop where
  parkings : t.parkings.entries = [(.ofNat 1, .commuted)]
  sector : t.sectors.get? (.ofNat 2) = some (.commuted m)
  row : ∃ code, t.reservations.get? (.ofNat 3) = some (.commuted code m)
  only : ∀ id r, t.reservations.get? id = some r → id = .ofNat 3
  events : (t.eventsOf (.ofNat 3)).length = m
  times : ∀ e ∈ t.eventsOf (.ofNat 3), e.time = Limits.earliest
  inside : isInside (t.eventsOf (.ofNat 3)) = decide (m % 2 = 1)

namespace Tables.Commuted

variable {t : Tables} {m : Nat}

theorem gate (h : t.Commuted m) (code : Option String) {e : GateEvent}
    (he : e.reservation = .ofNat 3 ∧ e.time = Limits.earliest)
    (kind : e.kind = if m % 2 = 0 then .entry else .exit) :
    (t.apply [.putSector (.commuted (m + 1)), .putReservation (.commuted code (m + 1)),
      .appendEvent e]).Commuted (m + 1) := by
  have events : (((t.putSector (.commuted (m + 1))).putReservation
      (.commuted code (m + 1))).addEvent e).eventsOf (.ofNat 3) =
        t.eventsOf (.ofNat 3) ++ [e] := by
    rw [eventsOf_addEvent, if_pos he.1.symm, eventsOf_putReservation, eventsOf_putSector]
  have sid : (Sector.commuted (m + 1)).id = .ofNat 2 := rfl
  have rid : (Reservation.commuted code (m + 1)).id = .ofNat 3 := rfl
  rw [apply_gate]
  constructor
  · rw [parkings_addEvent, parkings_putReservation, parkings_putSector, h.parkings]
  · simp [sid]
  · exact ⟨code, by simp [rid]⟩
  · intro id a ha
    rw [reservations_addEvent, reservations_putReservation, reservations_putSector, rid,
      Table.get?_insert] at ha
    split at ha
    next same => exact same
    next => exact h.only id a ha
  · rw [events, List.length_append, h.events, List.length_singleton]
  · rw [events]
    exact List.forall_mem_append.2 ⟨h.times, List.forall_mem_singleton.2 he.2⟩
  · have next : (m + 1) % 2 = 1 ↔ m % 2 = 0 := by omega
    rw [events, isInside_append, kind]
    by_cases even : m % 2 = 0 <;> simp [even, next]

theorem parking (h : t.Commuted m) : t.parkings.get? (.ofNat 1) = some .commuted := by
  refine Table.mem_entries.1 ?_
  rw [h.parkings]
  exact List.mem_singleton_self _

theorem occupying (h : t.Commuted m) {code : Option String} :
    (Reservation.commuted code m).isOccupying (t.eventsOf (.ofNat 3)) = decide (m % 2 = 1) := by
  rw [Reservation.isOccupying, h.inside]
  rfl

end Tables.Commuted

namespace Engine

theorem commuted_transition {e : Engine} {m : Nat} (h : e.tables.Commuted m) {op : Operation}
    {ids : List Ulid} {s : Sector} {code code' : Option String} {event : GateEvent}
    (row : e.tables.reservations.get? (.ofNat 3) = some (.commuted code m))
    (transition : Transition e.settings ⟨.client (.ofNat 7), Limits.earliest⟩ e.tables op ids
      [.updateSector s, .updateReservation { Reservation.commuted code m with code := code' },
        .appendEvent event])
    (hop : ∀ parking anonymous, op ≠ .driveIn parking anonymous)
    (hids : ∀ i u, ids[i]? = some u → e.supply (e.drawn + i) = u)
    (hs : s = { Sector.commuted m with availablePlaces := 1 - (m + 1) % 2 })
    (he : event.reservation = .ofNat 3 ∧ event.time = Limits.earliest)
    (kind : event.kind = if m % 2 = 0 then .entry else .exit) :
    (e.run (op.program e.settings
      ⟨.client (.ofNat 7), Limits.earliest⟩)).engine.tables.Commuted (m + 1) := by
  subst hs
  have sector := h.sector
  have suits : ∀ c ∈ ([.updateSector { Sector.commuted m with availablePlaces := 1 - (m + 1) % 2 },
      .updateReservation { Reservation.commuted code m with code := code' },
      .appendEvent event] : Txn), c.suits e.tables := by
    simpa [Change.suits, Sector.commuted, Sector.ofSpec, Reservation.commuted] using
      ⟨⟨_, sector, rfl⟩, ⟨_, row, rfl⟩⟩
  obtain ⟨-, tables, -⟩ := run_transition transition hop suits hids
  rw [tables]
  exact h.gate code' he kind

theorem commuted_run {e : Engine} {m : Nat} (h : e.tables.Commuted m) :
    (e.run ((commute m).program e.settings)).engine.tables.Commuted (m + 1) := by
  obtain ⟨code, row⟩ := h.row
  rcases Nat.mod_two_eq_zero_or_one m with even | odd
  · have free : (Sector.commuted m).canTake Limits.earliest = true := by
      simp [Sector.canTake, Sector.commuted, even, Sector.ofSpec, Sector.isActiveAt]
    have transition : Transition e.settings ⟨.client (.ofNat 7), Limits.earliest⟩ e.tables
        (.enter (.ofNat 3)) [e.supply e.drawn, e.supply (e.drawn + 1)] _ :=
      .enter row rfl rfl (by rw [h.occupying, even]; rfl) (Int.le_refl _)
        (show Limits.earliest ≤ Limits.earliest + hour by decide) h.sector
        (Sector.takePlace_eq_ok.2 ⟨free, rfl⟩)
    rw [commute, if_pos even]
    refine commuted_transition h row transition (by simp) ?_ ?_ ⟨rfl, rfl⟩ (if_pos even).symm
    · rintro (_ | _ | _) u hu <;> cases hu <;> rfl
    · have next : (m + 1) % 2 = 1 := by omega
      simp [Sector.commuted, even, next]
  · have full : (Sector.commuted m).availablePlaces < (Sector.commuted m).maxPlaces := by
      simp [Sector.commuted, odd, Sector.ofSpec]
    have transition : Transition e.settings ⟨.client (.ofNat 7), Limits.earliest⟩ e.tables
        (.exit (.ofNat 3) none false) [e.supply e.drawn] _ :=
      .exit row rfl rfl (by rw [h.occupying, odd]; rfl) h.sector
        (Sector.freePlace_eq_ok.2 ⟨full, rfl⟩)
    have out : ¬ m % 2 = 0 := by omega
    rw [commute, if_neg out]
    refine commuted_transition h row transition (by simp) ?_ ?_ ⟨rfl, rfl⟩ (if_neg out).symm
    · simp [List.getElem?_singleton]
    · have next : (m + 1) % 2 = 0 := by omega
      simp [Sector.commuted, odd, next]

set_option maxRecDepth 10000 in
theorem commuting_commuted (m : Nat) : (commuting m).tables.Commuted m := by
  induction m with
  | zero =>
    have keys : (commuting 0).tables.reservations.entries.map Prod.fst = [.ofNat 3] := by decide
    refine ⟨rfl, by decide, ⟨none, by decide⟩, fun id r hr => ?_, by decide, by decide, by decide⟩
    have mem := List.mem_map_of_mem (f := Prod.fst) (Table.mem_entries.2 hr)
    rw [keys] at mem
    exact List.mem_singleton.1 mem
  | succ m ih => exact commuting_succ m ▸ commuted_run ih

end Engine

/-! ### Too long for a frame -/

namespace Tables

variable {t : Tables} {m : Nat} {code : Option String}

theorem Commuted.parkingCommit (h : t.Commuted m) : t.parkingCommit .commuted =
    [.putParking .commuted, .putSector (.commuted m)] := by
  have sectors : t.sectorsOf .commuted = [.commuted m] := by
    rw [sectorsOf, Parking.commuted, List.filterMap_cons_some h.sector]
    rfl
  rw [Tables.parkingCommit, sectors]
  rfl

theorem Commuted.snapshot (h : t.Commuted m)
    (row : t.reservations.get? (.ofNat 3) = some (.commuted code m)) :
    t.snapshot = [t.parkingCommit .commuted] ++ [t.reservationCommit (.commuted code m)] := by
  have others : (t.reservations.erase (.ofNat 3)).values = [] := by
    refine List.eq_nil_iff_forall_not_mem.2 fun r hr => ?_
    obtain ⟨id, hr⟩ := Table.mem_values.1 hr
    rw [Table.get?_erase] at hr
    split at hr
    next => cases hr
    next other => exact other (h.only id r hr)
  have reservations := Table.values_perm_erase row
  rw [others, List.perm_singleton] at reservations
  rw [Tables.snapshot, Table.values, h.parkings, reservations]
  rfl

theorem Commuted.length_reservationCommit (h : t.Commuted m) (ht : t.Slight)
    (row : t.reservations.get? (.ofNat 3) = some (.commuted code m)) :
    m * 85 ≤ (Binary.commit (t.reservationCommit (.commuted code m))).length ∧
      (Binary.commit (t.reservationCommit (.commuted code m))).length ≤ 30008 + m * 241 := by
  let events := (t.eventsOf (.ofNat 3)).map Write.appendEvent
  have count : events.length = m := by rw [List.length_map, h.events]
  have form (w : Write) (hw : w ∈ events) :
      85 ≤ (Binary.write w).length ∧ (Binary.write w).length ≤ 241 := by
    obtain ⟨e, -, rfl⟩ := List.mem_map.1 hw
    have least := Binary.le_length_event e
    have most := Binary.length_event_le e
    rw [Binary.write, List.length_append, Binary.length_nat]
    omega
  have least := Binary.le_length_flatMap fun w hw => (form w hw).1
  have most := Binary.length_flatMap_le fun w hw => (form w hw).2
  have first := (ht.reservation row).length_le
  rw [count] at least most
  have length : (Binary.commit (t.reservationCommit (.commuted code m))).length =
      8 + ((Binary.write (.putReservation (.commuted code m))).length +
        (events.flatMap Binary.write).length) := by
    rw [reservationCommit, Binary.commit, Binary.length_list, List.flatMap_cons,
      List.length_append]
    rfl
  omega

theorem Commuted.fits (h : t.Commuted m) (ht : t.Slight) (hm : m < 2 ^ 32)
    (row : t.reservations.get? (.ofNat 3) = some (.commuted code m)) :
    Commit.Fits (t.parkingCommit .commuted) ∧
      Commit.Fits (t.reservationCommit (.commuted code m)) := by
  constructor
  · rw [h.parkingCommit]
    have sector : (Sector.commuted m).Fits :=
      ⟨show Binary.FitsText "AB-01" by decide, show 1 < 2 ^ 32 by decide,
        Nat.lt_of_le_of_lt (Nat.sub_le 1 _) (by decide), show 1 < 2 ^ 32 by decide,
        nofun, Nat.add_lt_of_lt_sub (Nat.lt_of_lt_of_le hm (by decide))⟩
    exact ⟨Nat.lt_of_lt_of_le (by decide : 2 < 3) (by decide), List.forall_mem_cons.2
      ⟨show Parking.commuted.Fits by decide, List.forall_mem_singleton.2 sector⟩⟩
  · have reservation : (Reservation.commuted code m).Fits := by
      refine ⟨show Binary.FitsInt Limits.earliest by decide,
        show Binary.FitsInt (Limits.earliest + hour) by decide, fun c hc => ?_, ?_⟩
      · have short : c.length ≤ 8 := ht.reservation row c hc
        have size := Text.utf8ByteSize_le c
        exact Nat.lt_of_le_of_lt size (by omega)
      · exact Nat.add_lt_of_lt_sub (Nat.lt_of_lt_of_le hm (by decide))
    refine ⟨?_, List.forall_mem_cons.2 ⟨reservation, List.forall_mem_map.2 fun e he => ?_⟩⟩
    · change ((t.eventsOf (.ofNat 3)).map Write.appendEvent).length + 1 < 2 ^ 64
      rw [List.length_map, h.events]
      omega
    · change Binary.FitsInt e.time
      rw [h.times e he]
      decide

end Tables

namespace Engine

variable {e : Engine}

theorem run_compact (h : e.store.log.obstructed = false) (cs : List Commit) :
    (e.run (Request.compact.program e.settings)).engine.tables = e.tables ∧
      e.logged cs (Request.compact.program e.settings) = e.tables.snapshot := by
  constructor
  · change e.store.compact.2.tables = e.tables
    rfl
  · change e.store.compacted cs = e.tables.snapshot
    rw [Store.compacted, if_neg (by simp [h])]
    rfl

/-- An engine whose log is opened without the reservation of the car that is inside. -/
structure Bereft (e : Engine) (cs kept : List Commit) (store : Store) : Prop where
  reachable : e.Reachable cs
  opened : e.Reopens cs store kept
  parking : e.tables.parkings.get? (.ofNat 1) = some .commuted
  sector : ∃ s, e.tables.sectors.get? (.ofNat 2) = some s ∧ s.parking = .ofNat 1 ∧
    s.maxPlaces = 1 ∧ s.availablePlaces = 0
  car : ∃ r, e.tables.Forgets r store.tables ∧ r.sector = .ofNat 2 ∧
    r.isOccupying (e.tables.eventsOf r.id) = true
  none : ∀ id, store.tables.reservations.get? id = .none

theorem exists_bereft {n : Nat} (odd : n % 2 = 1) (large : Frame.mostBytes < n * 85)
    (hlt : 30008 + n * 241 < 2 ^ 32) : ∃ e cs kept store, Bereft e cs kept store := by
  obtain ⟨cs, reachable⟩ := commuting_reachable n
  have commuted := commuting_commuted n
  obtain ⟨code, row⟩ := commuted.row
  obtain ⟨tables, logged⟩ := run_compact (commuting_obstructed n) cs
  have compacted := reachable.asked .compact
  rw [logged, commuted.snapshot row] at compacted
  have slight := reachable.sound.slight
  obtain ⟨fits, fits'⟩ := commuted.fits slight (by omega) row
  obtain ⟨least, most⟩ := commuted.length_reservationCommit slight row
  have parking : (Binary.commit ((commuting n).tables.parkingCommit .commuted)).length ≤
      Frame.mostBytes :=
    (slight.parkingCommit commuted.parking).length_le
  have opened := compacted.sound.reopens_cut
    (List.forall_mem_append.2
      ⟨List.forall_mem_singleton.2 fits, List.forall_mem_singleton.2 fits'⟩)
    (List.forall_mem_singleton.2 parking) (Nat.lt_of_lt_of_le large least)
    (Nat.lt_of_le_of_lt most hlt) false
  rcases compacted.sound.reopens_cases opened with ⟨same, -⟩ | ⟨r, last, -, forgets⟩
  · simp at same
  · cases (List.append_inj' last rfl).2
    refine ⟨_, _, _, _, compacted, opened, ?_, ⟨.commuted n, ?_, rfl, rfl, ?_⟩,
      ⟨_, forgets, rfl, ?_⟩, fun id => ?_⟩
    · rw [tables]
      exact commuted.parking
    · rw [tables]
      exact commuted.sector
    · change 1 - n % 2 = 0
      omega
    · rw [tables]
      exact commuted.occupying.trans (decide_eq_true odd)
    · refine Option.eq_none_iff_forall_ne_some.2 fun r hr => ?_
      obtain ⟨other, hr⟩ := forgets.get?_reservation.1 hr
      exact other (commuted.only id r (tables ▸ hr))

/-- The ledger has a place taken, and the gate log has no car. -/
theorem place_lost : ∃ (e : Engine) (cs : List Commit) (k : Ulid) (s : Sector), e.Reachable cs ∧
    e.tables.sectors.get? k = some s ∧ s.maxPlaces - s.availablePlaces = 1 ∧
    e.tables.inside k = 0 ∧
    (e.run (Request.program e.settings (.occupancy k))).answer = .ok (.number 0) := by
  obtain ⟨e, cs, kept, store, bereft⟩ := exists_bereft (n := 789517) rfl (by decide) (by decide)
  obtain ⟨s, hs, -, most, free⟩ := bereft.sector
  obtain ⟨r, forgets, -, -⟩ := bereft.car
  have reachable := bereft.reachable.reopened bereft.opened {} .silent .ofNat
  have sector : store.tables.sectors.get? (.ofNat 2) = some s := forgets.sectors ▸ hs
  have empty : store.tables.inside (.ofNat 2) = 0 :=
    Table.countP_eq_zero_of fun id r hr => by cases (bereft.none id).symm.trans hr
  have answer : ((ofStore {} .silent .ofNat store).run
      (Request.program {} (.occupancy (.ofNat 2)))).answer = _ :=
    answer_occupancy reachable.linked.toIndexed sector
  rw [show (ofStore {} .silent .ofNat store).tables.inside (.ofNat 2) = 0 from empty] at answer
  exact ⟨_, kept, .ofNat 2, s, reachable, sector, by rw [most, free], empty, answer⟩

/-- A sector is deleted on which a reservation was made. -/
theorem deleted_with_history : ∃ (e e' : Engine) (cs cs' : List Commit) (r : Reservation)
    (q : Request), e.Reachable cs ∧ e.Becomes cs e' cs' ∧
      e.tables.reservations.get? r.id = some r ∧ (e'.tables.sectors.get? r.sector).isSome = true ∧
      (∃ a, (e'.run (q.program e'.settings)).answer = .ok a) ∧
      (e'.run (q.program e'.settings)).engine.tables.sectors.get? r.sector = none := by
  obtain ⟨e, cs, kept, store, bereft⟩ := exists_bereft (n := 789517) rfl (by decide) (by decide)
  obtain ⟨s, hs, parking, -, -⟩ := bereft.sector
  obtain ⟨r, forgets, place, -⟩ := bereft.car
  let e' := ofStore {} .silent .ofNat store
  have reachable : e'.Reachable kept := bereft.reachable.reopened bereft.opened {} .silent .ofNat
  have sector : e'.tables.sectors.get? (.ofNat 2) = some s := forgets.sectors ▸ hs
  have unused : e'.tables.hasHistory (.ofNat 2) = false := by
    refine Tables.hasHistory_eq_false.2 (List.eq_nil_iff_forall_not_mem.2 fun id listed => ?_)
    obtain ⟨r, hr, -⟩ := reachable.linked.bySector.1 listed
    cases (bereft.none id).symm.trans hr
  have transition : Transition {} ⟨.system, 0⟩ e'.tables
      (.deleteSector (.ofNat 2) s.version) [] _ :=
    .deleteSector rfl sector (by simp [requireVersion]) unused
      (parking ▸ forgets.parkings ▸ bereft.parking)
  have sid : s.id = .ofNat 2 := reachable.linked.sector_id sector
  have row : e'.tables.parkings.get? (.ofNat 1) = some .commuted :=
    forgets.parkings ▸ bereft.parking
  have suits : ∀ c ∈ ([.updateParking
      { Parking.commuted with sectors := Parking.commuted.sectors.filter (· ≠ .ofNat 2) },
      .deleteSector s] : Txn), c.suits e'.tables := by
    refine List.forall_mem_cons.2 ⟨⟨_, row, rfl⟩, List.forall_mem_singleton.2 ?_⟩
    exact ⟨s, sid ▸ sector, rfl⟩
  obtain ⟨answer, tables, -⟩ := run_transition transition (by simp) suits (by simp)
  refine ⟨e, e', cs, kept, r, .operation ⟨.system, 0⟩ (.deleteSector (.ofNat 2) s.version),
    bereft.reachable, .reopened _ _ _ .here bereft.opened trivial, forgets.row, ?_, answer, ?_⟩
  · rw [place, sector]
    rfl
  · rw [place]
    change (e'.run ((Operation.deleteSector (.ofNat 2) s.version).program {}
      ⟨.system, 0⟩)).engine.tables.sectors.get? (.ofNat 2) = none
    rw [tables]
    change (e'.tables.sectors.erase s.id).get? (.ofNat 2) = none
    rw [sid, Table.get?_erase, if_pos rfl]

end Engine

end Carpark
