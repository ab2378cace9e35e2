import Carpark.Proofs.Writes

/-!
The rows of the tables refer to each other without a dangling end, and the indexes say what the
rows say. Each kind of commit keeps it so.
-/

namespace Carpark.Tables

/-- Rows stand under their own identifiers, and the indexes say what the rows say. -/
structure Indexed (t : Tables) : Prop where
  parking_id : ∀ {id p}, t.parkings.get? id = some p → p.id = id
  sector_id : ∀ {id s}, t.sectors.get? id = some s → s.id = id
  reservation_id : ∀ {id r}, t.reservations.get? id = some r → r.id = id
  address : ∀ {key id}, t.addresses.get? key = some id ↔
    ∃ p, t.parkings.get? id = some p ∧ p.address.key = key
  bySector : ∀ {k id}, id ∈ t.bySector.getList k ↔
    ∃ r, t.reservations.get? id = some r ∧ r.sector = k
  bySector_nodup : ∀ k, (t.bySector.getList k).Nodup
  byClient : ∀ {c id}, id ∈ t.byClient.getList c ↔
    ∃ r, t.reservations.get? id = some r ∧ r.client = some c
  byClient_nodup : ∀ c, (t.byClient.getList c).Nodup

/-- No row refers to one that is not there. -/
structure Linked (t : Tables) : Prop extends Indexed t where
  sectors_nodup : ∀ {id p}, t.parkings.get? id = some p → p.sectors.Nodup
  listed : ∀ {id p k}, t.parkings.get? id = some p →
    (k ∈ p.sectors ↔ ∃ s, t.sectors.get? k = some s ∧ s.parking = id)
  owned : ∀ {id s}, t.sectors.get? id = some s → ∃ p, t.parkings.get? s.parking = some p
  placed : ∀ {id r}, t.reservations.get? id = some r →
    ∃ s, t.sectors.get? r.sector = some s ∧ s.parking = r.parking
  events : ∀ {id e}, e ∈ t.eventsOf id →
    e.reservation = id ∧ ∃ r, t.reservations.get? id = some r

/-! ### Indexes -/

namespace Indexed

theorem empty : Tables.empty.Indexed := by
  constructor <;> simp [Tables.empty, Table.getList]

variable {t : Tables}

theorem putParking (h : t.Indexed) {p : Parking}
    (haddress : ∀ o, t.addresses.get? p.address.key = some o → o = p.id) :
    (t.putParking p).Indexed := by
  refine { h with parking_id := ?_, address := ?_ }
  · intro id q hq
    simp only [parkings_putParking, Table.get?_insert] at hq
    split at hq
    next hid =>
      cases hq
      exact hid.symm
    next => exact h.parking_id hq
  · intro key id
    rw [addresses_putParking, parkings_putParking, Table.get?_insert]
    by_cases hid : id = p.id
    · have hold : t.addresses.get? key = some p.id →
          (t.parkings.get? p.id).any (·.address.key = key) = true := by
        intro hkey
        obtain ⟨q, hq, hqkey⟩ := h.address.1 hkey
        simp [hq, hqkey]
      grind
    · have hother : (∃ q, t.parkings.get? id = some q ∧ q.address.key = key) →
          key ≠ p.address.key ∧ (t.parkings.get? p.id).any (·.address.key = key) = false := by
        intro hq
        have hkey := h.address.2 hq
        refine ⟨fun e => hid (haddress id (e ▸ hkey)), Bool.eq_false_iff.2 fun hany => ?_⟩
        obtain ⟨old, hold, hkey'⟩ := (Option.any_eq_true _ _).1 hany
        have := h.address.2 ⟨old, hold, of_decide_eq_true hkey'⟩
        rw [hkey, Option.some.injEq] at this
        exact hid this
      simp only [hid, if_false]
      rw [← @h.address key id] at hother ⊢
      grind

theorem putSector (h : t.Indexed) (s : Sector) : (t.putSector s).Indexed := by
  refine { h with sector_id := ?_ }
  intro k s' hs'
  simp only [sectors_putSector, Table.get?_insert] at hs'
  split at hs'
  next hk =>
    cases hs'
    exact hk.symm
  next => exact h.sector_id hs'

theorem addEvent (h : t.Indexed) (e : GateEvent) : (t.addEvent e).Indexed := { h with }

theorem putReservation (h : t.Indexed) {r : Reservation}
    (hsame : ∀ old, t.reservations.get? r.id = some old →
      r.sector = old.sector ∧ r.client = old.client) : (t.putReservation r).Indexed := by
  have hgot {id : Ulid} (hnew : t.reservations.get? r.id = none) (k : Ulid) :
      id ∈ t.bySector.getList k → id ≠ r.id := by
    intro hmem
    obtain ⟨r', hr', -⟩ := h.bySector.1 hmem
    rintro rfl
    cases hnew.symm.trans hr'
  have hgot' {id : Ulid} (hnew : t.reservations.get? r.id = none) (c : Ulid) :
      id ∈ t.byClient.getList c → id ≠ r.id := by
    intro hmem
    obtain ⟨r', hr', -⟩ := h.byClient.1 hmem
    rintro rfl
    cases hnew.symm.trans hr'
  constructor
  · simpa using @h.parking_id
  · simpa using @h.sector_id
  · intro id r' hr'
    simp only [reservations_putReservation, Table.get?_insert] at hr'
    split at hr'
    next hid =>
      cases hr'
      exact hid.symm
    next => exact h.reservation_id hr'
  · simpa using @h.address
  · intro k id
    have := @h.bySector k id
    simp only [bySector_putReservation, reservations_putReservation, Table.get?_insert]
    cases hold : t.reservations.get? r.id with
    | none => grind
    | some old => grind
  · intro k
    simp only [bySector_putReservation]
    split
    next hnew => exact List.nodup_append.2 ⟨h.bySector_nodup k, by simp, by grind⟩
    next => exact h.bySector_nodup k
  · intro c id
    have := @h.byClient c id
    simp only [byClient_putReservation, reservations_putReservation, Table.get?_insert]
    cases hold : t.reservations.get? r.id with
    | none => grind
    | some old => grind
  · intro c
    simp only [byClient_putReservation]
    split
    next hnew => exact List.nodup_append.2 ⟨h.byClient_nodup c, by simp, by grind⟩
    next => exact h.byClient_nodup c

theorem map_id_values (h : t.Indexed) :
    t.reservations.values.map (·.id) = t.reservations.keys := by
  rw [Table.values, Table.keys, List.map_map]
  exact List.map_congr_left fun e he => h.reservation_id (Table.mem_entries.1 he)

theorem get?_of_mem_values (h : t.Indexed) {r : Reservation} (hr : r ∈ t.reservations.values) :
    t.reservations.get? r.id = some r := by
  obtain ⟨id, hid⟩ := Table.mem_values.1 hr
  exact h.reservation_id hid ▸ hid

theorem map_reservationsOfSector (h : t.Indexed) (k : Ulid) :
    (t.reservationsOfSector k).map (·.id) = t.bySector.getList k := by
  refine Table.map_filterMap fun id hid => ?_
  obtain ⟨r, hr, -⟩ := h.bySector.1 hid
  exact ⟨r, hr, h.reservation_id hr⟩

theorem reservationsOfSector_perm (h : t.Indexed) (k : Ulid) :
    (t.reservationsOfSector k).Perm (t.reservations.values.filter (·.sector = k)) := by
  rw [List.perm_ext_iff_of_nodup
    (Table.nodup_of_map (h.map_reservationsOfSector k ▸ h.bySector_nodup k))
    ((Table.nodup_of_map (h.map_id_values ▸ t.reservations.keys_nodup)).filter _)]
  intro r
  simp only [reservationsOfSector, List.mem_filterMap, List.mem_filter, decide_eq_true_eq]
  constructor
  · rintro ⟨id, hid, hr⟩
    obtain ⟨r', hr', hk⟩ := h.bySector.1 hid
    cases hr.symm.trans hr'
    exact ⟨Table.mem_values.2 ⟨id, hr⟩, hk⟩
  · rintro ⟨hr, hk⟩
    have row := h.get?_of_mem_values hr
    exact ⟨r.id, h.bySector.2 ⟨r, row, hk⟩, row⟩

end Indexed

/-! ### References -/

namespace Linked

theorem empty : Tables.empty.Linked := by
  refine ⟨Indexed.empty, ?_, ?_, ?_, ?_, ?_⟩ <;> simp [Tables.empty, eventsOf, Table.getList]

variable {t : Tables}

theorem addEvent (h : t.Linked) {e : GateEvent} {r : Reservation}
    (hr : t.reservations.get? e.reservation = some r) : (t.addEvent e).Linked := by
  refine { h with events := ?_ }
  intro id e' he'
  rw [eventsOf_addEvent] at he'
  split at he'
  next hid =>
    rcases List.mem_append.1 he' with he' | he'
    · exact h.events he'
    · obtain rfl := List.mem_singleton.1 he'
      exact ⟨hid.symm, r, hid ▸ hr⟩
  next => exact h.events he'

theorem putSector (h : t.Linked) {s old : Sector} (hold : t.sectors.get? s.id = some old)
    (hs : s.parking = old.parking) : (t.putSector s).Linked := by
  have get (k : Ulid) (P : Sector → Prop) (hP : P s ↔ P old) :
      (∃ s', (t.putSector s).sectors.get? k = some s' ∧ P s') ↔
        ∃ s', t.sectors.get? k = some s' ∧ P s' := by
    simp only [sectors_putSector, Table.get?_insert]
    split
    next hk =>
      subst hk
      simp [hold, hP]
    next => rfl
  refine { h.toIndexed.putSector s, h with listed := ?_, owned := ?_, placed := ?_ }
  · intro id p k hp
    rw [get k (·.parking = id) (by rw [hs])]
    exact h.listed hp
  · intro k s' hs'
    simp only [sectors_putSector, Table.get?_insert] at hs'
    split at hs'
    next hk =>
      cases hs'
      rw [hs]
      exact h.owned hold
    next => exact h.owned hs'
  · intro id r hr
    rw [get r.sector (·.parking = r.parking) (by rw [hs])]
    exact h.placed hr

theorem putParking (h : t.Linked) {p : Parking}
    (hsectors : p.sectors = ((t.parkings.get? p.id).map (·.sectors)).getD [])
    (haddress : ∀ o, t.addresses.get? p.address.key = some o → o = p.id) :
    (t.putParking p).Linked := by
  refine { h.toIndexed.putParking haddress, h with
    sectors_nodup := ?_, listed := ?_, owned := ?_ }
  · intro id q hq
    simp only [parkings_putParking, Table.get?_insert] at hq
    split at hq
    next hid =>
      cases hq
      rw [hsectors]
      cases hp : t.parkings.get? p.id with
      | none => exact .nil
      | some old => exact h.sectors_nodup hp
    next => exact h.sectors_nodup hq
  · intro id q k hq
    simp only [parkings_putParking, Table.get?_insert] at hq
    split at hq
    next hid =>
      cases hq
      rw [hsectors]
      cases hp : t.parkings.get? p.id with
      | some old => exact hid ▸ h.listed hp
      | none =>
        refine ⟨fun hk => (List.not_mem_nil hk).elim, ?_⟩
        rintro ⟨s, hs, hsid⟩
        obtain ⟨q, hq⟩ := h.owned hs
        rw [hsid, hid, hp] at hq
        cases hq
    next => exact h.listed hq
  · intro id s hs
    obtain ⟨q, hq⟩ := h.owned hs
    simp only [parkings_putParking, Table.get?_insert]
    split
    next => exact ⟨p, rfl⟩
    next => exact ⟨q, hq⟩

theorem putReservation (h : t.Linked) {r : Reservation}
    (hsame : ∀ old, t.reservations.get? r.id = some old →
      r.sector = old.sector ∧ r.client = old.client)
    (hplaced : ∃ s, t.sectors.get? r.sector = some s ∧ s.parking = r.parking) :
    (t.putReservation r).Linked := by
  refine { h.toIndexed.putReservation hsame with
    sectors_nodup := ?_, listed := ?_, owned := ?_, placed := ?_, events := ?_ }
  · simpa using @h.sectors_nodup
  · simpa using @h.listed
  · simpa using @h.owned
  · intro id r' hr'
    simp only [reservations_putReservation, Table.get?_insert, sectors_putReservation] at hr' ⊢
    split at hr'
    next hid =>
      cases hr'
      exact hplaced
    next => exact h.placed hr'
  · intro id e he
    rw [eventsOf_putReservation] at he
    obtain ⟨he, r', hr'⟩ := h.events he
    refine ⟨he, ?_⟩
    simp only [reservations_putReservation, Table.get?_insert]
    split
    next => exact ⟨r, rfl⟩
    next => exact ⟨r', hr'⟩

theorem changeReservation (h : t.Linked) {r old : Reservation}
    (hold : t.reservations.get? r.id = some old) (hsector : r.sector = old.sector)
    (hparking : r.parking = old.parking) (hclient : r.client = old.client) :
    (t.putReservation r).Linked := by
  refine h.putReservation (fun old' hold' => ?_) ?_
  · cases hold.symm.trans hold'
    exact ⟨hsector, hclient⟩
  · rw [hsector, hparking]
    exact h.placed hold

theorem newReservation (h : t.Linked) {r : Reservation} {s : Sector}
    (hnew : t.reservations.get? r.id = none) (hs : t.sectors.get? r.sector = some s)
    (hparking : r.parking = s.parking) : (t.putReservation r).Linked :=
  h.putReservation (fun old hold => by cases hnew.symm.trans hold) ⟨s, hs, hparking.symm⟩

theorem gate (h : t.Linked) {s old : Sector} {r before : Reservation} {e : GateEvent}
    (hs : t.sectors.get? s.id = some old) (hsp : s.parking = old.parking)
    (hr : t.reservations.get? r.id = some before) (hsector : r.sector = before.sector)
    (hparking : r.parking = before.parking) (hclient : r.client = before.client)
    (he : e.reservation = r.id) :
    (t.apply [.putSector s, .putReservation r, .appendEvent e]).Linked := by
  rw [apply_gate]
  refine ((h.putSector hs hsp).changeReservation hr hsector hparking hclient).addEvent (r := r) ?_
  simp [he]

theorem driveIn (h : t.Linked) {s old : Sector} {r : Reservation} {e : GateEvent}
    (hs : t.sectors.get? s.id = some old) (hsp : s.parking = old.parking)
    (hnew : t.reservations.get? r.id = none) (hsector : r.sector = s.id)
    (hparking : r.parking = s.parking) (he : e.reservation = r.id) :
    (t.apply [.putSector s, .putReservation r, .appendEvent e]).Linked := by
  rw [apply_gate]
  have there : (t.putSector s).sectors.get? r.sector = some s := by simp [hsector]
  refine ((h.putSector hs hsp).newReservation hnew there hparking).addEvent (r := r) ?_
  simp [he]

theorem addSector (h : t.Linked) {p p' : Parking} {s : Sector}
    (hp : t.parkings.get? s.parking = some p) (hnew : t.sectors.get? s.id = none)
    (hid : p'.id = s.parking) (haddress : p'.address = p.address)
    (hsectors : p'.sectors = p.sectors ++ [s.id]) : ((t.putParking p').putSector s).Linked := by
  have unlisted : s.id ∉ p.sectors := by
    intro hmem
    obtain ⟨s', hs', -⟩ := (h.listed hp).1 hmem
    rw [hnew] at hs'
    cases hs'
  refine { h with
    parking_id := ?_, sector_id := ?_, address := ?_, sectors_nodup := ?_, listed := ?_
    owned := ?_, placed := ?_ }
  · intro id q hq
    have := @h.parking_id id q
    simp only [parkings_putSector, parkings_putParking, Table.get?_insert] at hq
    grind
  · intro id s' hs'
    have := @h.sector_id id s'
    simp only [sectors_putSector, sectors_putParking, Table.get?_insert] at hs'
    grind
  · intro key id
    rw [addresses_putSector, addresses_putParking, parkings_putSector, parkings_putParking,
      Table.get?_insert, hid, hp, haddress]
    have hkey := @h.address p.address.key s.parking
    have := @h.address key id
    grind
  · intro id q hq
    simp only [parkings_putSector, parkings_putParking, Table.get?_insert] at hq
    split at hq
    next =>
      cases hq
      rw [hsectors]
      exact List.nodup_append.2 ⟨h.sectors_nodup hp, by simp, by grind⟩
    next => exact h.sectors_nodup hq
  · intro id q k hq
    simp only [parkings_putSector, parkings_putParking, sectors_putSector, sectors_putParking,
      Table.get?_insert] at hq ⊢
    have := @h.listed id q k
    have := @h.listed _ p k hp
    grind
  · intro id s' hs'
    simp only [parkings_putSector, parkings_putParking, sectors_putSector, sectors_putParking,
      Table.get?_insert] at hs' ⊢
    have := @h.owned id s'
    grind
  · intro id r hr
    simp only [sectors_putSector, sectors_putParking, Table.get?_insert]
    have := h.placed hr
    grind

theorem deleteSector (h : t.Linked) {p p' : Parking} {s : Sector}
    (hs : t.sectors.get? s.id = some s) (hp : t.parkings.get? s.parking = some p)
    (hunused : t.bySector.getList s.id = []) (hid : p'.id = s.parking)
    (haddress : p'.address = p.address) (hsectors : p'.sectors = p.sectors.filter (· ≠ s.id)) :
    ((t.putParking p').deleteSector s.id).Linked := by
  refine { h with
    parking_id := ?_, sector_id := ?_, address := ?_, bySector := ?_, bySector_nodup := ?_
    sectors_nodup := ?_, listed := ?_, owned := ?_, placed := ?_ }
  · intro id q hq
    have := @h.parking_id id q
    simp only [parkings_deleteSector, parkings_putParking, Table.get?_insert] at hq
    grind
  · intro id s' hs'
    have := @h.sector_id id s'
    simp only [sectors_deleteSector, sectors_putParking, Table.get?_erase] at hs'
    grind
  · intro key id
    rw [addresses_deleteSector, addresses_putParking, parkings_deleteSector, parkings_putParking,
      Table.get?_insert, hid, hp, haddress]
    have hkey := @h.address p.address.key s.parking
    have := @h.address key id
    grind
  · intro k id
    simp only [bySector_deleteSector, bySector_putParking, Table.getList_erase]
    have := @h.bySector k id
    simp only [reservations_deleteSector, reservations_putParking]
    grind
  · intro k
    simp only [bySector_deleteSector, bySector_putParking, Table.getList_erase]
    split
    next => exact .nil
    next => exact h.bySector_nodup k
  · intro id q hq
    simp only [parkings_deleteSector, parkings_putParking, Table.get?_insert] at hq
    split at hq
    next =>
      cases hq
      rw [hsectors]
      exact (h.sectors_nodup hp).filter _
    next => exact h.sectors_nodup hq
  · intro id q k hq
    simp only [parkings_deleteSector, parkings_putParking, sectors_deleteSector,
      sectors_putParking, Table.get?_insert, Table.get?_erase] at hq ⊢
    have := @h.listed id q k
    have := @h.listed _ p k hp
    grind
  · intro id s' hs'
    simp only [parkings_deleteSector, parkings_putParking, sectors_deleteSector,
      sectors_putParking, Table.get?_insert, Table.get?_erase] at hs' ⊢
    have := @h.owned id s'
    grind
  · intro id r hr
    simp only [reservations_deleteSector, reservations_putParking] at hr
    simp only [sectors_deleteSector, sectors_putParking, Table.get?_erase]
    have := h.placed hr
    have := @h.bySector r.sector id
    grind

theorem deleteParking (h : t.Linked) {p : Parking} (hp : t.parkings.get? p.id = some p)
    (hunused : ∀ k ∈ p.sectors, t.bySector.getList k = []) :
    ((p.sectors.foldl Tables.deleteSector t).deleteParking p.id).Linked := by
  rw [foldl_deleteSector]
  refine {
    parking_id := ?_, sector_id := ?_, reservation_id := ?_, address := ?_, bySector := ?_
    bySector_nodup := ?_, byClient := ?_, byClient_nodup := ?_, sectors_nodup := ?_
    listed := ?_, owned := ?_, placed := ?_, events := ?_ }
  · intro id q hq
    have := @h.parking_id id q
    simp only [parkings_deleteParking, Table.get?_erase] at hq
    grind
  · intro id s hs
    have := @h.sector_id id s
    simp only [sectors_deleteParking, Table.get?_foldl_erase] at hs
    grind
  · simpa using @h.reservation_id
  · intro key id
    simp only [addresses_deleteParking, parkings_deleteParking, Table.get?_erase, hp]
    have hkey := @h.address p.address.key p.id
    have := @h.address key id
    grind
  · intro k id
    simp only [bySector_deleteParking, reservations_deleteParking, Table.getList_foldl_erase]
    have := @h.bySector k id
    have := hunused k
    grind
  · intro k
    simp only [bySector_deleteParking, Table.getList_foldl_erase]
    split
    next => exact .nil
    next => exact h.bySector_nodup k
  · simpa using @h.byClient
  · simpa using h.byClient_nodup
  · intro id q hq
    have := @h.sectors_nodup id q
    simp only [parkings_deleteParking, Table.get?_erase] at hq
    grind
  · intro id q k hq
    simp only [parkings_deleteParking, sectors_deleteParking, Table.get?_erase,
      Table.get?_foldl_erase] at hq ⊢
    have := @h.listed id q k
    have := @h.listed _ p k hp
    grind
  · intro id s hs
    simp only [parkings_deleteParking, sectors_deleteParking, Table.get?_erase,
      Table.get?_foldl_erase] at hs ⊢
    have := @h.owned id s
    have := @h.listed _ p id hp
    grind
  · intro id r hr
    simp only [reservations_deleteParking] at hr
    simp only [sectors_deleteParking, Table.get?_foldl_erase]
    have := h.placed hr
    have := @h.bySector r.sector id
    have := hunused r.sector
    grind
  · intro id e he
    rw [eventsOf_deleteParking] at he
    simpa using h.events he

theorem eventsOf_eq_nil (h : t.Linked) {id : Ulid} (hid : t.reservations.get? id = none) :
    t.eventsOf id = [] := by
  refine List.eq_nil_iff_forall_not_mem.2 fun e he => ?_
  obtain ⟨-, r, hr⟩ := h.events he
  rw [hid] at hr
  cases hr

theorem map_sectorsOf (h : t.Linked) {id : Ulid} {p : Parking}
    (hp : t.parkings.get? id = some p) : (t.sectorsOf p).map (·.id) = p.sectors := by
  refine Table.map_filterMap fun k hk => ?_
  obtain ⟨s, hs, -⟩ := (h.listed hp).1 hk
  exact ⟨s, hs, h.sector_id hs⟩

end Linked

theorem hasHistory_eq_false {t : Tables} {k : Ulid} :
    t.hasHistory k = false ↔ t.bySector.getList k = [] := by
  simp [hasHistory]

end Carpark.Tables
