import Carpark.Proofs.Linked

/-!
The snapshot of tables describes them again, up to the order of the index lists.
-/

namespace Carpark

namespace Tables

/-- The same rows and gate logs, and in the indexes the same entries in whatever order. -/
structure Alike (t t' : Tables) : Prop where
  parkings : t.parkings = t'.parkings
  sectors : t.sectors = t'.sectors
  reservations : t.reservations = t'.reservations
  events : t.eventsOf = t'.eventsOf
  addresses : t.addresses = t'.addresses
  bySector : ∀ k, (t.bySector.getList k).Perm (t'.bySector.getList k)
  byClient : ∀ c, (t.byClient.getList c).Perm (t'.byClient.getList c)

namespace Alike

variable {t t' t'' : Tables}

theorem refl (t : Tables) : t.Alike t :=
  ⟨rfl, rfl, rfl, rfl, rfl, fun _ => .refl _, fun _ => .refl _⟩

theorem symm (h : t.Alike t') : t'.Alike t :=
  ⟨h.parkings.symm, h.sectors.symm, h.reservations.symm, h.events.symm, h.addresses.symm,
    fun k => (h.bySector k).symm, fun c => (h.byClient c).symm⟩

theorem trans (h : t.Alike t') (h' : t'.Alike t'') : t.Alike t'' :=
  ⟨h.parkings.trans h'.parkings, h.sectors.trans h'.sectors,
    h.reservations.trans h'.reservations, h.events.trans h'.events,
    h.addresses.trans h'.addresses, fun k => (h.bySector k).trans (h'.bySector k),
    fun c => (h.byClient c).trans (h'.byClient c)⟩

/-- Indexes say what the rows say. -/
theorem of_rows (h : t.Indexed) (h' : t'.Indexed) (parkings : t.parkings = t'.parkings)
    (sectors : t.sectors = t'.sectors) (reservations : t.reservations = t'.reservations)
    (events : t.eventsOf = t'.eventsOf) : t.Alike t' where
  parkings := parkings
  sectors := sectors
  reservations := reservations
  events := events
  addresses := by
    apply Table.ext
    intro key
    apply Option.ext
    intro id
    rw [h.address, h'.address, parkings]
  bySector k := by
    rw [List.perm_ext_iff_of_nodup (h.bySector_nodup k) (h'.bySector_nodup k)]
    intro id
    rw [h.bySector, h'.bySector, reservations]
  byClient c := by
    rw [List.perm_ext_iff_of_nodup (h.byClient_nodup c) (h'.byClient_nodup c)]
    intro id
    rw [h.byClient, h'.byClient, reservations]

theorem linked (h : t.Alike t') (ht : t.Linked) : t'.Linked where
  parking_id := by simpa [h.parkings] using @ht.parking_id
  sector_id := by simpa [h.sectors] using @ht.sector_id
  reservation_id := by simpa [h.reservations] using @ht.reservation_id
  address := by simpa [h.parkings, h.addresses] using @ht.address
  bySector := by
    intro k id
    rw [← (h.bySector k).mem_iff, ← h.reservations]
    exact ht.bySector
  bySector_nodup k := (h.bySector k).nodup (ht.bySector_nodup k)
  byClient := by
    intro c id
    rw [← (h.byClient c).mem_iff, ← h.reservations]
    exact ht.byClient
  byClient_nodup c := (h.byClient c).nodup (ht.byClient_nodup c)
  sectors_nodup := by simpa [h.parkings] using @ht.sectors_nodup
  listed := by simpa [h.parkings, h.sectors] using @ht.listed
  owned := by simpa [h.parkings, h.sectors] using @ht.owned
  placed := by simpa [h.reservations, h.sectors] using @ht.placed
  events := by simpa [h.events, h.reservations] using @ht.events

theorem write (h : t.Alike t') (w : Write) : (t.write w).Alike (t'.write w) := by
  obtain ⟨parkings, sectors, reservations, events, addresses, bySector, byClient⟩ := h
  have eventsOf (id : Ulid) : t.eventsOf id = t'.eventsOf id := congrFun events id
  constructor
  · cases w <;> simp [Tables.write, parkings]
  · cases w <;> simp [Tables.write, sectors]
  · cases w <;> simp [Tables.write, reservations]
  · cases w with
    | appendEvent e =>
      funext id
      simp [Tables.write, eventsOf_addEvent, eventsOf]
    | _ => simp [Tables.write, events]
  · apply Table.ext
    intro key
    cases w <;>
      simp [Tables.write, addresses_putParking, addresses_deleteParking, addresses, parkings]
  · intro k
    have := bySector k
    cases w with
    | putReservation r =>
      simp only [Tables.write, bySector_putReservation, reservations]
      split
      next => exact this.append_right _
      next => exact this
    | deleteSector id =>
      simp only [Tables.write, bySector_deleteSector, Table.getList_erase]
      split
      next => exact .refl _
      next => exact this
    | _ => simpa [Tables.write] using this
  · intro c
    have := byClient c
    cases w with
    | putReservation r =>
      simp only [Tables.write, byClient_putReservation, reservations]
      split
      next => exact this.append_right _
      next => exact this
    | _ => simpa [Tables.write] using this

theorem apply (h : t.Alike t') (c : Commit) : (t.apply c).Alike (t'.apply c) := by
  simp only [Tables.apply]
  generalize c.ordered = ws
  induction ws generalizing t t' with
  | nil => exact h
  | cons w ws ih => exact ih (h.write w)

end Alike

/-! ### Replaying a snapshot -/

def parkingCommit (t : Tables) (p : Parking) : Commit :=
  .putParking p :: (t.sectorsOf p).map .putSector

def reservationCommit (t : Tables) (r : Reservation) : Commit :=
  .putReservation r :: (t.eventsOf r.id).map .appendEvent

theorem apply_parkingCommit (t T : Tables) (p : Parking) :
    T.apply (t.parkingCommit p) = (t.sectorsOf p).foldl Tables.putSector (T.putParking p) := by
  rw [parkingCommit, apply_rows, List.foldl_cons, List.foldl_map]
  · rfl
  · intro w hw
    simp only [List.mem_cons, List.mem_map] at hw
    rcases hw with rfl | ⟨s, -, rfl⟩ <;> rfl

theorem apply_reservationCommit (t T : Tables) (r : Reservation) :
    T.apply (t.reservationCommit r) =
      ((t.eventsOf r.id).foldl Tables.addEvent T).putReservation r := by
  have ordered : (t.reservationCommit r).ordered =
      (t.eventsOf r.id).map .appendEvent ++ [.putReservation r] := by
    rw [reservationCommit]
    generalize t.eventsOf r.id = es
    have kept : (es.map Write.appendEvent).filter Write.isEvent = es.map .appendEvent :=
      List.filter_eq_self.2 fun w hw => by
        obtain ⟨e, -, rfl⟩ := List.mem_map.1 hw
        rfl
    have dropped : (es.map Write.appendEvent).filter (!·.isEvent) = [] :=
      List.filter_eq_nil_iff.2 fun w hw => by
        obtain ⟨e, -, rfl⟩ := List.mem_map.1 hw
        simp [Write.isEvent]
    rw [Commit.ordered, List.filter_cons_of_neg (by simp [Write.isEvent]), kept,
      List.filter_cons_of_pos (by simp [Write.isEvent]), dropped]
  rw [Tables.apply, ordered, List.foldl_append, List.foldl_map]
  rfl

theorem foldl_putSector (T : Tables) (ss : List Sector) :
    ss.foldl Tables.putSector T =
      { T with sectors := ss.foldl (fun acc s => acc.insert s.id s) T.sectors } := by
  induction ss generalizing T with
  | nil => rfl
  | cons s ss ih => exact ih _

theorem foldl_addEvent (T : Tables) (es : List GateEvent) :
    es.foldl Tables.addEvent T =
      { T with events := es.foldl (fun acc e => acc.push e.reservation e) T.events } := by
  induction es generalizing T with
  | nil => rfl
  | cons e es ih => exact ih _

theorem Indexed.foldl_putSector {T : Tables} (h : T.Indexed) (ss : List Sector) :
    (ss.foldl Tables.putSector T).Indexed := by
  induction ss generalizing T with
  | nil => exact h
  | cons s ss ih => exact ih (h.putSector s)

theorem Indexed.foldl_addEvent {T : Tables} (h : T.Indexed) (es : List GateEvent) :
    (es.foldl Tables.addEvent T).Indexed := by
  induction es generalizing T with
  | nil => exact h
  | cons e es ih => exact ih (h.addEvent e)

theorem eventsOf_foldl_addEvent (T : Tables) {es : List GateEvent} {id : Ulid}
    (hes : ∀ e ∈ es, e.reservation = id) (k : Ulid) :
    (es.foldl Tables.addEvent T).eventsOf k =
      if k = id then T.eventsOf k ++ es else T.eventsOf k := by
  induction es generalizing T with
  | nil => simp
  | cons e es ih =>
    have he := hes e List.mem_cons_self
    rw [List.foldl_cons, ih _ fun e' he' => hes e' (List.mem_cons_of_mem _ he'), eventsOf_addEvent,
      he]
    by_cases hk : k = id <;> simp [hk]

/-- Tables that hold a part of the rows of `t`. -/
structure PartOf (T t : Tables) : Prop extends Indexed T where
  parkings : ∀ {id p}, T.parkings.get? id = some p → t.parkings.get? id = some p
  reservations : ∀ {id r}, T.reservations.get? id = some r → t.reservations.get? id = some r

section

variable {t T : Tables}

theorem foldl_parkingCommit (ht : t.Linked) {ps : List Parking}
    (hps : ∀ p ∈ ps, t.parkings.get? p.id = some p) (hT : T.PartOf t) :
    let T' := (ps.map t.parkingCommit).foldl Tables.apply T
    T'.PartOf t ∧ T'.parkings = ps.foldl (fun acc p => acc.insert p.id p) T.parkings ∧
      T'.sectors = (ps.flatMap t.sectorsOf).foldl (fun acc s => acc.insert s.id s) T.sectors ∧
      T'.reservations = T.reservations ∧ T'.eventsOf = T.eventsOf := by
  induction ps generalizing T with
  | nil => exact ⟨hT, rfl, rfl, rfl, rfl⟩
  | cons p ps ih =>
    have hp := hps p List.mem_cons_self
    have free : ∀ o, T.addresses.get? p.address.key = some o → o = p.id := by
      intro o ho
      obtain ⟨q, hq, hkey⟩ := hT.address.1 ho
      have mine := ht.address.2 ⟨p, hp, rfl⟩
      have other := ht.address.2 ⟨q, hT.parkings hq, hkey⟩
      exact Option.some.inj (other.symm.trans mine)
    have part : (T.apply (t.parkingCommit p)).PartOf t := by
      rw [apply_parkingCommit]
      refine { (hT.toIndexed.putParking free).foldl_putSector _ with
        parkings := ?_, reservations := ?_ }
      · intro id q hq
        rw [Tables.foldl_putSector, parkings_putParking, Table.get?_insert] at hq
        split at hq
        next hid =>
          cases hq
          exact hid ▸ hp
        next => exact hT.parkings hq
      · intro id r hr
        rw [Tables.foldl_putSector] at hr
        exact hT.reservations hr
    obtain ⟨part', parkings, sectors, reservations, events⟩ :=
      ih (fun p' hp' => hps p' (List.mem_cons_of_mem _ hp')) part
    refine ⟨part', parkings.trans ?_, sectors.trans ?_, reservations.trans ?_, events.trans ?_⟩ <;>
      rw [apply_parkingCommit, Tables.foldl_putSector]
    · rfl
    · rw [List.flatMap_cons, List.foldl_append]
      rfl
    · rfl
    · rfl

theorem foldl_reservationCommit (ht : t.Linked) {rs : List Reservation}
    (hrs : ∀ r ∈ rs, t.reservations.get? r.id = some r) (nodup : (rs.map (·.id)).Nodup)
    (hT : T.PartOf t) :
    let T' := (rs.map t.reservationCommit).foldl Tables.apply T
    T'.PartOf t ∧ T'.parkings = T.parkings ∧ T'.sectors = T.sectors ∧
      T'.reservations = rs.foldl (fun acc r => acc.insert r.id r) T.reservations ∧
      ∀ k, T'.eventsOf k = if k ∈ rs.map (·.id) then T.eventsOf k ++ t.eventsOf k
        else T.eventsOf k := by
  induction rs generalizing T with
  | nil => exact ⟨hT, rfl, rfl, rfl, fun _ => rfl⟩
  | cons r rs ih =>
    have hr := hrs r List.mem_cons_self
    obtain ⟨fresh, nodup⟩ := List.nodup_cons.1 nodup
    have part : (T.apply (t.reservationCommit r)).PartOf t := by
      rw [apply_reservationCommit]
      refine { (hT.toIndexed.foldl_addEvent (t.eventsOf r.id)).putReservation ?_ with
        parkings := ?_, reservations := ?_ }
      · intro old hold
        rw [Tables.foldl_addEvent] at hold
        cases hr.symm.trans (hT.reservations hold)
        exact ⟨rfl, rfl⟩
      · intro id p hp
        rw [Tables.foldl_addEvent, parkings_putReservation] at hp
        exact hT.parkings hp
      · intro id r' hr'
        rw [Tables.foldl_addEvent, reservations_putReservation, Table.get?_insert] at hr'
        split at hr'
        next hid =>
          cases hr'
          exact hid ▸ hr
        next => exact hT.reservations hr'
    obtain ⟨part', parkings, sectors, reservations, events⟩ :=
      ih (fun r' hr' => hrs r' (List.mem_cons_of_mem _ hr')) nodup part
    have eventsOf (k : Ulid) :
        ((t.eventsOf r.id).foldl Tables.addEvent T).eventsOf k =
          if k = r.id then T.eventsOf k ++ t.eventsOf r.id else T.eventsOf k :=
      eventsOf_foldl_addEvent T (fun e he => (ht.events he).1) k
    refine ⟨part', parkings.trans ?_, sectors.trans ?_, reservations.trans ?_, fun k => ?_⟩
    · rw [apply_reservationCommit, Tables.foldl_addEvent, parkings_putReservation]
    · rw [apply_reservationCommit, Tables.foldl_addEvent, sectors_putReservation]
    · rw [apply_reservationCommit, Tables.foldl_addEvent, reservations_putReservation]
      rfl
    · refine (events k).trans ?_
      rw [apply_reservationCommit, eventsOf_putReservation, eventsOf]
      by_cases hk : k = r.id
      · subst hk
        simp [fresh]
      · simp [hk]

theorem Linked.ofCommits_part (ht : t.Linked) {rs : List Reservation}
    (hrs : ∀ r ∈ rs, t.reservations.get? r.id = some r) (nodup : (rs.map (·.id)).Nodup) :
    let T := ofCommits (t.parkings.values.map t.parkingCommit ++ rs.map t.reservationCommit)
    T.Indexed ∧ T.parkings = t.parkings ∧ T.sectors = t.sectors ∧
      T.reservations = rs.foldl (fun acc r => acc.insert r.id r) .empty ∧
      ∀ k, T.eventsOf k = if k ∈ rs.map (·.id) then t.eventsOf k else [] := by
  have empty : Tables.empty.PartOf t :=
    { Indexed.empty with parkings := nofun, reservations := nofun }
  have hps : ∀ p ∈ t.parkings.values, t.parkings.get? p.id = some p := by
    intro p hp
    obtain ⟨id, hid⟩ := Table.mem_values.1 hp
    exact ht.parking_id hid ▸ hid
  obtain ⟨part, parkings, sectors, reservations, events⟩ := foldl_parkingCommit ht hps empty
  obtain ⟨part', parkings', sectors', reservations', events'⟩ :=
    foldl_reservationCommit ht hrs nodup part
  have replay : ofCommits (t.parkings.values.map t.parkingCommit ++ rs.map t.reservationCommit) =
      (rs.map t.reservationCommit).foldl Tables.apply
        ((t.parkings.values.map t.parkingCommit).foldl Tables.apply Tables.empty) := by
    rw [ofCommits, List.foldl_append]
  rw [replay]
  refine ⟨part'.toIndexed, ?_, ?_, ?_, fun k => ?_⟩
  · rw [parkings', parkings]
    exact Table.foldl_insert_eq hps fun id p hp => ⟨Table.mem_values.2 ⟨id, hp⟩, ht.parking_id hp⟩
  · rw [sectors', sectors]
    refine Table.foldl_insert_eq (fun s hs => ?_) fun id s hs => ⟨?_, ht.sector_id hs⟩
    · obtain ⟨p, -, hs⟩ := List.mem_flatMap.1 hs
      obtain ⟨id, -, hid⟩ := List.mem_filterMap.1 hs
      exact ht.sector_id hid ▸ hid
    · obtain ⟨p, hp⟩ := ht.owned hs
      refine List.mem_flatMap.2 ⟨p, Table.mem_values.2 ⟨_, hp⟩, ?_⟩
      exact List.mem_filterMap.2 ⟨id, (ht.listed hp).2 ⟨s, hs, rfl⟩, hs⟩
  · rw [reservations', reservations]
    rfl
  · rw [events', events]
    rfl

/-- Replaying the snapshot of tables rebuilds them, up to the order of the index lists. -/
theorem Linked.ofCommits_snapshot (ht : t.Linked) : (ofCommits t.snapshot).Alike t := by
  have hrs : ∀ r ∈ t.reservations.values, t.reservations.get? r.id = some r :=
    fun r hr => ht.get?_of_mem_values hr
  have ids := ht.map_id_values
  obtain ⟨indexed, parkings, sectors, reservations, events⟩ :=
    ht.ofCommits_part hrs (ids ▸ Table.keys_nodup _)
  refine Alike.of_rows indexed ht.toIndexed parkings sectors (reservations.trans ?_) ?_
  · exact Table.foldl_insert_eq hrs fun id r hr =>
      ⟨Table.mem_values.2 ⟨id, hr⟩, ht.reservation_id hr⟩
  · funext id
    refine (events id).trans ?_
    rw [ids]
    split
    next => rfl
    next hid =>
      have hnone : t.reservations.get? id = none := by
        cases hr : t.reservations.get? id with
        | none => rfl
        | some r => exact absurd (List.mem_map_of_mem (Table.mem_entries.2 hr)) hid
      exact (ht.eventsOf_eq_nil hnone).symm

/-- The second tables have all rows of the first but one reservation, which is gone with its
events. -/
structure Forgets (t : Tables) (r : Reservation) (t' : Tables) : Prop where
  row : t.reservations.get? r.id = some r
  indexed : t'.Indexed
  parkings : t'.parkings = t.parkings
  sectors : t'.sectors = t.sectors
  reservations : t'.reservations = t.reservations.erase r.id
  events : ∀ id, t'.eventsOf id = if id = r.id then [] else t.eventsOf id

namespace Forgets

variable {t' : Tables} {r a : Reservation} {id : Ulid}

theorem get?_reservation (h : t.Forgets r t') : t'.reservations.get? id = some a ↔
    id ≠ r.id ∧ t.reservations.get? id = some a := by
  rw [h.reservations, Table.get?_erase]
  split
  next same => exact iff_of_false (Option.some_ne_none a).symm fun h => h.1 same
  next other => exact (and_iff_right other).symm

theorem linked (h : t.Forgets r t') (ht : t.Linked) : t'.Linked where
  toIndexed := h.indexed
  sectors_nodup hp := ht.sectors_nodup (h.parkings ▸ hp)
  listed hp := by
    rw [h.sectors]
    exact ht.listed (h.parkings ▸ hp)
  owned hs := by
    rw [h.parkings]
    exact ht.owned (h.sectors ▸ hs)
  placed hr := by
    rw [h.sectors]
    exact ht.placed (h.get?_reservation.1 hr).2
  events {id e} he := by
    rw [h.events] at he
    split at he
    next => cases he
    next other =>
      obtain ⟨its, a, ha⟩ := ht.events he
      exact ⟨its, a, h.get?_reservation.2 ⟨other, ha⟩⟩

end Forgets

/-- A snapshot without its last commit describes tables without the last reservation. -/
theorem Linked.forgets_last (ht : t.Linked) {rs : List Reservation} {r : Reservation}
    (last : t.reservations.values = rs ++ [r]) : t.Forgets r
      (ofCommits (t.parkings.values.map t.parkingCommit ++ rs.map t.reservationCommit)) := by
  have all : ∀ r' ∈ rs ++ [r], t.reservations.get? r'.id = some r' := fun r' hr' =>
    ht.get?_of_mem_values (last ▸ hr')
  have nodup : ((rs ++ [r]).map (·.id)).Nodup := by
    rw [← last, ht.map_id_values]
    exact Table.keys_nodup _
  rw [List.map_append, List.nodup_append] at nodup
  have other : ∀ r' ∈ rs, r'.id ≠ r.id := fun r' hr' =>
    nodup.2.2 _ (List.mem_map_of_mem hr') _ (.head _)
  have row := all r (List.mem_append_right _ (.head _))
  obtain ⟨indexed, parkings, sectors, reservations, events⟩ :=
    ht.ofCommits_part (fun r' hr' => all r' (List.mem_append_left _ hr')) nodup.1
  have mem {id : Ulid} {r' : Reservation} (hr' : t.reservations.get? id = some r')
      (hid : id ≠ r.id) : r' ∈ rs := by
    have listed : r' ∈ t.reservations.values := Table.mem_values.2 ⟨id, hr'⟩
    rw [last] at listed
    refine (List.mem_append.1 listed).resolve_right fun same => hid ?_
    rw [← ht.reservation_id hr', List.mem_singleton.1 same]
  refine ⟨row, indexed, parkings, sectors, reservations.trans ?_, fun id => (events id).trans ?_⟩
  · refine Table.foldl_insert_eq (fun r' hr' => ?_) fun id r' hr' => ?_
    · rw [Table.get?_erase, if_neg (other r' hr')]
      exact all r' (List.mem_append_left _ hr')
    · rw [Table.get?_erase] at hr'
      split at hr'
      next => cases hr'
      next hid => exact ⟨mem hr' hid, ht.reservation_id hr'⟩
  · by_cases hid : id = r.id
    · have out : id ∉ rs.map (·.id) := fun hmem => by
        obtain ⟨r', hr', same⟩ := List.mem_map.1 hmem
        exact other r' hr' (same.trans hid)
      rw [if_pos hid, if_neg out]
    · rw [if_neg hid]
      split
      next => rfl
      next out =>
        have hnone : t.reservations.get? id = none := by
          cases hr : t.reservations.get? id with
          | none => rfl
          | some r' =>
            exact absurd (List.mem_map.2 ⟨r', mem hr hid, ht.reservation_id hr⟩) out
        exact (ht.eventsOf_eq_nil hnone).symm

end

end Tables

end Carpark
