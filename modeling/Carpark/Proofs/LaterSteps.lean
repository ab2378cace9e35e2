import Carpark.Proofs.Later
import Carpark.Proofs.LinkedSteps

/-!
The moment after a commit is later than the one before: what a transition changes it gives a new
version, or puts under an identifier that was not used before.
-/

namespace Carpark

namespace Tables

variable {t t' : Tables} {used : Ulid → Prop}

/-! ### Reservations -/

theorem Keeps.of_same (hrow : t'.reservations = t.reservations)
    (hevents : t'.eventsOf = t.eventsOf) : t.Keeps t' := by
  intro id r hr
  exact ⟨r, hrow ▸ hr, .refl r, fun _ => ⟨rfl, by rw [hevents]⟩⟩

theorem Keeps.of_put {r : Reservation} (hrow : t'.reservations = t.reservations.insert r.id r)
    (hevents : ∀ id, id ≠ r.id → t'.eventsOf id = t.eventsOf id)
    (moved : ∀ b, t.reservations.get? r.id = some b → b.Becomes r ∧ b.version < r.version) :
    t.Keeps t' := by
  intro id b hb
  by_cases hid : id = r.id
  · subst hid
    obtain ⟨becomes, raised⟩ := moved b hb
    refine ⟨r, by simp [hrow], becomes, fun same => ?_⟩
    exact absurd same (Nat.ne_of_lt raised)
  · refine ⟨b, ?_, .refl b, fun _ => ⟨rfl, (hevents id hid).symm⟩⟩
    rw [hrow, Table.get?_insert_of_ne _ _ hid]
    exact hb

theorem get?_write_reservation {w : Write} {id : Ulid} {r : Reservation}
    (hr : (t.write w).reservations.get? id = some r) :
    t.reservations.get? id = some r ∨ w = .putReservation r := by
  cases w with
  | putParking p => exact .inl hr
  | deleteParking id => exact .inl (by simpa [write] using hr)
  | putSector s => exact .inl hr
  | deleteSector id => exact .inl hr
  | appendEvent e => exact .inl hr
  | putReservation b =>
    simp only [write, reservations_putReservation, Table.get?_insert] at hr
    split at hr
    next =>
      cases hr
      exact .inr rfl
    next => exact .inl hr

theorem get?_apply_reservation {c : Commit} {id : Ulid} {r : Reservation}
    (hr : (t.apply c).reservations.get? id = some r) :
    t.reservations.get? id = some r ∨ .putReservation r ∈ c := by
  have ordered (l : Commit) (t : Tables) (hr : (l.foldl write t).reservations.get? id = some r) :
      t.reservations.get? id = some r ∨ .putReservation r ∈ l := by
    induction l generalizing t with
    | nil => exact .inl hr
    | cons w l ih =>
      rcases ih _ hr with hr | hr
      · rcases get?_write_reservation hr with hr | rfl
        · exact .inl hr
        · exact .inr (.head _)
      · exact .inr (.tail _ hr)
  rcases ordered _ t hr with hr | hr
  · exact .inl hr
  · rcases List.mem_append.1 hr with hr | hr
    · exact .inr (List.mem_filter.1 hr).1
    · exact .inr (List.mem_filter.1 hr).1

/-! ### Parkings -/

def ParkingsSince (used : Ulid → Prop) (t t' : Tables) : Prop :=
  ∀ id p', used id → t'.parkings.get? id = some p' →
    ∃ p, t.parkings.get? id = some p ∧ p.version ≤ p'.version ∧
      (p.version = p'.version → p = p' ∧ ∀ k ∈ p.sectors, t.nameOf? k = t'.nameOf? k)

theorem ParkingsSince.of_same (hrow : t'.parkings = t.parkings) (names : t'.nameOf? = t.nameOf?) :
    ParkingsSince used t t' := by
  intro id p _ hp
  exact ⟨p, hrow ▸ hp, Nat.le_refl _, fun _ => ⟨rfl, fun k _ => by rw [names]⟩⟩

theorem ParkingsSince.of_one (ht : t.Linked) (id : Ulid)
    (others : ∀ k, k ≠ id → t'.parkings.get? k = t.parkings.get? k)
    (moved : used id → ∀ p', t'.parkings.get? id = some p' →
      ∃ p, t.parkings.get? id = some p ∧ p.version < p'.version)
    (names : ∀ k s, t.sectors.get? k = some s → s.parking ≠ id → t'.nameOf? k = some s.name) :
    ParkingsSince used t t' := by
  intro k p' hk hp'
  by_cases hid : k = id
  · subst hid
    obtain ⟨p, hp, raised⟩ := moved hk p' hp'
    exact ⟨p, hp, Nat.le_of_lt raised, fun same => absurd same (Nat.ne_of_lt raised)⟩
  · rw [others k hid] at hp'
    refine ⟨p', hp', Nat.le_refl _, fun _ => ⟨rfl, fun j hj => ?_⟩⟩
    obtain ⟨s, hs, hparking⟩ := (ht.listed hp').1 hj
    rw [names j s hs (hparking ▸ hid), nameOf?, hs]
    rfl

/-! ### Sectors -/

def SectorsSince (used : Ulid → Prop) (t t' : Tables) : Prop :=
  ∀ id s', used id → t'.sectors.get? id = some s' →
    ∃ s, t.sectors.get? id = some s ∧ s'.parking = s.parking ∧ s.version ≤ s'.version ∧
      (s.version = s'.version →
        s = s' ∧ t.bySector.getList id = t'.bySector.getList id)

theorem SectorsSince.of_subset
    (rows : ∀ k s, t'.sectors.get? k = some s → t.sectors.get? k = some s ∧
      t'.bySector.getList k = t.bySector.getList k) :
    SectorsSince used t t' := by
  intro k s _ hs
  obtain ⟨hs, list⟩ := rows k s hs
  exact ⟨s, hs, rfl, Nat.le_refl _, fun _ => ⟨rfl, list.symm⟩⟩

theorem SectorsSince.of_one (id : Ulid)
    (others : ∀ k, k ≠ id → t'.sectors.get? k = t.sectors.get? k ∧
      t'.bySector.getList k = t.bySector.getList k)
    (moved : used id → ∀ s', t'.sectors.get? id = some s' →
      ∃ s, t.sectors.get? id = some s ∧ s'.parking = s.parking ∧ s.version < s'.version) :
    SectorsSince used t t' := by
  intro k s' hk hs'
  by_cases hid : k = id
  · subst hid
    obtain ⟨s, hs, parking, raised⟩ := moved hk s' hs'
    exact ⟨s, hs, parking, Nat.le_of_lt raised, fun same => absurd same (Nat.ne_of_lt raised)⟩
  · obtain ⟨row, list⟩ := others k hid
    rw [row] at hs'
    exact ⟨s', hs', rfl, Nat.le_refl _, fun _ => ⟨rfl, list.symm⟩⟩

theorem SectorsSince.of_put {s old : Sector} (hrow : t'.sectors = t.sectors.insert s.id s)
    (lists : ∀ k, k ≠ s.id → t'.bySector.getList k = t.bySector.getList k)
    (hold : t.sectors.get? s.id = some old) (parking : s.parking = old.parking)
    (raised : old.version < s.version) : SectorsSince used t t' := by
  refine of_one s.id (fun k hk => ⟨?_, lists k hk⟩) fun _ s' hs' => ?_
  · rw [hrow, Table.get?_insert_of_ne _ _ hk]
  · rw [hrow, Table.get?_insert_self] at hs'
    cases hs'
    exact ⟨old, hold, parking, raised⟩

theorem nameOf?_of_put {s old : Sector} (hrow : t'.sectors = t.sectors.insert s.id s)
    (hold : t.sectors.get? s.id = some old) (name : s.name = old.name) :
    t'.nameOf? = t.nameOf? := by
  funext k
  rw [nameOf?, nameOf?, hrow, Table.get?_insert]
  split
  next hk => simp [hk, hold, name]
  next => rfl

/-! ### Commits -/

structure Since (used : Ulid → Prop) (t t' : Tables) : Prop where
  parkings : ParkingsSince used t t'
  sectors : SectorsSince used t t'
  keeps : t.Keeps t'

namespace Since

theorem putParking (ht : t.Linked) {p : Parking}
    (moved : used p.id → ∃ q, t.parkings.get? p.id = some q ∧ q.version < p.version) :
    Since used t (t.putParking p) where
  parkings := by
    refine .of_one ht p.id (fun k hk => Table.get?_insert_of_ne _ _ hk) (fun hused p' hp' => ?_)
      fun k s hs _ => by simp [nameOf?, hs]
    rw [parkings_putParking, Table.get?_insert_self] at hp'
    cases hp'
    exact moved hused
  sectors := .of_subset fun _ _ hs => ⟨hs, rfl⟩
  keeps := .of_same rfl rfl

theorem putSectorOf (ht : t.Linked) {p q : Parking} {s : Sector}
    (hq : t.parkings.get? p.id = some q) (raised : q.version < p.version)
    (moved : ∀ old, t.sectors.get? s.id = some old →
      old.parking = p.id ∧ s.parking = p.id ∧ old.version < s.version)
    (new : t.sectors.get? s.id = none → ¬ used s.id) :
    Since used t ((t.putParking p).putSector s) where
  parkings := by
    refine .of_one ht p.id (fun k hk => Table.get?_insert_of_ne _ _ hk) (fun _ p' hp' => ?_)
      fun k s' hs' other => ?_
    · rw [parkings_putSector, parkings_putParking, Table.get?_insert_self] at hp'
      cases hp'
      exact ⟨q, hq, raised⟩
    · have hk : k ≠ s.id := by
        rintro rfl
        exact other (moved s' hs').1
      rw [nameOf?, sectors_putSector, Table.get?_insert_of_ne _ _ hk, sectors_putParking, hs']
      rfl
  sectors := by
    refine .of_one s.id (fun k hk => ⟨Table.get?_insert_of_ne _ _ hk, rfl⟩) fun hused s' hs' => ?_
    rw [sectors_putSector, Table.get?_insert_self] at hs'
    cases hs'
    cases hold : t.sectors.get? s.id with
    | none => exact absurd hused (new hold)
    | some old =>
      obtain ⟨hparking, parking, hraised⟩ := moved old hold
      exact ⟨old, rfl, parking.trans hparking.symm, hraised⟩
  keeps := .of_same rfl rfl

theorem deleteSector (ht : t.Linked) {p q : Parking} {s : Sector}
    (hq : t.parkings.get? p.id = some q) (raised : q.version < p.version)
    (hs : t.sectors.get? s.id = some s) (parking : s.parking = p.id) :
    Since used t ((t.putParking p).deleteSector s.id) where
  parkings := by
    refine .of_one ht p.id (fun k hk => Table.get?_insert_of_ne _ _ hk) (fun _ p' hp' => ?_)
      fun k s' hs' other => ?_
    · rw [parkings_deleteSector, parkings_putParking, Table.get?_insert_self] at hp'
      cases hp'
      exact ⟨q, hq, raised⟩
    · have hk : k ≠ s.id := by
        rintro rfl
        cases hs.symm.trans hs'
        exact other parking
      rw [nameOf?, sectors_deleteSector, Table.get?_erase_of_ne _ hk, sectors_putParking, hs']
      rfl
  sectors := .of_subset fun k s' hs' => by
    simp only [sectors_deleteSector, sectors_putParking, Table.get?_erase] at hs'
    split at hs'
    next => cases hs'
    next hk => exact ⟨hs', by simp [Table.getList_erase, hk]⟩
  keeps := .of_same rfl rfl

theorem deleteParking (ht : t.Linked) {p : Parking} (hp : t.parkings.get? p.id = some p) :
    Since used t ((p.sectors.foldl Tables.deleteSector t).deleteParking p.id) where
  parkings := by
    rw [foldl_deleteSector]
    refine .of_one ht p.id (fun k hk => ?_) (fun _ p' hp' => ?_) fun k s hs other => ?_
    · rw [parkings_deleteParking, Table.get?_erase_of_ne _ hk]
    · rw [parkings_deleteParking, Table.get?_erase_self] at hp'
      cases hp'
    · have hk : k ∉ p.sectors := by
        intro hmem
        obtain ⟨s', hs', parking⟩ := (ht.listed hp).1 hmem
        cases hs.symm.trans hs'
        exact other parking
      simp [nameOf?, Table.get?_foldl_erase, hk, hs]
  sectors := .of_subset fun k s hs => by
    rw [foldl_deleteSector, sectors_deleteParking, Table.get?_foldl_erase] at hs
    split at hs
    next => cases hs
    next hk =>
      refine ⟨hs, ?_⟩
      rw [foldl_deleteSector, bySector_deleteParking, Table.getList_foldl_erase, if_neg hk]
  keeps := .of_same (by simp [foldl_deleteSector]) (by rw [foldl_deleteSector]; simp; rfl)

theorem putSector {s old : Sector} (hold : t.sectors.get? s.id = some old)
    (parking : s.parking = old.parking) (name : s.name = old.name)
    (raised : old.version < s.version) : Since used t (t.putSector s) where
  parkings := .of_same rfl (nameOf?_of_put rfl hold name)
  sectors := .of_put rfl (fun _ _ => rfl) hold parking raised
  keeps := .of_same rfl rfl

theorem putReservation {r old : Reservation} (hold : t.reservations.get? r.id = some old)
    (becomes : old.Becomes r) (raised : old.version < r.version) :
    Since used t (t.putReservation r) where
  parkings := .of_same (by simp) (by simp [nameOf?, funext_iff])
  sectors := .of_subset fun k s hs =>
    ⟨by simpa using hs, by simp [bySector_putReservation, hold]⟩
  keeps := .of_put (reservations_putReservation t r) (by simp) fun b hb => by
    cases hold.symm.trans hb
    exact ⟨becomes, raised⟩

theorem of_rows {s old : Sector} {r : Reservation} (hold : t.sectors.get? s.id = some old)
    (parking : s.parking = old.parking) (name : s.name = old.name)
    (raised : old.version < s.version) (parkings : t'.parkings = t.parkings)
    (sectors : t'.sectors = t.sectors.insert s.id s)
    (reservations : t'.reservations = t.reservations.insert r.id r)
    (lists : ∀ k, k ≠ s.id → t'.bySector.getList k = t.bySector.getList k)
    (events : ∀ id, id ≠ r.id → t'.eventsOf id = t.eventsOf id)
    (moved : ∀ b, t.reservations.get? r.id = some b → b.Becomes r ∧ b.version < r.version) :
    Since used t t' where
  parkings := .of_same parkings (nameOf?_of_put sectors hold name)
  sectors := .of_put sectors lists hold parking raised
  keeps := .of_put reservations events moved

theorem book {s old : Sector} {r : Reservation} (hold : t.sectors.get? s.id = some old)
    (parking : s.parking = old.parking) (name : s.name = old.name)
    (raised : old.version < s.version) (placed : r.sector = s.id)
    (new : t.reservations.get? r.id = none) :
    Since used t ((t.putSector s).putReservation r) := by
  refine of_rows (r := r) hold parking name raised (by simp) (by simp) (by simp) (fun k hk => ?_)
    (by simp) fun b hb => ?_
  · simp [bySector_putReservation, placed, Ne.symm hk]
  · cases new.symm.trans hb

theorem gate {s old : Sector} {r : Reservation} {e : GateEvent}
    (hold : t.sectors.get? s.id = some old) (parking : s.parking = old.parking)
    (name : s.name = old.name) (raised : old.version < s.version) (placed : r.sector = s.id)
    (he : e.reservation = r.id)
    (moved : ∀ b, t.reservations.get? r.id = some b → b.Becomes r ∧ b.version < r.version) :
    Since used t (t.apply [.putSector s, .putReservation r, .appendEvent e]) := by
  rw [apply_gate]
  refine of_rows (r := r) hold parking name raised (by simp) (by simp) (by simp) (fun k hk => ?_)
    (fun id hid => ?_) moved
  · simp [bySector_putReservation, placed, Ne.symm hk]
  · simp [eventsOf_addEvent, he, hid]

end Since

end Tables

namespace Transition

open Tables

variable {settings : Settings} {ctx : Context} {t : Tables} {op : Operation} {ids : List Ulid}
  {txn : Txn} {used : Ulid → Prop}

theorem since (h : Transition settings ctx t op ids txn) (ht : t.Linked)
    (hok : ∀ c ∈ txn, c.suits t) (unused : ∀ u ∈ ids, ¬ used u) :
    Since used t (t.apply txn.writes) := by
  have raised (v : Version) : v < v + 1 := Nat.lt_succ_self v
  cases h with
  | @createParking address policy id _ _ =>
    have fresh : ¬ used id := unused _ (.head _)
    exact .putParking ht fun hused => absurd hused fresh
  | @updateParking id _ address _ p _ _ hp _ =>
    obtain rfl := ht.parking_id hp
    exact .putParking ht fun _ => ⟨p, hp, raised _⟩
  | @deleteParking id _ p _ hp _ _ =>
    obtain rfl := ht.parking_id hp
    rw [Txn.writes_deleteSectors, ht.map_sectorsOf hp, apply_deleteSectors]
    exact .deleteParking ht hp
  | @addSector parking id spec p _ _ hp _ _ =>
    obtain rfl := ht.parking_id hp
    have new : t.sectors.get? id = none := hok _ (.tail _ (.head _))
    have fresh : ¬ used id := unused _ (.head _)
    refine .putSectorOf (s := { Sector.ofSpec id p.id spec with version := 1 }) ht hp (raised _)
      (fun old hold => ?_) fun _ => fresh
    cases new.symm.trans hold
  | @updateSector id _ spec s _ _ hs _ _ _ name =>
    obtain rfl := ht.sector_id hs
    exact .putSector (s := { s.change spec with version := s.version + 1 }) hs rfl name (raised _)
  | @renameSector id _ spec s p _ _ hs _ _ _ _ hp _ =>
    obtain rfl := ht.sector_id hs
    have hid := ht.parking_id hp
    have hp : t.parkings.get? p.id = some p := hid ▸ hp
    refine .putSectorOf (s := { s.change spec with version := s.version + 1 }) ht hp (raised _)
      (fun old hold => ?_) fun new => ?_
    · cases hs.symm.trans hold
      exact ⟨hid.symm, hid.symm, raised _⟩
    · cases hs.symm.trans new
  | @activateSector id _ s _ hs =>
    obtain rfl := ht.sector_id hs
    exact .putSector hs rfl rfl (raised _)
  | @deactivateSector id _ _ s _ hs =>
    obtain rfl := ht.sector_id hs
    exact .putSector hs rfl rfl (raised _)
  | @deleteSector id _ s p _ hs _ _ hp =>
    obtain rfl := ht.sector_id hs
    have hid := ht.parking_id hp
    have hp : t.parkings.get? p.id = some p := hid ▸ hp
    exact .deleteSector ht hp (raised _) hs hid.symm
  | @finalize id s _ hs =>
    obtain rfl := ht.sector_id hs
    exact .putSector hs rfl rfl (raised _)
  | @book sector client id _ _ window s _ hs =>
    obtain rfl := ht.sector_id hs
    have new : t.reservations.get? id = none := hok _ (.tail _ (.head _))
    exact .book (s := { s with version := s.version + 1 }) hs rfl rfl (raised _) rfl new
  | @cancel id r hr _ _ _ =>
    obtain rfl := ht.reservation_id hr
    exact .putReservation hr ⟨Nat.le_succ _, rfl, rfl, rfl, rfl, rfl, nofun⟩ (raised _)
  | @enter id u v r s _ hr _ _ _ _ _ hs taken =>
    obtain rfl := ht.reservation_id hr
    have hid := ht.sector_id hs
    have row : t.sectors.get? s.id = some s := hid.symm ▸ hs
    obtain ⟨-, rfl⟩ := Sector.takePlace_eq_ok.1 taken
    exact .gate row rfl rfl (raised _) hid.symm rfl fun b hb => by
      cases hr.symm.trans hb
      exact ⟨⟨Nat.le_succ _, rfl, rfl, rfl, rfl, rfl, fun h => h⟩, raised _⟩
  | @driveIn parking u v w _ p s _ _ _ hs taken =>
    have new : t.reservations.get? v = none := hok _ (.tail _ (.head _))
    obtain ⟨-, rfl⟩ := Sector.takePlace_eq_ok.1 taken
    exact .gate hs rfl rfl (raised _) rfl rfl fun b hb => by
      cases new.symm.trans hb
  | @exit id u _ _ r s _ hr _ created _ hs freed =>
    obtain rfl := ht.reservation_id hr
    have hid := ht.sector_id hs
    have row : t.sectors.get? s.id = some s := hid.symm ▸ hs
    obtain ⟨-, rfl⟩ := Sector.freePlace_eq_ok.1 freed
    exact .gate row rfl rfl (raised _) hid.symm rfl fun b hb => by
      cases hr.symm.trans hb
      exact ⟨⟨Nat.le_succ _, rfl, rfl, rfl, rfl, rfl, fun _ => created⟩, raised _⟩
  | @expire id r _ hr _ =>
    obtain rfl := ht.reservation_id hr
    exact .putReservation hr ⟨Nat.le_succ _, rfl, rfl, rfl, rfl, rfl, nofun⟩ (raised _)
  | @forceExit id u r s _ _ hr _ hs freed =>
    obtain rfl := ht.reservation_id hr
    have hid := ht.sector_id hs
    have row : t.sectors.get? s.id = some s := hid.symm ▸ hs
    obtain ⟨-, rfl⟩ := Sector.freePlace_eq_ok.1 freed
    exact .gate row rfl rfl (raised _) hid.symm rfl fun b hb => by
      cases hr.symm.trans hb
      exact ⟨⟨Nat.le_succ _, rfl, rfl, rfl, rfl, rfl, nofun⟩, raised _⟩
  | @close id r _ hr _ =>
    obtain rfl := ht.reservation_id hr
    exact .putReservation hr ⟨Nat.le_succ _, rfl, rfl, rfl, rfl, rfl, nofun⟩ (raised _)

theorem keeps (h : Transition settings ctx t op ids txn) (ht : t.Linked)
    (hok : ∀ c ∈ txn, c.suits t) : t.Keeps (t.apply txn.writes) :=
  (h.since ht hok (fun _ _ (h : False) => h)).keeps

theorem inserts (h : Transition settings ctx t op ids txn) (ht : t.Linked)
    (hok : ∀ c ∈ txn, c.suits t) {id : Ulid} {r : Reservation}
    (hr : (t.apply txn.writes).reservations.get? id = some r)
    (new : t.reservations.get? id = none) :
    ∃ b, .insertReservation b ∈ txn ∧ r = { b with version := 1 } := by
  have hid : r.id = id := (h.linked ht hok).reservation_id hr
  rcases Tables.get?_apply_reservation hr with hr | hput
  · cases new.symm.trans hr
  · obtain ⟨c, hc, hwrite⟩ := List.mem_filterMap.1 hput
    cases c with
    | insertReservation b =>
      cases hwrite
      exact ⟨b, hc, rfl⟩
    | updateReservation b =>
      cases hwrite
      obtain ⟨b', hb', -⟩ := hok _ hc
      cases new.symm.trans (hid ▸ hb')
    | _ => cases hwrite

theorem of_insertReservation (h : Transition settings ctx t op ids txn) {r : Reservation}
    (hr : .insertReservation r ∈ txn) : r.id ∈ ids ∧
      ((∃ sector start stop, op = .book sector start stop) ∧ r.client ≠ none ∨
        r.booked = false) := by
  cases h with
  | book =>
    simp only [List.mem_cons, Change.insertReservation.injEq, reduceCtorEq, List.not_mem_nil,
      or_false, false_or] at hr
    rw [hr]
    exact ⟨.head _, .inl ⟨⟨_, _, _, rfl⟩, nofun⟩⟩
  | driveIn =>
    simp only [List.mem_cons, Change.insertReservation.injEq, reduceCtorEq, List.not_mem_nil,
      or_false, false_or] at hr
    rw [hr]
    exact ⟨.tail _ (.head _), .inr rfl⟩
  | _ => simp at hr

end Transition

end Carpark
