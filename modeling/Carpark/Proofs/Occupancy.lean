import Carpark.Proofs.LinkedSteps

/-!
The ledger and the gate log: the places of a sector that are taken are as many as the cars that its
reservations have inside, and a number that no transition changes.
-/

namespace Carpark

theorem isInside_append (events : List GateEvent) (e : GateEvent) :
    isInside (events ++ [e]) = decide (e.kind = .entry) := by
  simp [isInside]

theorem isInside_of_not_hasEntered {events : List GateEvent} (h : hasEntered events = false) :
    isInside events = false := by
  simp only [isInside, Option.any_eq_false]
  intro e he
  have := List.any_eq_false.1 h e (List.mem_of_getLast? he)
  simpa using this

theorem Reservation.not_isOccupying_of_not_hasEntered (r : Reservation) {events : List GateEvent}
    (h : hasEntered events = false) : r.isOccupying events = false := by
  simp [isOccupying, isInside_of_not_hasEntered h]

namespace Tables

def occupies (t : Tables) (sector : Ulid) (r : Reservation) : Bool :=
  r.sector = sector && r.isOccupying (t.eventsOf r.id)

def inside (t : Tables) (sector : Ulid) : Nat := t.reservations.values.countP (t.occupies sector)

/-- By the ledger, every place of a sector is free, has one of these cars on it or is lost. -/
def Balanced (t : Tables) (lost : Ulid → Nat) : Prop :=
  ∀ k s, t.sectors.get? k = some s → t.inside k + lost k + s.availablePlaces = s.maxPlaces

def remaining (t : Tables) (lost : Ulid → Nat) (k : Ulid) : Nat :=
  (t.sectors.get? k).elim 0 fun _ => lost k

theorem balanced_empty (lost : Ulid → Nat) : empty.Balanced lost := by
  intro k s hs
  cases hs

theorem Balanced.remaining {t : Tables} {lost : Ulid → Nat} (hb : t.Balanced lost) :
    t.Balanced (t.remaining lost) := by
  intro k s hs
  rw [Tables.remaining, hs]
  exact hb k s hs

/-! ### Counting after a change -/

theorem inside_put {t : Tables} (t' : Tables) {r : Reservation} (ht : t.Linked)
    (hrow : t'.reservations = t.reservations.insert r.id r)
    (hevents : ∀ id, id ≠ r.id → t'.eventsOf id = t.eventsOf id) (k : Ulid) :
    t'.inside k + ((t.reservations.get? r.id).elim 0 fun b => (t.occupies k b).toNat) =
      t.inside k + (t'.occupies k r).toNat := by
  rw [inside, hrow]
  refine t.reservations.countP_insert r.id r (t.occupies k) (t'.occupies k) fun id b hid hb => ?_
  rw [occupies, occupies, ht.reservation_id hb, hevents id hid]

theorem inside_eq_of_same {t t' : Tables} (hrow : t'.reservations = t.reservations)
    (hevents : t'.eventsOf = t.eventsOf) (k : Ulid) : t'.inside k = t.inside k := by
  have same : t'.occupies k = t.occupies k := by
    funext r
    rw [occupies, occupies, hevents]
  rw [inside, inside, hrow, same]

theorem inside_eq_zero {t : Tables} (ht : t.Linked) {k : Ulid} (hk : t.sectors.get? k = none) :
    t.inside k = 0 := by
  apply Table.countP_eq_zero_of
  intro id r hr
  obtain ⟨s, hs, -⟩ := ht.placed hr
  have : r.sector ≠ k := by
    rintro rfl
    rw [hk] at hs
    cases hs
  simp [occupies, this]

variable {t : Tables} {lost : Ulid → Nat}

theorem Balanced.of_sector {t' : Tables} {s : Sector} (hb : t.Balanced lost)
    (hsectors : t'.sectors = t.sectors.insert s.id s)
    (hinside : ∀ k, k ≠ s.id → t'.inside k = t.inside k)
    (hs : t'.inside s.id + lost s.id + s.availablePlaces = s.maxPlaces) : t'.Balanced lost := by
  intro k s' hs'
  rw [hsectors, Table.get?_insert] at hs'
  split at hs'
  next hk =>
    cases hs'
    exact hk ▸ hs
  next hk =>
    rw [hinside k hk]
    exact hb k s' hs'

theorem Balanced.of_subset {t' : Tables} (hb : t.Balanced lost)
    (hsectors : ∀ k s, t'.sectors.get? k = some s → t.sectors.get? k = some s)
    (hinside : ∀ k, t'.inside k = t.inside k) : t'.Balanced lost := by
  intro k s hs
  rw [hinside]
  exact hb k s (hsectors k s hs)

theorem inside_putReservation_of_not {r : Reservation} (ht : t.Linked)
    (before : ∀ b, t.reservations.get? r.id = some b → b.isOccupying (t.eventsOf r.id) = false)
    (after : r.isOccupying (t.eventsOf r.id) = false) (k : Ulid) :
    (t.putReservation r).inside k = t.inside k := by
  have count := inside_put _ ht (reservations_putReservation t r)
    (fun id _ => by rw [eventsOf_putReservation]) k
  have hbefore : ((t.reservations.get? r.id).elim 0 fun b => (t.occupies k b).toNat) = 0 := by
    cases hr : t.reservations.get? r.id with
    | none => rfl
    | some b => simp [occupies, ht.reservation_id hr, before b hr]
  have hafter : (t.putReservation r).occupies k r = false := by simp [occupies, after]
  rw [hbefore, hafter] at count
  exact count

theorem Balanced.putSector (hb : t.Balanced lost) {a s : Sector}
    (hs : t.sectors.get? s.id = some a)
    (h : a.availablePlaces + s.maxPlaces = s.availablePlaces + a.maxPlaces) :
    (t.putSector s).Balanced lost := by
  refine hb.of_sector (sectors_putSector t s) (fun k _ => inside_eq_of_same rfl rfl k) ?_
  have before := hb _ a hs
  have same : (t.putSector s).inside s.id = t.inside s.id := inside_eq_of_same rfl rfl _
  omega

theorem Balanced.putReservation (hb : t.Balanced lost) (ht : t.Linked) {r : Reservation}
    (before : ∀ b, t.reservations.get? r.id = some b → b.isOccupying (t.eventsOf r.id) = false)
    (after : r.isOccupying (t.eventsOf r.id) = false) : (t.putReservation r).Balanced lost :=
  hb.of_subset (fun _ _ hs => sectors_putReservation t r ▸ hs)
    (inside_putReservation_of_not ht before after)

/-! ### At the gate -/

section gate

variable {s : Sector} {r : Reservation} {e : GateEvent}

theorem inside_gate (ht : t.Linked) (he : e.reservation = r.id) (k : Ulid) :
    (t.apply [.putSector s, .putReservation r, .appendEvent e]).inside k +
        ((t.reservations.get? r.id).elim 0 fun b => (t.occupies k b).toNat) =
      t.inside k + (r.sector = k && (r.status = .created && decide (e.kind = .entry))).toNat := by
  rw [apply_gate]
  have count := inside_put (((t.putSector s).putReservation r).addEvent e) (r := r) ht (by simp)
    (fun id hid => by simp [eventsOf_addEvent, he, hid]) k
  rw [count, occupies, Reservation.isOccupying, eventsOf_addEvent, if_pos he.symm, isInside_append]

theorem Balanced.enter (hb : t.Balanced lost) (ht : t.Linked) {old : Sector}
    (hold : t.sectors.get? r.sector = some old) (hs : s.id = r.sector)
    (hplaces : s.availablePlaces + 1 + old.maxPlaces = old.availablePlaces + s.maxPlaces)
    (outside : ∀ b, t.reservations.get? r.id = some b → b.isOccupying (t.eventsOf r.id) = false)
    (created : r.status = .created) (he : e.reservation = r.id) (hentry : e.kind = .entry) :
    (t.apply [.putSector s, .putReservation r, .appendEvent e]).Balanced lost := by
  have hbefore (k : Ulid) :
      ((t.reservations.get? r.id).elim 0 fun b => (t.occupies k b).toNat) = 0 := by
    cases hr : t.reservations.get? r.id with
    | none => rfl
    | some b => simp [occupies, ht.reservation_id hr, outside b hr]
  have count (k : Ulid) := inside_gate (s := s) ht he k
  simp only [hbefore, created, hentry, decide_true, Bool.and_true, Nat.add_zero] at count
  refine hb.of_sector (s := s) (by simp [apply_gate]) (fun k hk => ?_) ?_
  · have hne : r.sector ≠ k := by
      rintro rfl
      exact hk hs.symm
    simp [count, hne]
  · have := hb _ old hold
    simp only [count, hs, decide_true, Bool.toNat_true]
    omega

theorem Balanced.leave (hb : t.Balanced lost) (ht : t.Linked) {old : Sector} {b : Reservation}
    (hold : t.sectors.get? r.sector = some old) (hs : s.id = r.sector)
    (hplaces : old.availablePlaces + 1 + s.maxPlaces = s.availablePlaces + old.maxPlaces)
    (hr : t.reservations.get? r.id = some b) (hsector : b.sector = r.sector)
    (inside : b.isOccupying (t.eventsOf r.id) = true) (he : e.reservation = r.id)
    (hexit : e.kind = .exit) :
    (t.apply [.putSector s, .putReservation r, .appendEvent e]).Balanced lost := by
  have hbefore (k : Ulid) : t.occupies k b = decide (r.sector = k) := by
    simp [occupies, ht.reservation_id hr, inside, hsector]
  have count (k : Ulid) := inside_gate (s := s) ht he k
  simp only [hr, Option.elim_some, hbefore, hexit, reduceCtorEq, decide_false, Bool.and_false,
    Bool.toNat_false, Nat.add_zero] at count
  refine hb.of_sector (s := s) (by simp [apply_gate]) (fun k hk => ?_) ?_
  · have hne : r.sector ≠ k := by
      rintro rfl
      exact hk hs.symm
    simpa [hne] using count k
  · have := hb _ old hold
    have := count r.sector
    simp only [hs, decide_true, Bool.toNat_true] at this ⊢
    omega

end gate

end Tables

namespace Transition

open Tables

variable {settings : Settings} {ctx : Context} {t : Tables} {op : Operation} {ids : List Ulid}
  {txn : Txn} {lost : Ulid → Nat}

theorem balanced (h : Transition settings ctx t op ids txn) (ht : t.Linked) (hb : t.Balanced lost)
    (absent : ∀ k, t.sectors.get? k = none → lost k = 0) (hok : ∀ c ∈ txn, c.suits t) :
    (t.apply txn.writes).Balanced lost := by
  have resized {k : Ulid} {s : Sector} {spec : SectorSpec} (hs : t.sectors.get? k = some s)
      (fits : s.occupied ≤ spec.maxPlaces) :
      s.availablePlaces + spec.maxPlaces = (spec.maxPlaces - s.occupied) + s.maxPlaces := by
    have := hb _ s hs
    simp only [Sector.occupied] at *
    omega
  have outside {r : Reservation} (hr : t.reservations.get? r.id = some r)
      (h : r.isOccupying (t.eventsOf r.id) = false) (b : Reservation)
      (hb : t.reservations.get? r.id = some b) : b.isOccupying (t.eventsOf r.id) = false := by
    rw [hr] at hb
    cases hb
    exact h
  cases h with
  | createParking | updateParking =>
    exact hb.of_subset (fun _ _ hs => hs) (inside_eq_of_same rfl rfl)
  | @deleteParking id _ p _ hp _ unused =>
    rw [Txn.writes_deleteSectors, ht.map_sectorsOf hp, apply_deleteSectors, foldl_deleteSector]
    refine hb.of_subset (fun k s hs => ?_) (inside_eq_of_same (by simp) (by simp; rfl))
    rw [sectors_deleteParking] at hs
    exact Table.get?_of_foldl_erase hs
  | @addSector parking id spec p _ _ hp _ _ =>
    have new : t.sectors.get? id = none := hok _ (.tail _ (.head _))
    refine hb.of_sector (s := { Sector.ofSpec id parking spec with version := 1 }) rfl
      (fun k _ => inside_eq_of_same rfl rfl k) ?_
    change t.inside id + lost id + spec.maxPlaces = spec.maxPlaces
    rw [inside_eq_zero ht new, absent id new, Nat.zero_add]
  | @updateSector id _ spec s _ _ hs _ _ fits _ =>
    obtain rfl := ht.sector_id hs
    exact hb.putSector (s := { s.change spec with version := s.version + 1 }) hs
      (resized hs fits)
  | @renameSector id _ spec s p _ _ hs _ _ fits _ hp _ =>
    obtain rfl := ht.sector_id hs
    have guarded : (t.putParking { p with version := p.version + 1 }).Balanced lost :=
      hb.of_subset (fun _ _ hs => hs) (inside_eq_of_same rfl rfl)
    exact guarded.putSector (s := { s.change spec with version := s.version + 1 }) hs
      (resized hs fits)
  | @activateSector id _ s _ hs =>
    obtain rfl := ht.sector_id hs
    exact hb.putSector (a := s) hs rfl
  | @deactivateSector id _ _ s _ hs =>
    obtain rfl := ht.sector_id hs
    exact hb.putSector (a := s) hs rfl
  | @deleteSector id _ s p _ hs _ unused hp =>
    refine hb.of_subset (fun k s' hs' => ?_) (inside_eq_of_same rfl rfl)
    change (t.sectors.erase s.id).get? k = some s' at hs'
    exact Table.get?_of_erase hs'
  | @finalize id s _ hs =>
    obtain rfl := ht.sector_id hs
    exact hb.putSector (a := s) hs rfl
  | @book sector client id _ _ window s _ hs =>
    obtain rfl := ht.sector_id hs
    have new : t.reservations.get? id = none := hok _ (.tail _ (.head _))
    have guarded := hb.putSector (s := { s with version := s.version + 1 }) hs rfl
    have linked := ht.putSector (s := { s with version := s.version + 1 }) hs rfl
    refine guarded.putReservation linked (fun b hb => ?_) ?_
    · cases new.symm.trans hb
    · rw [linked.eventsOf_eq_nil new]
      rfl
  | @cancel id r hr _ _ unused =>
    obtain rfl := ht.reservation_id hr
    have out := outside hr (r.not_isOccupying_of_not_hasEntered unused)
    exact hb.putReservation ht out rfl
  | @enter id u v r s _ hr _ created out _ _ hs taken =>
    obtain rfl := ht.reservation_id hr
    obtain ⟨free, rfl⟩ := Sector.takePlace_eq_ok.1 taken
    have places := Sector.canTake_pos free
    have out := outside hr out
    have hid := ht.sector_id hs
    exact hb.enter ht hs hid (by dsimp only; omega) out created rfl rfl
  | @driveIn parking u v w _ p s _ hp listed hs taken =>
    obtain ⟨free, rfl⟩ := Sector.takePlace_eq_ok.1 taken
    have new : t.reservations.get? v = none := hok _ (.tail _ (.head _))
    have places := Sector.canTake_pos free
    refine hb.enter ht hs rfl (by dsimp only; omega) (fun b hb => ?_) rfl rfl rfl
    cases new.symm.trans hb
  | @exit id u _ _ r s _ hr _ _ inside hs freed =>
    obtain rfl := ht.reservation_id hr
    obtain ⟨-, rfl⟩ := Sector.freePlace_eq_ok.1 freed
    have hid := ht.sector_id hs
    exact hb.leave ht hs hid rfl hr rfl inside rfl rfl
  | @expire id r _ hr due =>
    obtain rfl := ht.reservation_id hr
    have unused : hasEntered (t.eventsOf r.id) = false := by
      simp only [Reservation.isExpirable, Bool.and_eq_true, Bool.not_eq_true'] at due
      exact due.2
    have out := outside hr (r.not_isOccupying_of_not_hasEntered unused)
    exact hb.putReservation ht out rfl
  | @forceExit id u r s _ _ hr due hs freed =>
    obtain rfl := ht.reservation_id hr
    obtain ⟨-, rfl⟩ := Sector.freePlace_eq_ok.1 freed
    have inside : r.isOccupying (t.eventsOf r.id) = true := by
      simp only [Reservation.isOverstayed, Bool.and_eq_true] at due
      exact due.1
    have hid := ht.sector_id hs
    exact hb.leave ht hs hid rfl hr rfl inside rfl rfl
  | @close id r _ hr due =>
    obtain rfl := ht.reservation_id hr
    have out : r.isOccupying (t.eventsOf r.id) = false := by
      simp only [Reservation.isFinished, Bool.and_eq_true, Bool.not_eq_true'] at due
      exact due.2
    have out := outside hr out
    exact hb.putReservation ht out rfl

end Transition

end Carpark
