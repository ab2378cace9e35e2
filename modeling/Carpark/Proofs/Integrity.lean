import Carpark.Proofs.Reachable

/-!
The registry stays in order: an address belongs to one parking, the sectors of a parking have
names of their own and are not too many, their numbers lie within the limits, and no reservation
has lost its sector.
-/

namespace Carpark

/-! ### The rules for one sector -/

structure Sector.Valid (s : Sector) : Prop where
  name : Sector.isValidName s.name = true
  places : 1 ≤ s.maxPlaces ∧ s.maxPlaces ≤ Limits.placesPerSector
  weight : 1 ≤ s.weight ∧ s.weight ≤ Limits.sectorWeight

namespace Sector

variable {s old : Sector} {spec : SectorSpec}

theorem Valid.of_spec (h : requireValid spec.violations = .ok ()) (name : s.name = spec.name)
    (places : s.maxPlaces = spec.maxPlaces) (weight : s.weight = spec.weight) : s.Valid := by
  obtain ⟨hname, hplaces, hweight⟩ :=
    SectorSpec.violations_eq_nil.1 (requireValid_eq_ok.1 h)
  exact ⟨name ▸ hname, places ▸ hplaces, weight ▸ hweight⟩

theorem Valid.of_same (h : old.Valid) (name : s.name = old.name)
    (places : s.maxPlaces = old.maxPlaces) (weight : s.weight = old.weight) : s.Valid :=
  ⟨name ▸ h.name, places ▸ h.places, weight ▸ h.weight⟩

end Sector

namespace Tables

/-! ### The rules for all rows -/

/-- The rules that the registry is held to, beyond the links between its rows. -/
structure Ruled (t : Tables) : Prop where
  few : ∀ {id p}, t.parkings.get? id = some p → p.sectors.length ≤ Limits.sectorsPerParking
  valid : ∀ {k s}, t.sectors.get? k = some s → s.Valid
  named : ∀ {k k' s s'}, t.sectors.get? k = some s → t.sectors.get? k' = some s' →
    s.parking = s'.parking → s.name = s'.name → k = k'

namespace Ruled

theorem empty : Tables.empty.Ruled := by
  constructor <;> simp [Tables.empty]

variable {t t' : Tables}

theorem of_subset (h : t.Ruled)
    (few : ∀ {id p}, t'.parkings.get? id = some p → p.sectors.length ≤ Limits.sectorsPerParking)
    (sectors : ∀ {k s}, t'.sectors.get? k = some s → t.sectors.get? k = some s) : t'.Ruled where
  few := few
  valid hs := h.valid (sectors hs)
  named hs hs' := h.named (sectors hs) (sectors hs')

theorem of_sector (h : t.Ruled) {s : Sector}
    (few : ∀ {id p}, t'.parkings.get? id = some p → p.sectors.length ≤ Limits.sectorsPerParking)
    (row : t'.sectors = t.sectors.insert s.id s) (valid : s.Valid)
    (free : ∀ k a, t.sectors.get? k = some a → a.parking = s.parking → a.name = s.name →
      k = s.id) : t'.Ruled := by
  refine ⟨few, fun {k a} ha => ?_, fun {k k' a a'} ha ha' parking name => ?_⟩
  · rw [row, Table.get?_insert] at ha
    split at ha
    · cases ha
      exact valid
    · exact h.valid ha
  · rw [row, Table.get?_insert] at ha ha'
    split at ha <;> split at ha'
    next hk hk' => rw [hk, hk']
    next hk _ =>
      cases ha
      rw [hk, free k' a' ha' parking.symm name.symm]
    next _ hk' =>
      cases ha'
      rw [hk', free k a ha parking name]
    next => exact h.named ha ha' parking name

theorem putSector (h : t.Ruled) {s old : Sector} (hold : t.sectors.get? s.id = some old)
    (parking : s.parking = old.parking) (name : s.name = old.name) (valid : s.Valid) :
    (t.putSector s).Ruled :=
  h.of_sector h.few rfl valid fun _ _ ha hparking hname =>
    h.named ha hold (hparking.trans parking) (hname.trans name)

theorem keepSector (h : t.Ruled) {s old : Sector} (hold : t.sectors.get? s.id = some old)
    (parking : s.parking = old.parking) (name : s.name = old.name)
    (places : s.maxPlaces = old.maxPlaces) (weight : s.weight = old.weight) :
    (t.putSector s).Ruled :=
  h.putSector hold parking name ((h.valid hold).of_same name places weight)

theorem putParking (h : t.Ruled) {p : Parking}
    (few : p.sectors.length ≤ Limits.sectorsPerParking) : (t.putParking p).Ruled := by
  refine h.of_subset (fun {id q} hq => ?_) fun hs => hs
  rw [parkings_putParking, Table.get?_insert] at hq
  split at hq
  · cases hq
    exact few
  · exact h.few hq

theorem deleteSector (h : t.Ruled) (id : Ulid) : (t.deleteSector id).Ruled :=
  h.of_subset h.few fun hs => Table.get?_of_erase (sectors_deleteSector t id ▸ hs)

theorem deleteParking (h : t.Ruled) (ks : List Ulid) (id : Ulid) :
    ((ks.foldl Tables.deleteSector t).deleteParking id).Ruled := by
  rw [foldl_deleteSector]
  refine h.of_subset (fun {k p} hp => ?_) fun {k s} hs => ?_
  · rw [parkings_deleteParking] at hp
    exact h.few (Table.get?_of_erase hp)
  · rw [sectors_deleteParking] at hs
    exact Table.get?_of_foldl_erase hs

theorem putReservation (h : t.Ruled) (r : Reservation) : (t.putReservation r).Ruled :=
  h.of_subset (fun hp => h.few (by simpa using hp)) fun hs => by simpa using hs

theorem addEvent (h : t.Ruled) (e : GateEvent) : (t.addEvent e).Ruled :=
  h.of_subset h.few fun hs => hs

end Ruled

theorem Linked.eq_of_not_isTaken {t : Tables} (h : t.Linked) {id k : Ulid} {p : Parking}
    {s : Sector} {name : String} {besides : Option Ulid} (hp : t.parkings.get? id = some p)
    (free : Registry.isTaken (t.sectorsOf p) name besides = false)
    (hs : t.sectors.get? k = some s) (parking : s.parking = id) (hname : s.name = name) :
    some k = besides := by
  have mem : s ∈ t.sectorsOf p := List.mem_filterMap.2 ⟨k, (h.listed hp).2 ⟨s, hs, parking⟩, hs⟩
  have := List.any_eq_false.1 free s mem
  rw [h.sector_id hs] at this
  simpa [hname] using this

theorem Alike.ruled {t t' : Tables} (h : t.Alike t') (ht : t.Ruled) : t'.Ruled :=
  ht.of_subset (fun hp => ht.few (h.parkings ▸ hp)) fun hs => h.sectors ▸ hs

theorem Forgets.ruled {t t' : Tables} {r : Reservation} (h : t.Forgets r t') (ht : t.Ruled) :
    t'.Ruled :=
  ht.of_subset (fun hp => ht.few (h.parkings ▸ hp)) fun hs => h.sectors ▸ hs

end Tables

/-! ### Transitions -/

namespace Transition

open Tables

variable {settings : Settings} {ctx : Context} {t : Tables} {op : Operation} {ids : List Ulid}
  {txn : Txn}

theorem ruled (h : Transition settings ctx t op ids txn) (ht : t.Linked) (hr : t.Ruled)
    (hok : ∀ c ∈ txn, c.suits t) : (t.apply txn.writes).Ruled := by
  have gate {s old : Sector} {r : Reservation} {e : GateEvent}
      (hs : t.sectors.get? s.id = some old) (parking : s.parking = old.parking)
      (name : s.name = old.name) (places : s.maxPlaces = old.maxPlaces)
      (weight : s.weight = old.weight) :
      (t.apply [.putSector s, .putReservation r, .appendEvent e]).Ruled := by
    rw [apply_gate]
    exact ((hr.keepSector hs parking name places weight).putReservation r).addEvent e
  cases h with
  | createParking => exact hr.putParking (Nat.zero_le _)
  | updateParking _ _ hp =>
    have few := hr.few hp
    exact hr.putParking few
  | @deleteParking id _ p _ hp =>
    rw [Txn.writes_deleteSectors, ht.map_sectorsOf hp, apply_deleteSectors]
    exact hr.deleteParking p.sectors p.id
  | @addSector parking id spec p _ valid hp few free =>
    have guarded : (t.putParking { p with
        sectors := p.sectors ++ [id], version := p.version + 1 }).Ruled :=
      hr.putParking (by simpa using Nat.succ_le_of_lt few)
    refine guarded.of_sector (s := { Sector.ofSpec id parking spec with version := 1 })
      guarded.few rfl (.of_spec valid rfl rfl rfl) fun k a ha hparking hname => ?_
    cases ht.eq_of_not_isTaken hp free ha hparking hname
  | @updateSector id _ spec s _ valid hs _ _ _ same =>
    obtain rfl := ht.sector_id hs
    exact hr.putSector hs rfl same (.of_spec valid rfl rfl rfl)
  | @renameSector id _ spec s p _ valid hs _ _ _ _ hp free =>
    obtain rfl := ht.sector_id hs
    have few := hr.few hp
    have guarded := hr.putParking (p := { p with version := p.version + 1 }) few
    refine guarded.of_sector (s := { s.change spec with version := s.version + 1 })
      guarded.few rfl (.of_spec valid rfl rfl rfl) fun k a ha hparking hname => ?_
    exact Option.some.inj (ht.eq_of_not_isTaken hp free ha hparking hname)
  | activateSector _ hs | deactivateSector _ hs | finalize _ hs =>
    obtain rfl := ht.sector_id hs
    exact hr.keepSector hs rfl rfl rfl rfl
  | @deleteSector id _ s p _ hs _ _ hp =>
    refine Ruled.deleteSector (hr.putParking ?_) s.id
    exact Nat.le_trans (List.length_filter_le _ _) (hr.few hp)
  | @book _ _ _ _ _ _ s _ hs =>
    obtain rfl := ht.sector_id hs
    have guarded := hr.keepSector (s := { s with version := s.version + 1 }) hs rfl rfl rfl rfl
    exact guarded.putReservation _
  | cancel | expire | close => exact hr.putReservation _
  | enter _ _ _ _ _ _ hs taken =>
    obtain ⟨-, rfl⟩ := Sector.takePlace_eq_ok.1 taken
    have row := (ht.sector_id hs).symm ▸ hs
    exact gate row rfl rfl rfl rfl
  | driveIn _ _ hs taken =>
    obtain ⟨-, rfl⟩ := Sector.takePlace_eq_ok.1 taken
    exact gate hs rfl rfl rfl rfl
  | exit _ _ _ _ hs freed | forceExit _ _ _ hs freed =>
    obtain ⟨-, rfl⟩ := Sector.freePlace_eq_ok.1 freed
    have row := (ht.sector_id hs).symm ▸ hs
    exact gate row rfl rfl rfl rfl

end Transition

/-! ### Reachable engines -/

/-- What the registry promises of its rows and of the index of addresses. -/
structure Tables.Integrity (t : Tables) : Prop where
  address : ∀ key id, t.addresses.get? key = some id ↔
    ∃ p, t.parkings.get? id = some p ∧ p.address.key = key
  address_unique : ∀ id id' p p', t.parkings.get? id = some p → t.parkings.get? id' = some p' →
    p.address.key = p'.address.key → id = id'
  sectors_nodup : ∀ id p, t.parkings.get? id = some p → p.sectors.Nodup
  sectors_few : ∀ id p, t.parkings.get? id = some p →
    p.sectors.length ≤ Limits.sectorsPerParking
  sectors_there : ∀ id p, t.parkings.get? id = some p →
    ∀ k ∈ p.sectors, ∃ s, t.sectors.get? k = some s ∧ s.parking = id
  listed : ∀ k s, t.sectors.get? k = some s →
    ∃ p, t.parkings.get? s.parking = some p ∧ k ∈ p.sectors
  name_unique : ∀ k k' s s', t.sectors.get? k = some s → t.sectors.get? k' = some s' →
    s.parking = s'.parking → s.name = s'.name → k = k'
  valid : ∀ k s, t.sectors.get? k = some s → s.Valid
  placed : ∀ id r, t.reservations.get? id = some r →
    ∃ s, t.sectors.get? r.sector = some s ∧ s.parking = r.parking

namespace Engine

variable {e : Engine} {cs : List Commit}

theorem Reachable.ruled (h : e.Reachable cs) : e.tables.Ruled :=
  h.invariant .empty Tables.Alike.ruled (fun _ => Tables.Forgets.ruled)
    fun linked transition hok ruled => transition.ruled linked ruled hok

/-- The registry of every reachable engine is in order. -/
theorem Reachable.integrity (h : e.Reachable cs) : e.tables.Integrity where
  address _ _ := h.linked.address
  address_unique id id' p p' hp hp' key := by
    have own := h.linked.address.2 ⟨p, hp, rfl⟩
    have other := h.linked.address.2 ⟨p', hp', key.symm⟩
    exact Option.some.inj (own.symm.trans other)
  sectors_nodup _ _ := h.linked.sectors_nodup
  sectors_few _ _ := h.ruled.few
  sectors_there _ _ hp _ := (h.linked.listed hp).1
  listed k s hs := by
    obtain ⟨p, hp⟩ := h.linked.owned hs
    exact ⟨p, hp, (h.linked.listed hp).2 ⟨s, hs, rfl⟩⟩
  name_unique _ _ _ _ := h.ruled.named
  valid _ _ := h.ruled.valid
  placed _ _ := h.linked.placed

def movedAway : Engine :=
  (fresh {} .silent (fun n => .ofNat (n + 1)) false).serve [
    .operation ⟨.system, 0⟩ (.createParking ⟨"Rome", "00100", "Corso 1"⟩ none),
    .operation ⟨.system, 0⟩ (.addSector (.ofNat 1) ⟨"AB-01", .covered, 2, 1⟩),
    .operation ⟨.system, 0⟩ (.addSector (.ofNat 1) ⟨"AB-02", .covered, 2, 1⟩),
    .operation ⟨.system, 0⟩ (.deleteSector (.ofNat 2) 1),
    .operation ⟨.system, 0⟩ (.updateSector (.ofNat 3) 1 ⟨"AB-01", .covered, 2, 1⟩),
    .operation ⟨.system, 0⟩
      (.updateParking (.ofNat 1) 5 ⟨"Rome", "00100", "Corso 2"⟩ .leastOccupied),
    .operation ⟨.system, 0⟩ (.createParking ⟨"Rome", "00100", "Corso 1"⟩ none)]

set_option maxRecDepth 10000 in
theorem integrity_movedAway :
    ∃ cs, movedAway.Reachable cs ∧ movedAway.tables.Integrity ∧
      movedAway.tables.addresses.get? "rome|00100|corso 1" = some (.ofNat 4) ∧
      (movedAway.tables.parkings.get? (.ofNat 1)).map (·.sectors) = some [.ofNat 3] ∧
      (movedAway.tables.sectors.get? (.ofNat 3)).map (·.name) = some "AB-01" := by
  obtain ⟨cs, reachable⟩ : ∃ cs, movedAway.Reachable cs := (Reachable.fresh _ _ _ _).serve _
  exact ⟨cs, reachable, reachable.integrity, by decide, by decide, by decide⟩

end Engine

end Carpark
