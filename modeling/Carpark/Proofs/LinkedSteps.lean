import Carpark.Proofs.Ledger
import Carpark.Proofs.Linked
import Carpark.Proofs.Transition

/-!
Transitions keep the tables linked.
-/

namespace Carpark

open Tables

variable {settings : Settings} {ctx : Context} {t : Tables} {op : Operation} {ids : List Ulid}
  {txn : Txn}

theorem Txn.writes_deleteSectors (ss : List Sector) (p : Parking) :
    Txn.writes (ss.map .deleteSector ++ [.deleteParking p]) =
      (ss.map (·.id)).map .deleteSector ++ [.deleteParking p.id] := by
  simp [Txn.writes, List.filterMap_map, Change.write?, Function.comp_def]

namespace Transition

theorem linked (h : Transition settings ctx t op ids txn) (ht : t.Linked)
    (hok : ∀ c ∈ txn, c.suits t) : (t.apply txn.writes).Linked := by
  cases h with
  | @createParking address policy id _ _ =>
    have free := hok _ (.head _)
    have new : t.parkings.get? id = none := hok _ (.tail _ (.head _))
    exact ht.putParking (by simp [new]) free
  | @updateParking id _ address _ p _ _ hp _ =>
    have free := hok _ (.head _)
    obtain rfl := ht.parking_id hp
    exact ht.putParking (by simp [hp]) free
  | @deleteParking id _ p _ hp _ unused =>
    obtain rfl := ht.parking_id hp
    rw [Txn.writes_deleteSectors, ht.map_sectorsOf hp, apply_deleteSectors]
    refine ht.deleteParking hp fun k hk => ?_
    obtain ⟨s, hs, rfl⟩ := List.mem_map.1 (ht.map_sectorsOf hp ▸ hk)
    exact hasHistory_eq_false.1 (unused s hs)
  | @addSector parking id spec p _ _ hp _ _ =>
    obtain rfl := ht.parking_id hp
    have new : t.sectors.get? id = none := hok _ (.tail _ (.head _))
    exact ht.addSector (s := { Sector.ofSpec id p.id spec with version := 1 }) hp new rfl rfl rfl
  | @updateSector id _ spec s _ _ hs =>
    obtain rfl := ht.sector_id hs
    exact ht.putSector hs rfl
  | @renameSector id _ spec s p _ _ hs _ _ _ _ hp _ =>
    obtain rfl := ht.sector_id hs
    have hp : t.parkings.get? p.id = some p := ht.parking_id hp ▸ hp
    have guarded : (t.putParking { p with version := p.version + 1 }).Linked := by
      refine ht.putParking (by simp [hp]) fun o ho => ?_
      rw [ht.address.2 ⟨p, hp, rfl⟩] at ho
      exact (Option.some.inj ho).symm
    exact guarded.putSector hs rfl
  | @activateSector id _ s _ hs =>
    obtain rfl := ht.sector_id hs
    exact ht.putSector hs rfl
  | @deactivateSector id _ _ s _ hs =>
    obtain rfl := ht.sector_id hs
    exact ht.putSector hs rfl
  | @deleteSector id _ s p _ hs _ unused hp =>
    obtain rfl := ht.sector_id hs
    have hid := ht.parking_id hp
    exact ht.deleteSector hs hp (hasHistory_eq_false.1 unused) hid rfl rfl
  | @finalize id s _ hs =>
    obtain rfl := ht.sector_id hs
    exact ht.putSector hs rfl
  | @book sector client id _ _ window s _ hs =>
    obtain rfl := ht.sector_id hs
    have new : t.reservations.get? id = none := hok _ (.tail _ (.head _))
    exact (ht.putSector (s := { s with version := s.version + 1 }) hs rfl).newReservation new
      (Table.get?_insert_self _ _ _) rfl
  | @cancel id r hr =>
    obtain rfl := ht.reservation_id hr
    exact ht.changeReservation hr rfl rfl rfl
  | @enter id u v r s _ hr _ _ _ _ _ hs taken =>
    obtain rfl := ht.reservation_id hr
    have row : t.sectors.get? s.id = some s := (ht.sector_id hs).symm ▸ hs
    obtain ⟨-, rfl⟩ := Sector.takePlace_eq_ok.1 taken
    exact ht.gate row rfl hr rfl rfl rfl rfl
  | @driveIn parking u v w _ p s _ hp listed hs taken =>
    obtain ⟨-, rfl⟩ := Sector.takePlace_eq_ok.1 taken
    have new : t.reservations.get? v = none := hok _ (.tail _ (.head _))
    obtain ⟨s', hs', hparking⟩ := (ht.listed hp).1 listed
    rw [hs] at hs'
    cases hs'
    exact ht.driveIn hs rfl new rfl hparking.symm rfl
  | @exit id u _ _ r s _ hr _ _ _ hs freed =>
    obtain rfl := ht.reservation_id hr
    have row : t.sectors.get? s.id = some s := (ht.sector_id hs).symm ▸ hs
    obtain ⟨-, rfl⟩ := Sector.freePlace_eq_ok.1 freed
    exact ht.gate row rfl hr rfl rfl rfl rfl
  | @expire id r _ hr =>
    obtain rfl := ht.reservation_id hr
    exact ht.changeReservation hr rfl rfl rfl
  | @forceExit id u r s _ _ hr _ hs freed =>
    obtain rfl := ht.reservation_id hr
    have row : t.sectors.get? s.id = some s := (ht.sector_id hs).symm ▸ hs
    obtain ⟨-, rfl⟩ := Sector.freePlace_eq_ok.1 freed
    exact ht.gate row rfl hr rfl rfl rfl rfl
  | @close id r _ hr =>
    obtain rfl := ht.reservation_id hr
    exact ht.changeReservation hr rfl rfl rfl

end Transition

end Carpark
