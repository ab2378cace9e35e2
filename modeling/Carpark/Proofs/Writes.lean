import Carpark.Proofs.Table
import Carpark.Store.Txn

/-!
What each write changes in the tables. A gate event and a row touch different tables, so a commit
may as well write its events last.
-/

namespace Carpark

theorem Commit.ordered_perm (c : Commit) : c.ordered.Perm c := List.filter_append_perm _ c

end Carpark

namespace Carpark.Tables

variable (t : Tables)

/-! ### Gate events -/

section addEvent

variable (e : GateEvent)

@[simp] theorem parkings_addEvent : (t.addEvent e).parkings = t.parkings := rfl
@[simp] theorem sectors_addEvent : (t.addEvent e).sectors = t.sectors := rfl
@[simp] theorem reservations_addEvent : (t.addEvent e).reservations = t.reservations := rfl
@[simp] theorem addresses_addEvent : (t.addEvent e).addresses = t.addresses := rfl
@[simp] theorem bySector_addEvent : (t.addEvent e).bySector = t.bySector := rfl
@[simp] theorem byClient_addEvent : (t.addEvent e).byClient = t.byClient := rfl

theorem eventsOf_addEvent (id : Ulid) :
    (t.addEvent e).eventsOf id =
      if id = e.reservation then t.eventsOf id ++ [e] else t.eventsOf id := by
  simp only [eventsOf, addEvent, Table.getList_push]
  split
  next h => rw [h]
  next => rfl

end addEvent

/-! ### Parkings -/

section putParking

variable (p : Parking)

@[simp] theorem parkings_putParking :
    (t.putParking p).parkings = t.parkings.insert p.id p := rfl
@[simp] theorem sectors_putParking : (t.putParking p).sectors = t.sectors := rfl
@[simp] theorem reservations_putParking : (t.putParking p).reservations = t.reservations := rfl
@[simp] theorem eventsOf_putParking : (t.putParking p).eventsOf = t.eventsOf := rfl
@[simp] theorem bySector_putParking : (t.putParking p).bySector = t.bySector := rfl
@[simp] theorem byClient_putParking : (t.putParking p).byClient = t.byClient := rfl

theorem addresses_putParking (key : String) :
    (t.putParking p).addresses.get? key =
      if key = p.address.key then some p.id
      else if (t.parkings.get? p.id).any (·.address.key = key) then none
      else t.addresses.get? key := by
  simp only [putParking, Table.get?_insert]
  by_cases hkey : key = p.address.key
  · simp [hkey]
  · simp only [hkey, if_false]
    cases t.parkings.get? p.id with
    | none => simp
    | some old =>
      by_cases hold : old.address.key = p.address.key
      · have : ¬ p.address.key = key := fun h => hkey h.symm
        simp [hold, this]
      · simp [hold, Table.get?_erase, eq_comm]

end putParking

section deleteParking

variable (id : Ulid)

@[simp] theorem sectors_deleteParking : (t.deleteParking id).sectors = t.sectors := by
  unfold deleteParking
  split <;> rfl

@[simp] theorem reservations_deleteParking :
    (t.deleteParking id).reservations = t.reservations := by
  unfold deleteParking
  split <;> rfl

@[simp] theorem eventsOf_deleteParking : (t.deleteParking id).eventsOf = t.eventsOf := by
  unfold deleteParking
  split <;> rfl

@[simp] theorem bySector_deleteParking : (t.deleteParking id).bySector = t.bySector := by
  unfold deleteParking
  split <;> rfl

@[simp] theorem byClient_deleteParking : (t.deleteParking id).byClient = t.byClient := by
  unfold deleteParking
  split <;> rfl

@[simp] theorem parkings_deleteParking :
    (t.deleteParking id).parkings = t.parkings.erase id := by
  unfold deleteParking
  split
  next => rfl
  next h => rw [Table.erase_eq_self h]

theorem addresses_deleteParking (key : String) :
    (t.deleteParking id).addresses.get? key =
      if (t.parkings.get? id).any (·.address.key = key) then none else t.addresses.get? key := by
  unfold deleteParking
  split
  next old h => simp [h, Table.get?_erase, eq_comm]
  next h => simp [h]

end deleteParking

/-! ### Sectors -/

section putSector

variable (s : Sector)

@[simp] theorem parkings_putSector : (t.putSector s).parkings = t.parkings := rfl
@[simp] theorem sectors_putSector : (t.putSector s).sectors = t.sectors.insert s.id s := rfl
@[simp] theorem reservations_putSector : (t.putSector s).reservations = t.reservations := rfl
@[simp] theorem eventsOf_putSector : (t.putSector s).eventsOf = t.eventsOf := rfl
@[simp] theorem addresses_putSector : (t.putSector s).addresses = t.addresses := rfl
@[simp] theorem bySector_putSector : (t.putSector s).bySector = t.bySector := rfl
@[simp] theorem byClient_putSector : (t.putSector s).byClient = t.byClient := rfl

end putSector

section deleteSector

variable (id : Ulid)

@[simp] theorem parkings_deleteSector : (t.deleteSector id).parkings = t.parkings := rfl
@[simp] theorem sectors_deleteSector : (t.deleteSector id).sectors = t.sectors.erase id := rfl
@[simp] theorem reservations_deleteSector :
    (t.deleteSector id).reservations = t.reservations := rfl
@[simp] theorem eventsOf_deleteSector : (t.deleteSector id).eventsOf = t.eventsOf := rfl
@[simp] theorem addresses_deleteSector : (t.deleteSector id).addresses = t.addresses := rfl
@[simp] theorem bySector_deleteSector : (t.deleteSector id).bySector = t.bySector.erase id := rfl
@[simp] theorem byClient_deleteSector : (t.deleteSector id).byClient = t.byClient := rfl

theorem foldl_deleteSector (ids : List Ulid) :
    ids.foldl deleteSector t =
      { t with sectors := ids.foldl Table.erase t.sectors,
               bySector := ids.foldl Table.erase t.bySector } := by
  induction ids generalizing t with
  | nil => rfl
  | cons id ids ih => exact ih _

end deleteSector

/-! ### Reservations -/

section putReservation

variable (r : Reservation)

@[simp] theorem parkings_putReservation : (t.putReservation r).parkings = t.parkings := by
  unfold putReservation
  split <;> rfl

@[simp] theorem sectors_putReservation : (t.putReservation r).sectors = t.sectors := by
  unfold putReservation
  split <;> rfl

@[simp] theorem reservations_putReservation :
    (t.putReservation r).reservations = t.reservations.insert r.id r := by
  unfold putReservation
  split <;> rfl

@[simp] theorem eventsOf_putReservation : (t.putReservation r).eventsOf = t.eventsOf := by
  unfold putReservation
  split <;> rfl

@[simp] theorem addresses_putReservation : (t.putReservation r).addresses = t.addresses := by
  unfold putReservation
  split <;> rfl

theorem bySector_putReservation (k : Ulid) :
    (t.putReservation r).bySector.getList k =
      if t.reservations.get? r.id = none ∧ r.sector = k then t.bySector.getList k ++ [r.id]
      else t.bySector.getList k := by
  unfold putReservation
  by_cases h : t.reservations.get? r.id = none
  · by_cases hk : k = r.sector
    · simp [h, hk, Table.getList_push]
    · simp [h, hk, Table.getList_push, Ne.symm hk]
  · simp [h, Option.isSome_iff_ne_none]

theorem byClient_putReservation (c : Ulid) :
    (t.putReservation r).byClient.getList c =
      if t.reservations.get? r.id = none ∧ r.client = some c then t.byClient.getList c ++ [r.id]
      else t.byClient.getList c := by
  unfold putReservation
  by_cases h : t.reservations.get? r.id = none
  · cases hr : r.client with
    | none => simp [h]
    | some c' =>
      by_cases hc : c = c'
      · simp [h, hc, Table.getList_push]
      · simp [h, hc, Table.getList_push, Ne.symm hc]
  · simp [h, Option.isSome_iff_ne_none]

end putReservation

/-! ### Commits -/

theorem write_addEvent (e : GateEvent) {w : Write} (h : w.isEvent = false) :
    (t.addEvent e).write w = (t.write w).addEvent e := by
  cases w with
  | putParking p => rfl
  | deleteParking id =>
    simp only [write, deleteParking, parkings_addEvent]
    split <;> rfl
  | putSector s => rfl
  | deleteSector id => rfl
  | putReservation r =>
    simp only [write, putReservation, addEvent]
    by_cases old : (t.reservations.get? r.id).isSome
    · simp only [old, if_true]
    · simp only [old]
      rfl
  | appendEvent e' => cases h

theorem foldl_write_addEvent (e : GateEvent) {c : Commit} (h : ∀ w ∈ c, w.isEvent = false) :
    c.foldl write (t.addEvent e) = (c.foldl write t).addEvent e := by
  induction c generalizing t with
  | nil => rfl
  | cons w c ih =>
    have hc : ∀ w ∈ c, w.isEvent = false := fun w hw => h w (List.mem_cons_of_mem _ hw)
    simp only [List.foldl_cons, write_addEvent t e (h w List.mem_cons_self), ih _ hc]

theorem apply_rows {c : Commit} (h : ∀ w ∈ c, w.isEvent = false) :
    t.apply c = c.foldl write t := by
  have events : c.filter Write.isEvent = [] := by simpa using h
  have rows : c.filter (!·.isEvent) = c := by simpa using h
  simp only [apply, Commit.ordered, events, rows, List.nil_append]

theorem apply_rows_event {c : Commit} (e : GateEvent) (h : ∀ w ∈ c, w.isEvent = false) :
    t.apply (c ++ [.appendEvent e]) = (c.foldl write t).addEvent e := by
  have events : c.filter Write.isEvent = [] := by simpa using h
  have rows : c.filter (!·.isEvent) = c := by simpa using h
  rw [← foldl_write_addEvent t e h]
  simp only [apply, Commit.ordered, List.filter_append, events, rows, List.nil_append,
    List.foldl_append]
  rfl

theorem apply_gate (s : Sector) (r : Reservation) (e : GateEvent) :
    t.apply [.putSector s, .putReservation r, .appendEvent e] =
      ((t.putSector s).putReservation r).addEvent e :=
  t.apply_rows_event (c := [.putSector s, .putReservation r]) e (by simp [Write.isEvent])

theorem apply_deleteSectors (ids : List Ulid) (id : Ulid) :
    t.apply (ids.map .deleteSector ++ [.deleteParking id]) =
      (ids.foldl deleteSector t).deleteParking id := by
  rw [apply_rows, List.foldl_append, List.foldl_map]
  · rfl
  · intro w hw
    simp only [List.mem_append, List.mem_map, List.mem_singleton] at hw
    rcases hw with ⟨k, -, rfl⟩ | rfl <;> rfl

/-! ### Rows after a commit -/

variable {t}

/-- What holds after a commit held before, or one of its writes has brought it about. -/
theorem of_apply {P : Tables → Prop} {Q : Write → Prop}
    (step : ∀ {t w}, P (t.write w) → P t ∨ Q w) {c : Commit} (h : P (t.apply c)) :
    P t ∨ ∃ w ∈ c, Q w := by
  have all (ws : Commit) {t : Tables} (h : P (ws.foldl write t)) : P t ∨ ∃ w ∈ ws, Q w := by
    induction ws generalizing t with
    | nil => exact .inl h
    | cons w ws ih =>
      rcases ih h with before | ⟨w', hw', brought⟩
      · exact (step before).imp_right fun brought => ⟨w, List.mem_cons_self, brought⟩
      · exact .inr ⟨w', List.mem_cons_of_mem _ hw', brought⟩
  refine (all c.ordered h).imp_right fun ⟨w, hw, brought⟩ => ⟨w, ?_, brought⟩
  rcases List.mem_append.1 hw with hw | hw
  · exact (List.mem_filter.1 hw).1
  · exact (List.mem_filter.1 hw).1

variable {c : Commit} {id : Ulid}

theorem parkings_of_apply {p : Parking} (h : (t.apply c).parkings.get? id = some p) :
    t.parkings.get? id = some p ∨ .putParking p ∈ c := by
  refine (of_apply (P := (·.parkings.get? id = some p)) (Q := (· = .putParking p))
    (fun {t w} h => ?_) h).imp_right fun ⟨w, hw, put⟩ => put ▸ hw
  cases w with
  | putParking q =>
    rw [write, parkings_putParking, Table.get?_insert] at h
    split at h
    · cases h
      exact .inr rfl
    · exact .inl h
  | deleteParking k =>
    rw [write, parkings_deleteParking] at h
    exact .inl (Table.get?_of_erase h)
  | putSector | deleteSector | putReservation | appendEvent => exact .inl (by simpa [write] using h)

theorem sectors_of_apply {s : Sector} (h : (t.apply c).sectors.get? id = some s) :
    t.sectors.get? id = some s ∨ s.id = id ∧ .putSector s ∈ c := by
  refine (of_apply (P := (·.sectors.get? id = some s)) (Q := fun w => s.id = id ∧ w = .putSector s)
    (fun {t w} h => ?_) h).imp_right fun ⟨w, hw, same, put⟩ => ⟨same, put ▸ hw⟩
  cases w with
  | putSector s' =>
    rw [write, sectors_putSector, Table.get?_insert] at h
    split at h
    next same =>
      cases h
      exact .inr ⟨same.symm, rfl⟩
    next => exact .inl h
  | deleteSector k =>
    rw [write, sectors_deleteSector] at h
    exact .inl (Table.get?_of_erase h)
  | putParking | deleteParking | putReservation | appendEvent =>
    exact .inl (by simpa [write] using h)

end Carpark.Tables
