import Carpark.Log.Frame
import Carpark.Proofs.Codec
import Carpark.Proofs.LinkedSteps

/-!
How long the binary forms are. Whatever an operation commits is short, and so is what a snapshot
has for a parking; only the gate log of a reservation has no bound.
-/

namespace Carpark

/-! ### Texts -/

namespace Text

theorem length_le_utf8ByteSize (s : String) : s.length ≤ s.utf8ByteSize := by
  rw [← String.ofList_toList (s := s)]
  induction s.toList with
  | nil => exact Nat.le_refl _
  | cons c cs ih =>
    have pos := Char.utf8Size_pos c
    rw [String.ofList_cons, String.length_append, String.utf8ByteSize_append,
      String.length_singleton, String.utf8ByteSize_singleton]
    omega

theorem utf8ByteSize_le (s : String) : s.utf8ByteSize ≤ 4 * s.length := by
  rw [← String.ofList_toList (s := s)]
  induction s.toList with
  | nil => exact Nat.le_refl _
  | cons c cs ih =>
    have most := Char.utf8Size_le_four c
    rw [String.ofList_cons, String.length_append, String.utf8ByteSize_append,
      String.length_singleton, String.utf8ByteSize_singleton]
    omega

theorem utf8ByteSize_repeated (c : Char) (n : Nat) :
    (String.ofList (List.replicate n c)).utf8ByteSize = n * c.utf8Size := by
  induction n with
  | zero => rw [Nat.zero_mul]; rfl
  | succ n ih =>
    rw [List.replicate_succ, String.ofList_cons, String.utf8ByteSize_append,
      String.utf8ByteSize_singleton, ih, Nat.succ_mul, Nat.add_comm]

end Text

/-! ### Forms -/

namespace Binary

theorem length_list {α : Type} (write : α → List UInt8) (l : List α) :
    (list write l).length = 8 + (l.flatMap write).length := by
  rw [list, List.length_append, length_nat]

theorem length_flatMap_replicate {α : Type} (write : α → List UInt8) (n : Nat) (a : α) :
    ((List.replicate n a).flatMap write).length = n * (write a).length := by
  induction n with
  | zero => rw [List.replicate_zero, List.flatMap_nil, List.length_nil, Nat.zero_mul]
  | succ n ih =>
    rw [List.replicate_succ, List.flatMap_cons, List.length_append, ih, Nat.succ_mul, Nat.add_comm]

theorem length_flatMap_le {α : Type} {write : α → List UInt8} {l : List α} {n : Nat}
    (h : ∀ a ∈ l, (write a).length ≤ n) : (l.flatMap write).length ≤ l.length * n := by
  induction l with
  | nil => exact Nat.zero_le _
  | cons a l ih =>
    obtain ⟨first, rest⟩ := List.forall_mem_cons.1 h
    rw [List.flatMap_cons, List.length_append, List.length_cons, Nat.succ_mul, Nat.add_comm]
    exact Nat.add_le_add (ih rest) first

theorem le_length_flatMap {α : Type} {write : α → List UInt8} {l : List α} {n : Nat}
    (h : ∀ a ∈ l, n ≤ (write a).length) : l.length * n ≤ (l.flatMap write).length := by
  induction l with
  | nil => exact Nat.le_of_eq (Nat.zero_mul n)
  | cons a l ih =>
    obtain ⟨first, rest⟩ := List.forall_mem_cons.1 h
    rw [List.flatMap_cons, List.length_append, List.length_cons, Nat.succ_mul, Nat.add_comm]
    exact Nat.add_le_add first (ih rest)

theorem length_string (s : String) : (string s).length = 8 + s.utf8ByteSize := by
  rw [string, List.length_append, length_nat, Array.length_toList]
  rfl

theorem length_text (u : Ulid) : u.text.length = 26 := by
  rw [Ulid.text, String.length_ofList, length_digits]

theorem length_code (u : Ulid) : u.code.length = 8 := by
  rw [Ulid.code, String.length_ofList, length_digits]

theorem length_ulid_le (u : Ulid) : (ulid u).length ≤ 112 := by
  have size := Text.utf8ByteSize_le u.text
  rw [ulid, length_string]
  rw [length_text] at size
  omega

theorem le_length_ulid (u : Ulid) : 34 ≤ (ulid u).length := by
  have size := Text.length_le_utf8ByteSize u.text
  rw [ulid, length_string]
  rw [length_text] at size
  omega

theorem length_option_le {α : Type} {write : α → List UInt8} {n : Nat} {o : Option α}
    (h : ∀ a, o = some a → (write a).length ≤ n) : (option write o).length ≤ n + 1 := by
  cases o with
  | none => exact Nat.le_trans (Nat.le_of_eq (length_nat 1 _)) (Nat.le_add_left 1 n)
  | some a =>
    have inner := h a rfl
    rw [option, List.length_append, bool, length_nat]
    omega

theorem length_event_le (e : GateEvent) : (event e).length ≤ 237 := by
  have first := length_ulid_le e.id
  have second := length_ulid_le e.reservation
  simp only [event, int, case, bool, List.length_append, length_nat]
  omega

theorem le_length_event (e : GateEvent) : 81 ≤ (event e).length := by
  have first := le_length_ulid e.id
  have second := le_length_ulid e.reservation
  simp only [event, int, case, bool, List.length_append, length_nat]
  omega

theorem length_parking_le (p : Parking) : (parking p).length ≤
    160 + (p.address.city.utf8ByteSize + p.address.zip.utf8ByteSize +
      p.address.street.utf8ByteSize) + p.sectors.length * 112 := by
  have id := length_ulid_le p.id
  have sectors : (p.sectors.flatMap ulid).length ≤ p.sectors.length * 112 :=
    length_flatMap_le fun u _ => length_ulid_le u
  simp only [parking, address, case, List.length_append, length_nat, length_list, length_string]
  omega

theorem length_sector_le (s : Sector) : (sector s).length ≤ 266 + s.name.utf8ByteSize := by
  have id := length_ulid_le s.id
  have parking := length_ulid_le s.parking
  have time : (option int s.deactivation).length ≤ 9 :=
    length_option_le fun t _ => Nat.le_of_eq (length_nat 8 _)
  simp only [sector, case, bool, List.length_append, length_nat, length_string]
  omega

theorem length_reservation_le {r : Reservation} {n : Nat}
    (h : ∀ code, r.code = some code → code.utf8ByteSize ≤ n) :
    (reservation r).length ≤ 487 + n := by
  have id := length_ulid_le r.id
  have parking := length_ulid_le r.parking
  have sector := length_ulid_le r.sector
  have client : (option ulid r.client).length ≤ 113 := length_option_le fun u _ => length_ulid_le u
  have code : (option string r.code).length ≤ 8 + n + 1 := length_option_le fun code some => by
    rw [length_string]
    exact Nat.add_le_add_left (h code some) 8
  simp only [reservation, span, int, case, bool, List.length_append, length_nat]
  omega

end Binary

/-! ### Rows whose texts and lists are bounded -/

def Address.Short (a : Address) : Prop :=
  a.city.utf8ByteSize ≤ Limits.city ∧ a.zip.utf8ByteSize ≤ Limits.zip ∧
    a.street.utf8ByteSize ≤ Limits.street

/-- What a write puts into a row has bounded texts and lists. -/
def Write.Slight : Write → Prop
  | .putParking p => p.address.Short ∧ p.sectors.length ≤ Limits.sectorsPerParking
  | .putSector s => s.name.length ≤ 5
  | .putReservation r => ∀ code, r.code = some code → code.length ≤ 8
  | _ => True

theorem Write.Slight.length_le {w : Write} (h : w.Slight) : (Binary.write w).length ≤ 30000 := by
  cases w with
  | putParking p =>
    obtain ⟨⟨city, zip, street⟩, few⟩ := h
    have row := Binary.length_parking_le p
    simp only [Limits.city, Limits.zip, Limits.street, Limits.sectorsPerParking] at *
    rw [Binary.write, List.length_append, Binary.length_nat]
    omega
  | deleteParking id | deleteSector id =>
    have row := Binary.length_ulid_le id
    rw [Binary.write, List.length_append, Binary.length_nat]
    omega
  | putSector s =>
    have short : s.name.length ≤ 5 := h
    have name := Text.utf8ByteSize_le s.name
    have row := Binary.length_sector_le s
    rw [Binary.write, List.length_append, Binary.length_nat]
    omega
  | putReservation r =>
    have row : (Binary.reservation r).length ≤ 487 + 4 * 8 :=
      Binary.length_reservation_le fun code some =>
        Nat.le_trans (Text.utf8ByteSize_le code) (Nat.mul_le_mul_left 4 (h code some))
    rw [Binary.write, List.length_append, Binary.length_nat]
    omega
  | appendEvent e =>
    have row := Binary.length_event_le e
    rw [Binary.write, List.length_append, Binary.length_nat]
    omega

def Commit.Slight (c : Commit) : Prop :=
  (∀ w ∈ c, w.Slight) ∧ c.length ≤ Limits.sectorsPerParking + 1

theorem Commit.Slight.length_le {c : Commit} (h : c.Slight) :
    (Binary.commit c).length ≤ Frame.mostBytes := by
  obtain ⟨slight, few⟩ := h
  have writes : (c.flatMap Binary.write).length ≤ c.length * 30000 :=
    Binary.length_flatMap_le fun w hw => (slight w hw).length_le
  rw [Binary.commit, Binary.length_list]
  simp only [Limits.sectorsPerParking, Frame.mostBytes] at *
  omega

namespace Tables

structure Slight (t : Tables) : Prop where
  parking : ∀ {id p}, t.parkings.get? id = some p → (Write.putParking p).Slight
  sector : ∀ {id s}, t.sectors.get? id = some s → (Write.putSector s).Slight
  reservation : ∀ {id r}, t.reservations.get? id = some r → (Write.putReservation r).Slight

namespace Slight

variable {t t' : Tables}

theorem empty : Tables.empty.Slight := by
  constructor <;> simp [Tables.empty]

theorem of_subset (h : t.Slight)
    (parkings : ∀ id p, t'.parkings.get? id = some p → t.parkings.get? id = some p)
    (sectors : ∀ id s, t'.sectors.get? id = some s → t.sectors.get? id = some s)
    (reservations : ∀ id r, t'.reservations.get? id = some r → t.reservations.get? id = some r) :
    t'.Slight :=
  ⟨fun hp => h.parking (parkings _ _ hp), fun hs => h.sector (sectors _ _ hs),
    fun hr => h.reservation (reservations _ _ hr)⟩

theorem write (h : t.Slight) {w : Write} (hw : w.Slight) : (t.write w).Slight := by
  cases w with
  | putParking p =>
    refine ⟨fun hq => ?_, h.sector, h.reservation⟩
    change (t.parkings.insert p.id p).get? _ = _ at hq
    rw [Table.get?_insert] at hq
    split at hq
    · cases hq
      exact hw
    · exact h.parking hq
  | deleteParking id =>
    refine h.of_subset (fun _ _ hp => ?_) (fun _ _ hs => ?_) (fun _ _ hr => ?_)
    · rw [Tables.write, parkings_deleteParking] at hp
      exact Table.get?_of_erase hp
    · rwa [Tables.write, sectors_deleteParking] at hs
    · rwa [Tables.write, reservations_deleteParking] at hr
  | putSector s =>
    refine ⟨h.parking, fun ha => ?_, h.reservation⟩
    rw [Tables.write, sectors_putSector, Table.get?_insert] at ha
    split at ha
    · cases ha
      exact hw
    · exact h.sector ha
  | deleteSector id =>
    refine h.of_subset (fun _ _ hp => hp) (fun _ _ hs => ?_) (fun _ _ hr => hr)
    rw [Tables.write, sectors_deleteSector] at hs
    exact Table.get?_of_erase hs
  | putReservation r =>
    refine ⟨fun hp => ?_, fun hs => ?_, fun hr => ?_⟩
    · rw [Tables.write, parkings_putReservation] at hp
      exact h.parking hp
    · rw [Tables.write, sectors_putReservation] at hs
      exact h.sector hs
    · rw [Tables.write, reservations_putReservation, Table.get?_insert] at hr
      split at hr
      · cases hr
        exact hw
      · exact h.reservation hr
  | appendEvent e => exact h.of_subset (fun _ _ => id) (fun _ _ => id) (fun _ _ => id)

theorem apply (h : t.Slight) {c : Commit} (hc : ∀ w ∈ c, w.Slight) : (t.apply c).Slight := by
  have ordered : ∀ w ∈ c.ordered, w.Slight := fun w hw =>
    hc w ((Commit.ordered_perm c).mem_iff.1 hw)
  rw [Tables.apply]
  generalize c.ordered = ws at ordered
  induction ws generalizing t with
  | nil => exact h
  | cons w ws ih =>
    obtain ⟨first, rest⟩ := List.forall_mem_cons.1 ordered
    exact ih (h.write first) rest

end Slight

end Tables

/-! ### Requests that are let through -/

theorem requireValid_eq_ok {violations : List Violation} :
    requireValid violations = .ok () ↔ violations = [] := by
  cases violations <;> simp [requireValid]

theorem Address.short_of_valid {a : Address} (h : requireValid a.violations = .ok ()) :
    a.Short := by
  have none := requireValid_eq_ok.1 h
  simp only [violations, List.append_eq_nil_iff] at none
  have fits {field value : String} {most : Nat} (h : fieldViolations field value most = []) :
      value.utf8ByteSize ≤ most := by
    rw [fieldViolations] at h
    split at h
    next => cases h
    next =>
      split at h
      next => cases h
      next small => exact Nat.not_lt.1 small
  exact ⟨fits none.1.1.1, fits none.1.1.2, fits none.1.2⟩

theorem SectorSpec.boundViolations_eq_nil {field : String} {n most : Nat} :
    boundViolations field n most = [] ↔ 1 ≤ n ∧ n ≤ most := by
  rw [boundViolations]
  split <;> simp <;> omega

theorem SectorSpec.violations_eq_nil {spec : SectorSpec} :
    spec.violations = [] ↔ Sector.isValidName spec.name = true ∧
      (1 ≤ spec.maxPlaces ∧ spec.maxPlaces ≤ Limits.placesPerSector) ∧
        1 ≤ spec.weight ∧ spec.weight ≤ Limits.sectorWeight := by
  rw [violations, List.append_eq_nil_iff, List.append_eq_nil_iff, boundViolations_eq_nil,
    boundViolations_eq_nil, and_assoc]
  split <;> simp [*]

theorem SectorSpec.name_short {spec : SectorSpec} (h : requireValid spec.violations = .ok ()) :
    spec.name.length ≤ 5 := by
  have valid := (violations_eq_nil.1 (requireValid_eq_ok.1 h)).1
  rw [Sector.isValidName] at valid
  split at valid
  next shape => rw [← String.length_toList, shape]; exact Nat.le_refl 5
  next => cases valid

namespace Transition

open Tables

variable {settings : Settings} {ctx : Context} {t : Tables} {op : Operation} {ids : List Ulid}
  {txn : Txn}

/-- Whatever an operation commits is slight. -/
theorem slight (h : Transition settings ctx t op ids txn) (ht : t.Slight) :
    Commit.Slight txn.writes := by
  have one {w : Write} (hw : w.Slight) : Commit.Slight [w] :=
    ⟨List.forall_mem_singleton.2 hw, Nat.le_add_left 1 _⟩
  have two {v w : Write} (hv : v.Slight) (hw : w.Slight) : Commit.Slight [v, w] :=
    ⟨List.forall_mem_cons.2 ⟨hv, List.forall_mem_singleton.2 hw⟩, Nat.le_add_left 2 255⟩
  have gate {s : Sector} {r : Reservation} {e : GateEvent} (hs : (Write.putSector s).Slight)
      (hr : (Write.putReservation r).Slight) :
      Commit.Slight [.putSector s, .putReservation r, .appendEvent e] :=
    ⟨List.forall_mem_cons.2 ⟨hs, List.forall_mem_cons.2 ⟨hr, List.forall_mem_singleton.2 trivial⟩⟩,
      Nat.le_add_left 3 254⟩
  cases h with
  | createParking _ valid => exact one ⟨Address.short_of_valid valid, Nat.zero_le _⟩
  | updateParking _ valid hp => exact one ⟨Address.short_of_valid valid, (ht.parking hp).2⟩
  | @deleteParking id _ p _ hp =>
    have few : (t.sectorsOf p).length ≤ Limits.sectorsPerParking :=
      Nat.le_trans (List.length_filterMap_le _ _) (ht.parking hp).2
    rw [Txn.writes_deleteSectors]
    refine ⟨fun w hw => ?_, ?_⟩
    · rcases List.mem_append.1 hw with hw | hw
      · obtain ⟨k, -, rfl⟩ := List.mem_map.1 hw
        trivial
      · cases List.mem_singleton.1 hw
        trivial
    · simpa using few
  | @addSector parking id spec p _ valid hp few =>
    refine two ⟨(ht.parking hp).1, ?_⟩ (SectorSpec.name_short valid)
    simpa using Nat.succ_le_of_lt few
  | updateSector _ valid => exact one (SectorSpec.name_short valid)
  | renameSector _ valid _ _ _ _ _ hp =>
    have parking := ht.parking hp
    exact two parking (SectorSpec.name_short valid)
  | activateSector _ hs | deactivateSector _ hs | finalize _ hs =>
    have sector := ht.sector hs
    exact one sector
  | deleteSector _ _ _ _ hp =>
    have parking := ht.parking hp
    exact two ⟨parking.1, Nat.le_trans (List.length_filter_le _ _) parking.2⟩ trivial
  | book _ hs =>
    have sector := ht.sector hs
    exact two sector nofun
  | cancel hr | expire _ hr | close _ hr =>
    have reservation := ht.reservation hr
    exact one reservation
  | @enter _ u _ _ _ _ hr _ _ _ _ _ hs taken =>
    obtain ⟨-, rfl⟩ := Sector.takePlace_eq_ok.1 taken
    have sector := ht.sector hs
    refine gate sector fun code hcode => ?_
    cases hcode
    exact Nat.le_of_eq (Binary.length_code u)
  | @driveIn _ u _ _ _ _ _ _ _ _ hs taken =>
    obtain ⟨-, rfl⟩ := Sector.takePlace_eq_ok.1 taken
    have sector := ht.sector hs
    refine gate sector fun code hcode => ?_
    cases hcode
    exact Nat.le_of_eq (Binary.length_code u)
  | exit hr _ _ _ hs freed | forceExit _ hr _ hs freed =>
    obtain ⟨-, rfl⟩ := Sector.freePlace_eq_ok.1 freed
    have sector := ht.sector hs
    have reservation := ht.reservation hr
    exact gate sector reservation

end Transition

theorem Tables.Slight.parkingCommit {t : Tables} (ht : t.Slight) {id : Ulid} {p : Parking}
    (hp : t.parkings.get? id = some p) :
    Commit.Slight (.putParking p :: (t.sectorsOf p).map .putSector) := by
  have parking := ht.parking hp
  refine ⟨List.forall_mem_cons.2 ⟨parking, List.forall_mem_map.2 fun s hs => ?_⟩, ?_⟩
  · obtain ⟨k, -, hk⟩ := List.mem_filterMap.1 hs
    exact ht.sector hk
  · rw [List.length_cons, List.length_map]
    exact Nat.succ_le_succ (Nat.le_trans (List.length_filterMap_le _ _) parking.2)

end Carpark
