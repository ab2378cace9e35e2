import Carpark.Proofs.LinkedSteps
import Mathlib.Data.List.Forall2

/-!
Which identifiers an operation draws does not matter as long as no row has them: with others it
makes the same transition, with those in place of these.
-/

namespace Carpark

/-- The identifier of the second list that stands where `u` stands in the first. -/
def Ulid.renew : List Ulid → List Ulid → Ulid → Ulid
  | v :: ids, v' :: ids', u => if u = v then v' else renew ids ids' u
  | _, _, u => u

/-- The same write but for identifiers that were drawn, and for codes made of them. -/
inductive Write.Renewed (ids ids' : List Ulid) : Write → Write → Prop
  | putParking {p p' : Parking} :
    p' = { p with
      id := Ulid.renew ids ids' p.id, sectors := p.sectors.map (Ulid.renew ids ids') } →
    Renewed ids ids' (.putParking p) (.putParking p')
  | deleteParking (id : Ulid) : Renewed ids ids' (.deleteParking id) (.deleteParking id)
  | putSector {s s' : Sector} :
    s' = { s with id := Ulid.renew ids ids' s.id } →
    Renewed ids ids' (.putSector s) (.putSector s')
  | deleteSector (id : Ulid) : Renewed ids ids' (.deleteSector id) (.deleteSector id)
  | putReservation {r r' : Reservation} :
    r' = { r with id := Ulid.renew ids ids' r.id, code := r'.code } →
    (r'.code = r.code ∨
      ∃ u ∈ ids, r.code = some u.code ∧ r'.code = some (Ulid.renew ids ids' u).code) →
    Renewed ids ids' (.putReservation r) (.putReservation r')
  | appendEvent {e e' : GateEvent} :
    e' = { e with
      id := Ulid.renew ids ids' e.id, reservation := Ulid.renew ids ids' e.reservation } →
    Renewed ids ids' (.appendEvent e) (.appendEvent e')

def Tables.Lacks (t : Tables) (u : Ulid) : Prop :=
  t.parkings.get? u = none ∧ t.sectors.get? u = none ∧ t.reservations.get? u = none

instance (t : Tables) (u : Ulid) : Decidable (t.Lacks u) := inferInstanceAs (Decidable (_ ∧ _ ∧ _))

namespace Ulid

theorem renew_of_notMem {ids : List Ulid} (ids' : List Ulid) {u : Ulid} (h : u ∉ ids) :
    renew ids ids' u = u := by
  induction ids generalizing ids' with
  | nil => rfl
  | cons v ids ih =>
    cases ids' with
    | nil => rfl
    | cons v' ids' =>
      have hv : u ≠ v := fun e => h (e ▸ .head _)
      rw [renew, if_neg hv]
      exact ih ids' fun hu => h (.tail _ hu)

theorem renew_head (u u' : Ulid) (ids ids' : List Ulid) :
    renew (u :: ids) (u' :: ids') u = u' :=
  if_pos rfl

theorem renew_second {u v u' v' : Ulid} (h : v ≠ u) : renew [u, v] [u', v'] v = v' := by
  rw [renew, if_neg h, renew_head]

theorem map_renew_of_notMem {ids ks : List Ulid} (ids' : List Ulid) (h : ∀ k ∈ ks, k ∉ ids) :
    ks.map (renew ids ids') = ks := by
  rw [List.map_congr_left fun k hk => renew_of_notMem ids' (h k hk), List.map_id']

end Ulid

theorem Write.renewed_refl (w : Write) : Renewed [] [] w w := by
  have same : Ulid.renew [] [] = id := rfl
  cases w with
  | putParking p => exact .putParking (by simp [same])
  | deleteParking id => exact .deleteParking id
  | putSector s => exact .putSector rfl
  | deleteSector id => exact .deleteSector id
  | putReservation r => exact .putReservation rfl (.inl rfl)
  | appendEvent e => exact .appendEvent rfl

theorem Write.renewed_exit {u u' reservation : Ulid} {s : Sector} {r : Reservation} {time : Ms}
    {kind : GateKind} {forced : Bool} (hs : Ulid.renew [u] [u'] s.id = s.id)
    (hr : Ulid.renew [u] [u'] r.id = r.id)
    (hreservation : Ulid.renew [u] [u'] reservation = reservation) :
    List.Forall₂ (Renewed [u] [u'])
      [.putSector s, .putReservation r, .appendEvent ⟨u, reservation, time, kind, forced⟩]
      [.putSector s, .putReservation r, .appendEvent ⟨u', reservation, time, kind, forced⟩] := by
  refine .cons (.putSector ?_) (.cons (.putReservation ?_ (.inl rfl))
    (.cons (.appendEvent ?_) .nil))
  · rw [hs]
  · rw [hr]
  · rw [hreservation, Ulid.renew_head]

namespace Transition

variable {settings : Settings} {ctx : Context} {t : Tables} {op : Operation}
  {ids ids' : List Ulid} {txn : Txn}

theorem renew (h : Transition settings ctx t op ids txn) (ht : t.Linked)
    (hok : ∀ c ∈ txn, c.suits t)
    (hop : ∀ parking anonymous, op ≠ .driveIn parking anonymous) (nodup : ids.Nodup)
    (lacks : ∀ u ∈ ids, t.Lacks u) (length : ids'.length = ids.length)
    (lacks' : ∀ u ∈ ids', t.Lacks u) :
    ∃ txn', Transition settings ctx t op ids' txn' ∧ (∀ c ∈ txn', c.suits t) ∧
      List.Forall₂ (Write.Renewed ids ids') txn.writes txn'.writes := by
  cases ids with
  | nil =>
    obtain rfl := List.length_eq_zero_iff.1 length
    exact ⟨txn, h, hok, List.forall₂_same.2 fun w _ => w.renewed_refl⟩
  | cons u us =>
    have parking_old {p : Parking} {k : Ulid} (hp : t.parkings.get? k = some p) :
        k ∉ u :: us := by
      intro hk
      cases (lacks k hk).1.symm.trans hp
    have sector_old {s : Sector} {k : Ulid} (hs : t.sectors.get? k = some s) : k ∉ u :: us := by
      intro hk
      cases (lacks k hk).2.1.symm.trans hs
    have reservation_old {r : Reservation} {k : Ulid} (hr : t.reservations.get? k = some r) :
        k ∉ u :: us := by
      intro hk
      cases (lacks k hk).2.2.symm.trans hr
    cases h with
    | @createParking address _ _ admin valid =>
      obtain ⟨u', rfl⟩ := List.length_eq_one_iff.1 length
      have unclaimed : ∀ o, t.addresses.get? address.key = some o → o = u' := by
        intro o ho
        obtain rfl := hok _ (.head _) o ho
        obtain ⟨p, hp, -⟩ := ht.address.1 ho
        exact absurd (.head _) (parking_old hp)
      refine ⟨_, .createParking admin valid, ?_, .cons (.putParking ?_) .nil⟩
      · exact List.forall_mem_cons.2
          ⟨unclaimed, List.forall_mem_singleton.2 (lacks' u' (.head _)).1⟩
      · simp [Ulid.renew_head]
    | @addSector parking _ spec p admin valid hp room free =>
      obtain ⟨u', rfl⟩ := List.length_eq_one_iff.1 length
      have row := hok _ (.head _)
      have hid : Ulid.renew [u] [u'] p.id = p.id :=
        Ulid.renew_of_notMem _ (ht.parking_id hp ▸ parking_old hp)
      have hsectors : p.sectors.map (Ulid.renew [u] [u']) = p.sectors := by
        refine Ulid.map_renew_of_notMem _ fun k hk => ?_
        obtain ⟨s, hs, -⟩ := (ht.listed hp).1 hk
        exact sector_old hs
      refine ⟨_, .addSector admin valid hp room free, ?_,
        .cons (.putParking ?_) (.cons (.putSector ?_) .nil)⟩
      · exact List.forall_mem_cons.2 ⟨row, List.forall_mem_singleton.2 (lacks' u' (.head _)).2.1⟩
      · simp [hid, hsectors, Ulid.renew_head]
      · simp [Sector.ofSpec, Ulid.renew_head]
    | @book _ _ _ _ _ _ s request hs admits room =>
      obtain ⟨u', rfl⟩ := List.length_eq_one_iff.1 length
      have hid : Ulid.renew [u] [u'] s.id = s.id :=
        Ulid.renew_of_notMem _ (ht.sector_id hs ▸ sector_old hs)
      refine ⟨_, .book request hs admits room, ?_,
        .cons (.putSector ?_) (.cons (.putReservation ?_ (.inl rfl)) .nil)⟩
      · exact List.forall_mem_cons.2
          ⟨hok _ (.head _), List.forall_mem_singleton.2 (lacks' u' (.head _)).2.2⟩
      · simp [hid]
      · simp [Ulid.renew_head]
    | @enter id _ v r s taken hr owner created outside begun notOver hs htaken =>
      obtain ⟨u', v', rfl⟩ := List.length_eq_two.1 length
      have hne : v ≠ u := fun h => (List.nodup_cons.1 nodup).1 (h ▸ .head _)
      obtain ⟨-, rfl⟩ := Sector.takePlace_eq_ok.1 htaken
      have row := hok _ (.tail _ (.head _))
      have hsector : Ulid.renew [u, v] [u', v'] s.id = s.id :=
        Ulid.renew_of_notMem _ (ht.sector_id hs ▸ sector_old hs)
      have hreservation : Ulid.renew [u, v] [u', v'] r.id = r.id :=
        Ulid.renew_of_notMem _ (ht.reservation_id hr ▸ reservation_old hr)
      have hid : Ulid.renew [u, v] [u', v'] id = id :=
        Ulid.renew_of_notMem _ (reservation_old hr)
      refine ⟨_, .enter hr owner created outside begun notOver hs htaken, ?_,
        .cons (.putSector ?_) (.cons (.putReservation ?_ (.inr ⟨u, .head _, rfl, ?_⟩))
          (.cons (.appendEvent ?_) .nil))⟩
      · exact List.forall_mem_cons.2 ⟨hok _ (.head _),
          List.forall_mem_cons.2 ⟨row, List.forall_mem_singleton.2 trivial⟩⟩
      · simp [hsector]
      · simp [hreservation]
      · simp [Ulid.renew_head]
      · simp [hid, Ulid.renew_second hne]
    | driveIn => exact absurd rfl (hop _ _)
    | @exit id _ _ _ r s freed hr allowed created inside hs hfreed =>
      obtain ⟨u', rfl⟩ := List.length_eq_one_iff.1 length
      obtain ⟨-, rfl⟩ := Sector.freePlace_eq_ok.1 hfreed
      refine ⟨_, .exit hr allowed created inside hs hfreed, ?_, Write.renewed_exit ?_ ?_ ?_⟩
      · exact List.forall_mem_cons.2 ⟨hok _ (.head _),
          List.forall_mem_cons.2 ⟨hok _ (.tail _ (.head _)), List.forall_mem_singleton.2 trivial⟩⟩
      · exact Ulid.renew_of_notMem _ (ht.sector_id hs ▸ sector_old hs)
      · exact Ulid.renew_of_notMem _ (ht.reservation_id hr ▸ reservation_old hr)
      · exact Ulid.renew_of_notMem _ (reservation_old hr)
    | @forceExit id _ r s freed admin hr due hs hfreed =>
      obtain ⟨u', rfl⟩ := List.length_eq_one_iff.1 length
      obtain ⟨-, rfl⟩ := Sector.freePlace_eq_ok.1 hfreed
      refine ⟨_, .forceExit admin hr due hs hfreed, ?_, Write.renewed_exit ?_ ?_ ?_⟩
      · exact List.forall_mem_cons.2 ⟨hok _ (.head _),
          List.forall_mem_cons.2 ⟨hok _ (.tail _ (.head _)), List.forall_mem_singleton.2 trivial⟩⟩
      · exact Ulid.renew_of_notMem _ (ht.sector_id hs ▸ sector_old hs)
      · exact Ulid.renew_of_notMem _ (ht.reservation_id hr ▸ reservation_old hr)
      · exact Ulid.renew_of_notMem _ (reservation_old hr)

end Transition

end Carpark
