import Carpark.Proofs.Confinement

/-!
The indexes have every reservation once, and the pages of a listing have every reservation once
that the caller is to see, in the order of the identifiers.
-/

namespace Carpark

/-! ### Pages -/

namespace Page

variable {α : Type} (all : List α)

theorem flatMap_slice (size n : Nat) :
    (List.range n).flatMap (fun i => ((ofSize i size).slice all).items) =
      all.take (n * (ofSize n size).size) := by
  induction n with
  | zero => simp
  | succ n ih =>
    rw [List.range_succ, List.flatMap_append, ih, Nat.succ_mul, List.take_add]
    simp [slice, ofSize]

theorem items_slice_eq_nil {p : Page} (h : all.length ≤ p.number * p.size) :
    (p.slice all).items = [] := by
  rw [slice, List.drop_of_length_le h, List.take_nil]

end Page

/-! ### Indexes -/

namespace Tables.Indexed

variable {t : Tables}

theorem count_bySector (h : t.Indexed) (k id : Ulid) :
    (t.bySector.getList k).count id =
      if (t.reservations.get? id).any (·.sector = k) then 1 else 0 := by
  rw [(h.bySector_nodup k).count]
  simp only [h.bySector, Option.any_eq_true, decide_eq_true_eq]

theorem count_byClient (h : t.Indexed) (c id : Ulid) :
    (t.byClient.getList c).count id =
      if (t.reservations.get? id).any (·.client = some c) then 1 else 0 := by
  rw [(h.byClient_nodup c).count]
  simp only [h.byClient, Option.any_eq_true, decide_eq_true_eq]

theorem map_reservationsOfClient (h : t.Indexed) (c : Ulid) :
    (t.reservationsOfClient c).map (·.id) = t.byClient.getList c := by
  refine Table.map_filterMap fun id hid => ?_
  obtain ⟨r, hr, -⟩ := h.byClient.1 hid
  exact ⟨r, hr, h.reservation_id hr⟩

theorem mem_values (h : t.Indexed) {r : Reservation} :
    r ∈ t.reservations.values ↔ t.reservations.get? r.id = some r :=
  ⟨h.get?_of_mem_values, fun hr => Table.mem_values.2 ⟨r.id, hr⟩⟩

theorem values_ascending (h : t.Indexed) : t.reservations.values.Pairwise (·.id < ·.id) := by
  have keys : (t.reservations.values.map (·.id)).Pairwise (· < ·) := by
    rw [h.map_id_values]
    exact List.pairwise_map.2 t.reservations.sorted
  exact List.pairwise_map.1 keys

end Tables.Indexed

/-! ### What is listed -/

namespace Listing

def listed (t : Tables) (caller : Caller) : List Reservation :=
  if caller.isPrivileged then t.reservations.values else ownReservations t caller

variable {t : Tables} {caller : Caller}

theorem listed_of_privileged (h : caller.isPrivileged = true) :
    listed t caller = t.reservations.values := if_pos h

theorem listed_of_unprivileged (h : caller.isPrivileged = false) :
    listed t caller = ownReservations t caller := by
  simp [listed, h]

theorem eval_listed (ctx : Context) (page : Page) (ids : Nat → Ulid) (n : Nat) :
    (reservations ctx page).run.eval t ids n = (.ok (page.slice (listed t ctx.caller)), n) := by
  cases privileged : ctx.caller.isPrivileged with
  | false => rw [eval_reservations privileged, listed_of_unprivileged privileged]
  | true =>
    rw [listed_of_privileged privileged, reservations, visible, privileged]
    rfl

theorem mem_ownReservations (h : t.Indexed) {r : Reservation} :
    r ∈ ownReservations t caller ↔ t.reservations.get? r.id = some r ∧ r.IsOwn caller := by
  cases hclient : caller.client? with
  | none =>
    cases hclient' : r.client <;> simp [ownReservations, Reservation.IsOwn, hclient, hclient']
  | some c =>
    simp only [ownReservations, hclient, List.mem_mergeSort, Tables.reservationsOfClient,
      List.mem_filterMap, Reservation.IsOwn]
    constructor
    · rintro ⟨id, hid, hr⟩
      obtain ⟨r', hr', owner⟩ := h.byClient.1 hid
      cases hr.symm.trans hr'
      exact ⟨h.reservation_id hr ▸ hr, by simp [owner], owner⟩
    · rintro ⟨hr, -, owner⟩
      exact ⟨r.id, h.byClient.2 ⟨r, hr, owner⟩, hr⟩

theorem ownReservations_ascending (h : t.Indexed) :
    (ownReservations t caller).Pairwise (·.id < ·.id) := by
  cases hclient : caller.client? with
  | none => simp [ownReservations, hclient]
  | some c =>
    simp only [ownReservations, hclient]
    generalize hsorted : (t.reservationsOfClient c).mergeSort (fun a b => a.id.val ≤ b.id.val) = l
    have ascending : l.Pairwise fun a b => a.id.val ≤ b.id.val := by
      have sorted := @List.pairwise_mergeSort Reservation (fun a b => a.id.val ≤ b.id.val)
        (fun a b c => by simpa using Nat.le_trans)
        (fun a b => by simpa using Nat.le_total ..) (t.reservationsOfClient c)
      rw [hsorted] at sorted
      exact sorted.imp fun le => of_decide_eq_true le
    have apart : l.Pairwise fun a b => a.id ≠ b.id := by
      have perm := (List.mergeSort_perm (t.reservationsOfClient c)
        fun a b => a.id.val ≤ b.id.val).map (·.id)
      rw [hsorted, h.map_reservationsOfClient] at perm
      exact List.pairwise_map.1 (perm.nodup_iff.2 (h.byClient_nodup c))
    refine (ascending.and apart).imp fun h => ?_
    exact Nat.lt_of_le_of_ne h.1 fun same => h.2 (Ulid.ext_val same)

theorem mem_listed (h : t.Indexed) {r : Reservation} :
    r ∈ listed t caller ↔
      t.reservations.get? r.id = some r ∧ r.isVisibleTo caller = true := by
  cases privileged : caller.isPrivileged with
  | false =>
    rw [listed_of_unprivileged privileged, mem_ownReservations h]
    simp [Reservation.IsOwn, Reservation.isVisibleTo, privileged]
  | true =>
    rw [listed_of_privileged privileged, h.mem_values]
    simp [Reservation.isVisibleTo, privileged]

theorem listed_ascending (h : t.Indexed) : (listed t caller).Pairwise (·.id < ·.id) := by
  cases privileged : caller.isPrivileged with
  | false =>
    rw [listed_of_unprivileged privileged]
    exact ownReservations_ascending h
  | true =>
    rw [listed_of_privileged privileged]
    exact h.values_ascending

end Listing

/-! ### Reachable engines -/

namespace Engine

variable {e : Engine} {cs : List Commit}

theorem answer_reservations (e : Engine) (ctx : Context) (page : Page) :
    (e.run ((Operation.reservations page).program e.settings ctx)).answer =
      .ok (.reservations (page.slice (Listing.listed e.tables ctx.caller))) := by
  rw [Operation.program, Program.answering, run_bind_answer, Program.ofLookup, run_ofReading,
    Listing.eval_listed]
  rfl

/-- The indexes are exact. A reservation is on no sector that is deleted, unless the log was opened
without it. The pages of a listing are what the caller is to see, cut into pieces. -/
theorem Reachable.listings (h : e.Reachable cs) :
    (∀ k id, (e.tables.bySector.getList k).count id =
      if (e.tables.reservations.get? id).any (·.sector = k) then 1 else 0) ∧
    (∀ c id, (e.tables.byClient.getList c).count id =
      if (e.tables.reservations.get? id).any (·.client = some c) then 1 else 0) ∧
    (∀ (q : Request) k s, e.tables.sectors.get? k = some s →
      (e.run (q.program e.settings)).engine.tables.sectors.get? k = none →
      ∀ (e₀ : Engine) cs₀, e₀.Reachable cs₀ → ∀ opens, Leads (fun _ _ => True) opens e₀ cs₀ e cs →
        ∀ id (r : Reservation), e₀.tables.reservations.get? id = some r → r.sector = k →
          Drops (fun _ _ => True) opens e₀ cs₀ e cs id ∧ opens ≠ Eq) ∧
    ∀ ctx : Context, ∃ l : List Reservation, l.Pairwise (·.id < ·.id) ∧
      (∀ r, r ∈ l ↔ e.tables.reservations.get? r.id = some r ∧ r.isVisibleTo ctx.caller = true) ∧
      (ctx.caller.isPrivileged = true → l = e.tables.reservations.values) ∧
      (∀ c, ctx.caller = .client c →
        ∀ r, r ∈ l ↔ e.tables.reservations.get? r.id = some r ∧ r.client = some c) ∧
      (ctx.caller = .anonymous → l = []) ∧
      ∀ size, ∃ pages : Nat → Paged Reservation,
        (∀ i, (e.run ((Operation.reservations (.ofSize i size)).program e.settings ctx)).answer =
          .ok (.reservations (pages i)) ∧ (pages i).total = l.length) ∧
        ∀ n, l.length ≤ n * (Page.ofSize n size).size →
          (List.range n).flatMap (fun i => (pages i).items) = l ∧ (pages n).items = [] := by
  have indexed := h.linked.toIndexed
  refine ⟨indexed.count_bySector, indexed.count_byClient,
    fun q k s hs deleted e₀ cs₀ h₀ opens leads id r hr onIt => ?_,
    fun ctx => ⟨Listing.listed e.tables ctx.caller, Listing.listed_ascending indexed,
      fun r => Listing.mem_listed indexed, Listing.listed_of_privileged, fun c client r => ?_,
      fun anonymous => ?_, fun size => ⟨fun i => (Page.ofSize i size).slice
        (Listing.listed e.tables ctx.caller), fun i => ⟨answer_reservations e ctx _, rfl⟩,
        fun n hn => ⟨?_, Page.items_slice_eq_nil _ hn⟩⟩⟩⟩
  · have drops : Drops (fun _ _ => True) opens e₀ cs₀ e cs id := by
      rcases leads.keeps_booking h₀ hr with ⟨r', hr', -, sector, -⟩ | drops
      · -- the reservation is still there after the request, and so is its sector
        exfalso
        have later : Leads (fun _ _ => True) Eq e cs _ _ := .asked q .here trivial
        obtain ⟨a, ha, -, same, -⟩ := (later.keeps_booking h hr').resolve_right Drops.of_onward
        obtain ⟨s', hs', -⟩ := (h.asked q).linked.placed ha
        rw [same, sector, onIt, deleted] at hs'
        cases hs'
      · exact drops
    refine ⟨drops, ?_⟩
    rintro rfl
    exact Drops.of_onward drops
  · rw [Listing.mem_listed indexed, client]
    cases hclient : r.client <;>
      simp [Reservation.isVisibleTo, Caller.isPrivileged, Caller.client?, hclient]
  · rw [anonymous]
    rfl
  · rw [Page.flatMap_slice, List.take_of_length_le hn]

def oneBooking : Engine :=
  oneCar.serve [.operation ⟨.client (.ofNat 7), 0⟩
    (.book (.ofNat 2) Limits.earliest (Limits.earliest + 3600000))]

set_option maxRecDepth 10000 in
theorem listings_oneBooking :
    ∃ cs, oneBooking.Reachable cs ∧
      (oneBooking.tables.bySector.getList (.ofNat 2)).count (.ofNat 4) = 1 ∧
      (oneBooking.tables.byClient.getList (.ofNat 7)).count (.ofNat 4) = 0 ∧
      (oneBooking.tables.byClient.getList (.ofNat 7)).count (.ofNat 6) = 1 ∧
      ∃ pages : Nat → Paged Reservation,
        (∀ i, (oneBooking.run ((Operation.reservations (.ofSize i 1)).program oneBooking.settings
          ⟨.system, 0⟩)).answer = .ok (.reservations (pages i)) ∧ (pages i).total = 2) ∧
        (pages 0).items ++ (pages 1).items = oneBooking.tables.reservations.values ∧
        (pages 2).items = [] := by
  obtain ⟨cs, reachable⟩ : ∃ cs, oneBooking.Reachable cs := by
    obtain ⟨cs, one⟩ : ∃ cs, oneCar.Reachable cs := (Reachable.fresh _ _ _ _).serve _
    exact one.serve _
  obtain ⟨bySector, byClient, -, lists⟩ := Reachable.listings reachable
  obtain ⟨l, -, -, all, -, -, paging⟩ := lists ⟨.system, 0⟩
  obtain rfl := all rfl
  obtain ⟨pages, answers, whole⟩ := paging 1
  obtain ⟨items, none⟩ := whole 2 (by decide)
  refine ⟨cs, reachable, (bySector _ _).trans (by decide), (byClient _ _).trans (by decide),
    (byClient _ _).trans (by decide), pages, fun i => ?_, ?_, none⟩
  · exact ⟨(answers i).1, (answers i).2.trans (by decide)⟩
  · simpa [List.range_succ] using items

end Engine

end Carpark
