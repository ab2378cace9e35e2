import Carpark.Proofs.Traffic
import Carpark.Store.Shared

/-!
What a reader finds while a commit is being written to the tables. The row whose version is raised
on account of a new row is written first, so there is an instant at which the version is the new
one and the new row is missing. Whoever counts at that instant misses it, and at no other.
-/

namespace Carpark

/-! ### In the middle of a commit -/

/-- The tables when the gate events of a commit and the first `k` of its rows are written. -/
def Tables.applyUpTo (t : Tables) (c : Commit) (k : Nat) : Tables :=
  (c.ordered.take (c.countP Write.isEvent + k)).foldl write t

namespace SharedStore

variable {task : TaskId} {txn : Txn} {taken : List Nat}

def steps (task : TaskId) (txn : Txn) : Nat → SharedStore × Stage → Option (SharedStore × Stage)
  | 0, p => some p
  | n + 1, (s, stage) => (s.stepCommit task txn stage).bind (steps task txn n)

theorem steps_applying (s : SharedStore) (c : Commit) {n : Nat} (h : n ≤ c.length) :
    ∃ s', steps task txn n (s, .applying taken c) = some (s', .applying taken (c.drop n)) ∧
      s'.store.tables = (c.take n).foldl Tables.write s.store.tables := by
  induction c generalizing s n with
  | nil =>
    obtain rfl := Nat.le_zero.1 h
    exact ⟨s, rfl, rfl⟩
  | cons w c ih =>
    cases n with
    | zero => exact ⟨s, rfl, rfl⟩
    | succ n => exact ih _ (Nat.le_of_succ_le_succ h)

/-- These are the tables that others see while a job is writing its rows. -/
theorem steps_applyUpTo (s : SharedStore) {k : Nat}
    (h : txn.writes.countP Write.isEvent + k ≤ txn.writes.ordered.length) :
    ∃ n rest s', steps task txn n (s, .applying taken txn.writes.ordered) =
        some (s', .applying taken rest) ∧
      s'.store.tables = s.store.tables.applyUpTo txn.writes k := by
  obtain ⟨s', steps, tables⟩ := steps_applying s txn.writes.ordered h
  exact ⟨_, _, s', steps, tables⟩

end SharedStore

namespace Tables

variable (t : Tables)

theorem applyUpTo_eq (c : Commit) (k : Nat) :
    t.applyUpTo c k =
      ((c.filter (!·.isEvent)).take k).foldl write ((c.filter Write.isEvent).foldl write t) := by
  rw [applyUpTo, Commit.ordered, List.countP_eq_length_filter, List.take_length_add_append,
    List.foldl_append]

theorem applyUpTo_of_length_le {c : Commit} {k : Nat} (h : c.length ≤ k) :
    t.applyUpTo c k = t.apply c := by
  have rows : (c.filter (!·.isEvent)).length ≤ k := Nat.le_trans (List.length_filter_le _ c) h
  rw [applyUpTo_eq, List.take_of_length_le rows, apply, Commit.ordered, List.foldl_append]

theorem foldl_appendEvent (es : List GateEvent) :
    ∃ events, (es.map Write.appendEvent).foldl write t = { t with events } := by
  induction es generalizing t with
  | nil => exact ⟨_, rfl⟩
  | cons e es ih => exact ih (t.addEvent e)

theorem applyUpTo_pair (w w' : Write) (es : List GateEvent) (hw : w.isEvent = false)
    (hw' : w'.isEvent = false) :
    ∃ events, t.applyUpTo (w :: w' :: es.map .appendEvent) 0 = { t with events } ∧
      t.applyUpTo (w :: w' :: es.map .appendEvent) 1 = write { t with events } w ∧
      ∀ k, 1 < k → t.applyUpTo (w :: w' :: es.map .appendEvent) k =
        write (write { t with events } w) w' := by
  obtain ⟨events, h⟩ := t.foldl_appendEvent es
  have kept : (w :: w' :: es.map .appendEvent).filter Write.isEvent = es.map .appendEvent := by
    rw [List.filter_cons_of_neg (by simp [hw]), List.filter_cons_of_neg (by simp [hw'])]
    exact List.filter_eq_self.2 (List.forall_mem_map.2 fun e _ => rfl)
  have rows : (w :: w' :: es.map .appendEvent).filter (!·.isEvent) = [w, w'] := by
    rw [List.filter_cons_of_pos (by simp [hw]), List.filter_cons_of_pos (by simp [hw'])]
    rw [List.filter_eq_nil_iff.2 (List.forall_mem_map.2 fun e _ => by simp [Write.isEvent])]
  refine ⟨events, ?_, ?_, fun k hk => ?_⟩
  · rw [applyUpTo_eq, kept, h]
    rfl
  · rw [applyUpTo_eq, kept, rows, h]
    rfl
  · rw [applyUpTo_eq, kept, rows, h, List.take_of_length_le hk]
    rfl

/-! ### Members -/

/-- The rows that are found under a row: the reservations of a sector, the sectors of a parking. -/
def members (t : Tables) : RowKey → List Ulid
  | .sector id => (t.reservationsOfSector id).map (·.id)
  | .parking id => ((t.parkings.get? id).toList.flatMap t.sectorsOf).map (·.id)
  | .reservation _ | .address _ => []

variable {t}

theorem Indexed.members_sector (h : t.Indexed) (k : Ulid) :
    t.members (.sector k) = t.bySector.getList k :=
  h.map_reservationsOfSector k

theorem members_parking {k : Ulid} {p : Parking} (hp : t.parkings.get? k = some p) :
    t.members (.parking k) = (t.sectorsOf p).map (·.id) := by
  simp [members, hp]

theorem members_parking_append {k row : Ulid} {p : Parking} {old : List Ulid}
    (hp : t.parkings.get? k = some p) (listed : p.sectors = old ++ [row])
    (others : ∀ id ∈ old, ∃ s, t.sectors.get? id = some s ∧ s.id = id) :
    t.members (.parking k) = old ++ (t.sectors.get? row).toList.map (·.id) := by
  rw [members_parking hp, sectorsOf, listed, List.filterMap_append, List.map_append,
    Table.map_filterMap others]
  cases hrow : t.sectors.get? row with
  | none => rw [List.filterMap_cons_none hrow]; rfl
  | some s => rw [List.filterMap_cons_some hrow]; rfl

end Tables

/-- A row under which others are found, and the version of which changes when there is a new one,
still covers them. -/
theorem Later.members {m m' : Moment} (h : Later m m') {guard : RowKey} {v v' : Version}
    (hv : m.tables.version? guard = some v) (hv' : m'.tables.version? guard = some v') :
    v ≤ v' ∧ (v = v' → m'.tables.members guard = m.tables.members guard) := by
  cases guard with
  | parking id =>
    obtain ⟨p, hp, rfl⟩ := Option.map_eq_some_iff.1 hv
    obtain ⟨p', hp', rfl⟩ := Option.map_eq_some_iff.1 hv'
    obtain ⟨q, hq, le, same⟩ := h.parking (m.parking_used hp) hp'
    cases hp.symm.trans hq
    refine ⟨le, fun hv => ?_⟩
    obtain ⟨rfl, -⟩ := same hv
    rw [Tables.members_parking hp, Tables.members_parking hp', m.linked.map_sectorsOf hp,
      m'.linked.map_sectorsOf hp']
  | sector id =>
    obtain ⟨s, hs, rfl⟩ := Option.map_eq_some_iff.1 hv
    obtain ⟨s', hs', rfl⟩ := Option.map_eq_some_iff.1 hv'
    obtain ⟨q, hq, -, le, same⟩ := h.sector (m.sector_used hs) hs'
    cases hs.symm.trans hq
    refine ⟨le, fun hv => ?_⟩
    rw [m.linked.members_sector, m'.linked.members_sector, (same hv).2]
  | reservation id =>
    obtain ⟨r, hr, rfl⟩ := Option.map_eq_some_iff.1 hv
    obtain ⟨r', hr', rfl⟩ := Option.map_eq_some_iff.1 hv'
    obtain ⟨q, hq, becomes, -⟩ := h.keeps id r hr
    cases hr'.symm.trans hq
    exact ⟨becomes.version, fun _ => rfl⟩
  | address key => cases hv

/-! ### Readers -/

/-- What is found by reading a version at the instant `k` and counting afterwards. The index of a
sector is read at once; the sectors of a parking one after another, the last at `j`. -/
inductive Counts (view : Nat → Tables) : RowKey → Nat → Version → Nat → List Ulid → Prop
  | sector {id : Ulid} {s : Sector} {k j last : Nat} {rs : List Reservation} :
    (view k).sectors.get? id = some s → k ≤ j →
    Lookup.SeesRows view (· ≤ ·) (fun t => t.reservations.get?) j ((view j).bySector.getList id) rs
      last →
    Counts view (.sector id) k s.version j (rs.map (·.id))
  | parking {id : Ulid} {p : Parking} {k j : Nat} {ss : List Sector} :
    (view k).parkings.get? id = some p →
    Lookup.SeesRows view (· ≤ ·) (fun t => t.sectors.get?) k p.sectors ss j →
    Counts view (.parking id) k p.version j (ss.map (·.id))

namespace Lookup

variable {α : Type} {view : Nat → Tables} {get : Tables → Ulid → Option α} {l l' : List Ulid}
  {as : List α} {i j : Nat}

theorem le_of_seesRows (h : SeesRows view (· ≤ ·) get i l as j) : i ≤ j := by
  induction h with
  | nil i => exact Nat.le_refl i
  | cons step _ ih => exact Nat.le_trans step ih

theorem map_seesRows {key : α → Ulid} (h : SeesRows view (· ≤ ·) get i l as j)
    (found : ∀ id ∈ l, ∀ n, i ≤ n → ∃ a, get (view n) id = some a ∧ key a = id) :
    as.map key = l := by
  induction h with
  | nil i => rfl
  | @cons i n j id l as step _ ih =>
    obtain ⟨a, ha, hkey⟩ := found id (.head _) n step
    rw [ha, List.map_append, ih fun k hk m hm => found k (.tail _ hk) m (Nat.le_trans step hm)]
    simp [hkey]

theorem seesRows_append (h : SeesRows view (· ≤ ·) get i (l ++ l') as j) :
    ∃ bs bs' n, as = bs ++ bs' ∧ SeesRows view (· ≤ ·) get i l bs n ∧
      SeesRows view (· ≤ ·) get n l' bs' j := by
  induction l generalizing i as with
  | nil => exact ⟨[], as, i, rfl, .nil i, h⟩
  | cons id l ih =>
    cases h with
    | cons step h =>
      obtain ⟨bs, bs', n, rfl, first, second⟩ := ih h
      exact ⟨_, bs', n, (List.append_assoc _ _ _).symm, .cons step first, second⟩

end Lookup

theorem Counts.version {view : Nat → Tables} {guard : RowKey} {k j : Nat} {u : Version}
    {seen : List Ulid} (h : Counts view guard k u j seen) :
    (view k).version? guard = some u := by
  cases h with
  | sector hs _ _ => exact Option.map_eq_some_iff.2 ⟨_, hs, rfl⟩
  | parking hp _ => exact Option.map_eq_some_iff.2 ⟨_, hp, rfl⟩

/-- How a commit that puts a row under another one comes into sight: the version first, then the
row. -/
structure Exposes (view : Nat → Tables) (guard : RowKey) (v : Version) (old : List Ulid)
    (row : Ulid) : Prop where
  initial : (view 0).version? guard = some v
  raised : ∀ k, 0 < k → (view k).version? guard = some (v + 1)
  early : ∀ k, k ≤ 1 → (view k).members guard = old
  late : ∀ k, 1 < k → (view k).members guard = old ++ [row]
  new : row ∉ old
  /-- A reader that finds the new version counts what there is at the instant that decides. -/
  counts : ∀ {k u j seen}, 0 < k → Counts view guard k u j seen →
    k ≤ j ∧ seen = (view j).members guard

namespace Counts

variable {view : Nat → Tables} {id : Ulid} {k j : Nat} {u : Version} {seen : List Ulid}

theorem sector_members (h : Counts view (.sector id) k u j seen)
    (indexed : ∀ n, (view n).Indexed)
    (grows : ∀ n, j ≤ n → (view j).members (.sector id) ⊆ (view n).members (.sector id)) :
    k ≤ j ∧ seen = (view j).members (.sector id) := by
  cases h with
  | sector _ hle rows =>
    refine ⟨hle, ?_⟩
    rw [(indexed j).members_sector] at grows ⊢
    refine Lookup.map_seesRows rows fun id hid n hn => ?_
    have still := grows n hn hid
    rw [(indexed n).members_sector] at still
    obtain ⟨r, hr, -⟩ := (indexed n).bySector.1 still
    exact ⟨r, hr, (indexed n).reservation_id hr⟩

theorem parking_members (h : Counts view (.parking id) k u j seen) {p : Parking} {row : Ulid}
    {old : List Ulid} (hp : ∀ n, k ≤ n → (view n).parkings.get? id = some p)
    (listed : p.sectors = old ++ [row])
    (others : ∀ n, ∀ id ∈ old, ∃ s, (view n).sectors.get? id = some s ∧ s.id = id) :
    k ≤ j ∧ seen = (view j).members (.parking id) := by
  cases h with
  | parking hp' rows =>
    have hle := Lookup.le_of_seesRows rows
    refine ⟨hle, ?_⟩
    cases hp'.symm.trans (hp k (Nat.le_refl k))
    rw [listed] at rows
    obtain ⟨ss, ss', n, rfl, rows, last⟩ := Lookup.seesRows_append rows
    rw [List.map_append, Lookup.map_seesRows rows fun id hid n _ => others n id hid,
      Tables.members_parking_append (hp j hle) listed (others j)]
    cases last with
    | cons step none =>
      cases none with
      | nil => rw [List.append_nil]

end Counts

namespace Exposes

variable {t : Tables}

theorem of_reservation (ht : t.Linked) {s s' : Sector} {r : Reservation} (es : List GateEvent)
    (hs : t.sectors.get? s.id = some s) (hid : s'.id = s.id) (hv : s'.version = s.version + 1)
    (new : t.reservations.get? r.id = none) (hr : r.sector = s.id) :
    Exposes (t.applyUpTo (.putSector s' :: .putReservation r :: es.map .appendEvent))
      (.sector s.id) s.version (t.bySector.getList s.id) r.id := by
  obtain ⟨events, first, second, later⟩ :=
    t.applyUpTo_pair (.putSector s') (.putReservation r) es rfl rfl
  generalize t.applyUpTo (.putSector s' :: .putReservation r :: es.map .appendEvent) = view at *
  have indexed₀ : ({ t with events } : Tables).Indexed := { ht.toIndexed with }
  have indexed₁ := indexed₀.putSector s'
  have indexed : ∀ k, (view k).Indexed
    | 0 => first ▸ indexed₀
    | 1 => second ▸ indexed₁
    | k + 2 => by
      rw [later _ (by omega)]
      exact indexed₁.putReservation fun old hold => by cases new.symm.trans hold
  have raised : ∀ k, 0 < k → (view k).sectors.get? s.id = some s' := by
    intro k hk
    rw [← hid]
    rcases Nat.lt_or_ge 1 k with hk' | hk'
    · rw [later k hk']
      change (Tables.putReservation _ r).sectors.get? s'.id = some s'
      rw [Tables.sectors_putReservation]
      exact Table.get?_insert_self _ _ _
    · rw [Nat.le_antisymm hk' hk, second]
      exact Table.get?_insert_self _ _ _
  have early : ∀ k, k ≤ 1 → (view k).members (.sector s.id) = t.bySector.getList s.id
    | 0, _ => by rw [(indexed 0).members_sector, first]
    | 1, _ => by
      rw [(indexed 1).members_sector, second]
      rfl
  have late : ∀ k, 1 < k → (view k).members (.sector s.id) =
      t.bySector.getList s.id ++ [r.id] := by
    intro k hk
    rw [(indexed k).members_sector, later k hk]
    exact (Tables.bySector_putReservation _ r s.id).trans (if_pos ⟨new, hr⟩)
  refine ⟨?_, fun k hk => ?_, early, late, fun hmem => ?_, fun {k u j seen} hk h => ?_⟩
  · rw [first]
    exact Option.map_eq_some_iff.2 ⟨s, hs, rfl⟩
  · exact Option.map_eq_some_iff.2 ⟨s', raised k hk, hv⟩
  · obtain ⟨old, hold, -⟩ := ht.bySector.1 hmem
    cases new.symm.trans hold
  · refine h.sector_members indexed fun n hn => ?_
    rcases Nat.lt_or_ge 1 n with hn' | hn'
    · rcases Nat.lt_or_ge 1 j with hj | hj
      · rw [late n hn', late j hj]
        exact List.Subset.refl _
      · rw [late n hn', early j hj]
        exact List.subset_append_left _ _
    · rw [early n hn', early j (Nat.le_trans hn hn')]
      exact List.Subset.refl _

theorem of_sector (ht : t.Linked) {p p' : Parking} {s : Sector}
    (hp : t.parkings.get? p.id = some p) (hid : p'.id = p.id) (hv : p'.version = p.version + 1)
    (new : t.sectors.get? s.id = none) (listed : p'.sectors = p.sectors ++ [s.id]) :
    Exposes (t.applyUpTo [.putParking p', .putSector s]) (.parking p.id) p.version p.sectors
      s.id := by
  obtain ⟨events, first, second, later⟩ :=
    t.applyUpTo_pair (.putParking p') (.putSector s) [] rfl rfl
  rw [List.map_nil] at first second later
  generalize t.applyUpTo [.putParking p', .putSector s] = view at *
  have initial : (view 0).parkings.get? p.id = some p := by rwa [first]
  have raised : ∀ k, 0 < k → (view k).parkings.get? p.id = some p' := by
    intro k hk
    rw [← hid]
    rcases Nat.lt_or_ge 1 k with hk' | hk'
    · rw [later k hk']
      exact Table.get?_insert_self _ _ _
    · rw [Nat.le_antisymm hk' hk, second]
      exact Table.get?_insert_self _ _ _
  have others : ∀ k, ∀ id ∈ p.sectors, ∃ q, (view k).sectors.get? id = some q ∧ q.id = id := by
    intro k id hid
    obtain ⟨q, hq, -⟩ := (ht.listed hp).1 hid
    have hne : id ≠ s.id := by
      rintro rfl
      cases new.symm.trans hq
    refine ⟨q, ?_, ht.sector_id hq⟩
    rcases k with _ | _ | k
    · rwa [first]
    · rwa [second]
    · rw [later _ (by omega)]
      exact (Table.get?_insert_of_ne _ _ hne).trans hq
  have missing : (view 1).sectors.get? s.id = none := by rwa [second]
  have found : ∀ k, 1 < k → (view k).sectors.get? s.id = some s := by
    intro k hk
    rw [later k hk]
    exact Table.get?_insert_self _ _ _
  refine ⟨?_, fun k hk => ?_, fun k hk => ?_, fun k hk => ?_, fun hmem => ?_, fun hk h => ?_⟩
  · exact Option.map_eq_some_iff.2 ⟨p, initial, rfl⟩
  · exact Option.map_eq_some_iff.2 ⟨p', raised k hk, hv⟩
  · rcases Nat.eq_zero_or_pos k with rfl | hpos
    · rw [Tables.members_parking initial]
      exact Table.map_filterMap (others 0)
    · rw [Tables.members_parking_append (raised k hpos) listed (others k),
        Nat.le_antisymm hk hpos, missing]
      exact List.append_nil _
  · rw [Tables.members_parking_append (raised k (Nat.lt_trans Nat.one_pos hk)) listed (others k),
      found k hk]
    rfl
  · obtain ⟨q, hq, -⟩ := (ht.listed hp).1 hmem
    cases new.symm.trans hq
  · exact h.parking_members (fun n hn => raised n (Nat.lt_of_lt_of_le hk hn)) listed others

variable {view : Nat → Tables} {guard : RowKey} {v : Version} {old : List Ulid} {row : Ulid}

theorem not_ahead_iff_ne_one (h : Exposes view guard v old row) (k : Nat) :
    ((view k).version? guard = some (v + 1) → row ∈ (view k).members guard) ↔ k ≠ 1 := by
  rcases k with _ | _ | k
  · simp [h.initial]
  · simpa [h.raised 1 Nat.one_pos, h.early 1 (Nat.le_refl 1)] using h.new
  · simp [h.late (k + 2) (by omega)]

theorem members_of_current (h : Exposes view guard v old row) {m m' : Moment} {n : Nat}
    (hn : 1 < n) (hm : m.tables = view n) (later : Later m m') {k j : Nat} {u : Version}
    {seen : List Ulid} (counts : Counts view guard k u j seen)
    (current : m'.tables.version? guard = some u) :
    0 < k ∧ m'.tables.members guard = old ++ [row] := by
  have raised : m.tables.version? guard = some (v + 1) := by
    rw [hm, h.raised n (Nat.lt_trans Nat.one_pos hn)]
  obtain ⟨le, same⟩ := later.members raised current
  have hk : 0 < k := by
    refine Nat.pos_of_ne_zero ?_
    rintro rfl
    cases counts.version.symm.trans h.initial
    exact Nat.not_succ_le_self _ le
  cases counts.version.symm.trans (h.raised k hk)
  rw [same rfl, hm, h.late n hn]
  exact ⟨hk, rfl⟩

theorem counted (h : Exposes view guard v old row) {k j : Nat} {u : Version} {seen : List Ulid}
    (counts : Counts view guard k u j seen) (hk : 0 < k) :
    (old ++ [row] = if j = 1 then seen ++ [row] else seen) ∧ (row ∈ seen ↔ j ≠ 1) := by
  obtain ⟨hle, rfl⟩ := h.counts hk counts
  rcases Nat.lt_or_ge 1 j with hj | hj
  · simp [h.late j hj, Nat.ne_of_gt hj]
  · obtain rfl : j = 1 := Nat.le_antisymm hj (Nat.le_trans hk hle)
    simpa [h.early 1 (Nat.le_refl 1)] using h.new

end Exposes

/-! ### The commits that put a row under another one -/

def Change.member? : Change → Option (RowKey × Ulid)
  | .insertReservation r => some (.sector r.sector, r.id)
  | .insertSector s => some (.parking s.parking, s.id)
  | _ => none

def Operation.inserts : Operation → Bool
  | .addSector .. | .book .. | .driveIn .. => true
  | _ => false

theorem Transition.exposes {settings : Settings} {ctx : Context} {t : Tables} {op : Operation}
    {ids : List Ulid} {txn : Txn} (h : Transition settings ctx t op ids txn) (ht : t.Linked)
    (hok : ∀ c ∈ txn, c.suits t) (inserts : op.inserts = true) :
    ∃ guard v old row, (∃ c ∈ txn, c.member? = some (guard, row)) ∧ t.version? guard = some v ∧
      Exposes (t.applyUpTo txn.writes) guard v old row ∧ 1 < txn.writes.length := by
  cases h with
  | @addSector parking id spec p _ _ hp _ _ =>
    obtain rfl := ht.parking_id hp
    have new : t.sectors.get? id = none := hok _ (.tail _ (.head _))
    exact ⟨.parking p.id, p.version, _, id, ⟨_, .tail _ (.head _), rfl⟩,
      Option.map_eq_some_iff.2 ⟨p, hp, rfl⟩, .of_sector ht hp rfl rfl new rfl, Nat.lt_succ_self 1⟩
  | @book sector _ id _ _ _ s _ hs _ _ =>
    obtain rfl := ht.sector_id hs
    have new : t.reservations.get? id = none := hok _ (.tail _ (.head _))
    exact ⟨.sector s.id, s.version, _, id, ⟨_, .tail _ (.head _), rfl⟩,
      Option.map_eq_some_iff.2 ⟨s, hs, rfl⟩, .of_reservation ht [] hs rfl rfl new rfl,
      Nat.lt_succ_self 1⟩
  | @driveIn _ _ v _ _ _ s _ _ _ hs taken =>
    obtain ⟨-, rfl⟩ := Sector.takePlace_eq_ok.1 taken
    have new : t.reservations.get? v = none := hok _ (.tail _ (.head _))
    exact ⟨.sector s.id, s.version, _, v, ⟨_, .tail _ (.head _), rfl⟩,
      Option.map_eq_some_iff.2 ⟨s, hs, rfl⟩, .of_reservation ht [_] hs rfl rfl new rfl,
      Nat.lt_succ_of_lt (Nat.lt_succ_self 1)⟩
  | _ => cases inserts

namespace Traffic

variable {settings : Settings} {t : Tables} {spent : Ulid → Prop} {before after : List Attempt}
  {ctx : Context} {op : Operation} {ids : List Ulid} {txn : Txn}

/-- A guard is ahead of the row that it guards only between the two writes. A reader whose version
stays current misses the row exactly if it counts then. -/
theorem Reachable.not_ahead_iff
    (h : Reachable settings ⟨t, spent, before ++ ⟨ctx, op, ids, .done (.ok txn)⟩ :: after⟩)
    (inserts : op.inserts = true) (accepted : t.refusal? txn = none) (writes : txn ≠ []) :
    ∃ guard v row, (∃ c ∈ txn, c.member? = some (guard, row)) ∧ t.version? guard = some v ∧
      (∀ k, ((t.applyUpTo txn.writes k).version? guard = some (v + 1) →
        row ∈ (t.applyUpTo txn.writes k).members guard) ↔ k ≠ 1) ∧
      ∀ T, Steps settings ⟨t.apply txn.writes, spent, before ++ after⟩ T → ∀ k u j seen,
        Counts (t.applyUpTo txn.writes) guard k u j seen → T.tables.version? guard = some u →
          T.tables.members guard = (if j = 1 then seen ++ [row] else seen) ∧
            (row ∈ seen ↔ j ≠ 1) := by
  obtain ⟨now, sound⟩ := h.sound
  have transition := sound.transition (List.mem_append_right _ (.head _)) rfl writes accepted
  have tables : now.tables = t := sound.tables
  have linked : t.Linked := tables ▸ now.linked
  obtain ⟨guard, v, old, row, inserted, version, exposes, two⟩ :=
    transition.exposes linked (Tables.refusal?_eq_none.1 accepted) inserts
  have final := t.applyUpTo_of_length_le (Nat.le_refl txn.writes.length)
  obtain ⟨now₁, -, sound₁⟩ := sound.commit accepted writes
  refine ⟨guard, v, row, inserted, version, exposes.not_ahead_iff_ne_one, ?_⟩
  intro T steps k u j seen counts current
  obtain ⟨now', later, sound'⟩ := steps.sound sound₁
  rw [← sound'.tables] at current ⊢
  obtain ⟨hk, all⟩ := exposes.members_of_current two (sound₁.tables.trans final.symm) later counts
    current
  rw [all]
  exact exposes.counted counts hk

def onePlace : Engine :=
  (Engine.fresh {} .silent (fun n => .ofNat (n + 1)) false).serve [
    .operation ⟨.system, 0⟩ (.createParking ⟨"Rome", "00100", "Corso 1"⟩ none),
    .operation ⟨.system, 0⟩ (.addSector (.ofNat 1) ⟨"AB-01", .covered, 1, 1⟩)]

def hour : Span := ⟨Limits.earliest, Limits.earliest + 3600000⟩

def booking (v : Version) (client id : Nat) : Txn := [
  .updateSector { Sector.ofSpec (.ofNat 2) (.ofNat 1) ⟨"AB-01", .covered, 1, 1⟩ with version := v },
  .insertReservation {
    id := .ofNat id, client := some (.ofNat client), parking := .ofNat 1, sector := .ofNat 2
    window := hour, status := .created, booked := true, code := none, version := 1 }]

def booker (client : Nat) : Attempt where
  ctx := ⟨.client (.ofNat client), 0⟩
  op := .book (.ofNat 2) hour.start hour.stop
  ids := []
  rest := ((Operation.book (.ofNat 2) hour.start hour.stop).staging {}
    ⟨.client (.ofNat client), 0⟩).run

set_option maxRecDepth 10000 in
theorem not_ahead_iff_booking :
    ∃ spent, Reachable {} ⟨onePlace.tables, spent,
        [{ booker 7 with ids := [.ofNat 8], rest := .done (.ok (booking 1 7 8)) }]⟩ ∧
      ∀ k, ((onePlace.tables.applyUpTo (booking 1 7 8).writes k).version? (.sector (.ofNat 2)) =
          some 2 →
        .ofNat 8 ∈ (onePlace.tables.applyUpTo (booking 1 7 8).writes k).members
          (.sector (.ofNat 2))) ↔ k ≠ 1 := by
  obtain ⟨cs, reachable⟩ : ∃ cs, onePlace.Reachable cs := (Engine.Reachable.fresh _ _ _ _).serve _
  obtain ⟨spent, -, through⟩ := ((Reachable.of_engine {} reachable).step
    (.start (booker 7).ctx (booker 7).op)).through .ofNat 8 (by decide) (by decide)
  have staged : ((booker 7).rest.eval onePlace.tables .ofNat 8).1 = .ok (booking 1 7 8) := by decide
  have booked : Reachable {} ⟨onePlace.tables, spent, [{ booker 7 with
      ids := [.ofNat 8],
      rest := .done ((booker 7).rest.eval onePlace.tables .ofNat 8).1 }]⟩ := through
  rw [staged] at booked
  refine ⟨spent, booked, ?_⟩
  obtain ⟨guard, v, row, ⟨c, hc, hmember⟩, hv, visible, -⟩ :=
    @Reachable.not_ahead_iff {} _ _ [] _ _ _ _ _ booked rfl (by decide) (by decide)
  obtain rfl | rfl : c = _ ∨ c = _ := by simpa [booking] using hc
  · cases hmember
  · cases hmember
    have one : onePlace.tables.version? (.sector (.ofNat 2)) = some 1 := by decide
    cases one.symm.trans hv
    exact visible

set_option maxRecDepth 10000 in
/-- The last place is booked twice: the second booking was staged between two writes of the
first. -/
theorem booked_twice :
    let t := onePlace.tables
    let t₁ := t.applyUpTo (booking 1 7 8).writes 1
    let t₂ := t.apply (booking 1 7 8).writes
    (∃ cs, onePlace.Reachable cs) ∧ (t.sectors.get? (.ofNat 2)).map (·.maxPlaces) = some 1 ∧
      ((booker 7).rest.eval t .ofNat 8).1 = .ok (booking 1 7 8) ∧
      t.refusal? (booking 1 7 8) = none ∧
      (t₁.sectors.get? (.ofNat 2)).map (·.version) = some 2 ∧
      t₁.reservationsOfSector (.ofNat 2) = [] ∧
      ((booker 9).rest.eval t₁ .ofNat 10).1 = .ok (booking 2 9 10) ∧
      t₂.refusal? (booking 2 9 10) = none ∧
      Booking.overlapping hour
        ((t₂.apply (booking 2 9 10).writes).reservationsOfSector (.ofNat 2)) = 2 := by
  refine ⟨(Engine.Reachable.fresh _ _ _ _).serve _, ?_, ?_, ?_, ?_, ?_, ?_, ?_, ?_⟩
  all_goals decide

end Traffic

end Carpark
