import Carpark.Proofs.Commits
import Carpark.Proofs.Traffic

/-!
Commits that have no row in common. It does not matter in which order they reach the tables, and
one is accepted after the other if it is accepted before it.
-/

namespace Carpark

/-! ### The same rows -/

def Write.subject : Write → RowKey
  | .putParking p => .parking p.id
  | .deleteParking id => .parking id
  | .putSector s => .sector s.id
  | .deleteSector id => .sector id
  | .putReservation r => .reservation r.id
  | .appendEvent e => .reservation e.reservation

theorem Write.subject_of_key? {w : Write} {key : RowKey} (h : w.key? = some key) :
    w.subject = key := by
  cases w <;> cases h <;> rfl

/-- No write of the one is about a row that a write of the other is about. -/
def Commit.Apart (c d : Commit) : Prop := ∀ w ∈ c, ∀ w' ∈ d, w.subject ≠ w'.subject

namespace Commit

variable {c d : Commit}

theorem Apart.last? (h : c.Apart d) (key : RowKey) : c.last? key = none ∨ d.last? key = none := by
  cases hc : c.last? key with
  | none => exact .inl rfl
  | some w =>
    refine .inr (last?_eq_none.2 fun w' hw' hkey => ?_)
    obtain ⟨hw, hwkey⟩ := mem_of_last? hc
    exact h w hw w' hw' ((Write.subject_of_key? hwkey).trans (Write.subject_of_key? hkey).symm)

theorem exists_mem_of_mem_eventsOf {e : GateEvent} {id : Ulid} (h : e ∈ c.eventsOf id) :
    .appendEvent e ∈ c ∧ e.reservation = id := by
  obtain ⟨w, hw, he⟩ := List.mem_filterMap.1 h
  cases w with
  | appendEvent e' =>
    simp only [Option.ite_none_right_eq_some, Option.some.injEq] at he
    obtain ⟨hid, rfl⟩ := he
    exact ⟨hw, hid⟩
  | _ => cases he

theorem Apart.eventsOf (h : c.Apart d) (id : Ulid) : c.eventsOf id = [] ∨ d.eventsOf id = [] := by
  rw [Classical.or_iff_not_imp_left]
  intro hc
  obtain ⟨e, he⟩ := List.exists_mem_of_ne_nil _ hc
  obtain ⟨hw, hid⟩ := exists_mem_of_mem_eventsOf he
  refine List.eq_nil_iff_forall_not_mem.2 fun e' he' => ?_
  obtain ⟨hw', hid'⟩ := exists_mem_of_mem_eventsOf he'
  exact h _ hw _ hw' (congrArg RowKey.reservation (hid.trans hid'.symm))

end Commit

namespace Tables

/-- The same rows and gate logs, whatever the indexes are. -/
structure SameRows (t t' : Tables) : Prop where
  row : ∀ key, t.row? key = t'.row? key
  events : ∀ id, t.eventsOf id = t'.eventsOf id

namespace SameRows

variable {t t' t'' : Tables}

theorem refl (t : Tables) : t.SameRows t := ⟨fun _ => rfl, fun _ => rfl⟩

theorem trans (h : t.SameRows t') (h' : t'.SameRows t'') : t.SameRows t'' :=
  ⟨fun key => (h.row key).trans (h'.row key), fun id => (h.events id).trans (h'.events id)⟩

theorem apply (h : t.SameRows t') (c : Commit) : (t.apply c).SameRows (t'.apply c) where
  row := fun key => by rw [row?_apply, row?_apply, h.row]
  events := fun id => by rw [eventsOf_apply, eventsOf_apply, h.events]

theorem applyAll (h : t.SameRows t') (cs : List Commit) :
    (cs.foldl Tables.apply t).SameRows (cs.foldl Tables.apply t') := by
  induction cs generalizing t t' with
  | nil => exact h
  | cons c cs ih => exact ih (h.apply c)

theorem swap (t : Tables) {c d : Commit} (h : c.Apart d) :
    ((t.apply c).apply d).SameRows ((t.apply d).apply c) where
  row := fun key => by
    simp only [row?_apply]
    rcases h.last? key with hc | hd
    · rw [hc]
    · rw [hd]
  events := fun id => by
    simp only [eventsOf_apply]
    rcases h.eventsOf id with hc | hd
    · simp [hc]
    · simp [hd]

theorem front (t : Tables) {c : Commit} {cs ds : List Commit} (h : ∀ d ∈ cs, d.Apart c) :
    ((cs ++ c :: ds).foldl Tables.apply t).SameRows
      ((cs ++ ds).foldl Tables.apply (t.apply c)) := by
  induction cs generalizing t with
  | nil => exact .refl _
  | cons d cs ih =>
    obtain ⟨first, rest⟩ := List.forall_mem_cons.1 h
    exact (ih (t.apply d) rest).trans ((swap t first).applyAll (cs ++ ds))

theorem alike (h : t.SameRows t') (ht : t.Indexed) (ht' : t'.Indexed) : t.Alike t' := by
  refine .of_rows ht ht' (Table.ext fun id => ?_) (Table.ext fun id => ?_) (Table.ext fun id => ?_)
    (funext h.events)
  · exact Option.map_injective (fun _ _ => Row.parking.inj) (h.row (.parking id))
  · exact Option.map_injective (fun _ _ => Row.sector.inj) (h.row (.sector id))
  · exact Option.map_injective (fun _ _ => Row.reservation.inj) (h.row (.reservation id))

end SameRows

end Tables

/-! ### Locks of a transaction -/

theorem Txn.mem_lockKeys {txn : Txn} {key : RowKey} : key ∈ txn.lockKeys ↔
    (∃ v, (key, v) ∈ txn.expects) ∨ ∃ address owner, (address, owner) ∈ txn.claims ∧
      .address address = key := by
  simp [lockKeys, List.mem_eraseDups, List.mem_mergeSort]

theorem Txn.lockKeys_of_one {txn : Txn} {key : RowKey} {v : Option Version}
    (expects : txn.expects = [(key, v)]) (claims : txn.claims = []) : txn.lockKeys = [key] := by
  rw [lockKeys, expects, claims]
  simp [List.eraseDups_cons]

/-- Whoever stages a gate event stages a change of its reservation as well. -/
def Txn.Covers (txn : Txn) : Prop :=
  ∀ e, .appendEvent e ∈ txn → ∃ v, (.reservation e.reservation, v) ∈ txn.expects

theorem Txn.Covers.subject_mem_lockKeys {txn : Txn} (h : txn.Covers) {w : Write}
    (hw : w ∈ txn.writes) : w.subject ∈ txn.lockKeys := by
  rw [Txn.mem_lockKeys]
  left
  cases hkey : w.key? with
  | some key =>
    obtain ⟨v, hv, -⟩ := Txn.exists_expects hw hkey
    exact ⟨v, Write.subject_of_key? hkey ▸ hv⟩
  | none =>
    obtain ⟨c, hc, hwrite⟩ := List.mem_filterMap.1 hw
    cases w with
    | appendEvent e =>
      cases c with
      | appendEvent e' => cases hwrite; exact h _ hc
      | _ => cases hwrite
    | _ => cases hkey

namespace Transition

variable {settings : Settings} {ctx : Context} {t : Tables} {op : Operation} {ids : List Ulid}
  {txn txn' : Txn}

theorem covers (h : Transition settings ctx t op ids txn) (ht : t.Linked) : txn.Covers := by
  intro e he
  cases h with
  | enter hr =>
    obtain rfl : e = _ := by simpa using he
    exact ⟨_, by simp [Txn.expects, Change.expects?, ht.reservation_id hr]; rfl⟩
  | driveIn =>
    obtain rfl : e = _ := by simpa using he
    exact ⟨none, by simp [Txn.expects, Change.expects?, Reservation.driveIn]⟩
  | exit hr =>
    obtain rfl : e = _ := by simpa using he
    exact ⟨_, by simp [Txn.expects, Change.expects?, ht.reservation_id hr]; rfl⟩
  | forceExit _ hr =>
    obtain rfl : e = _ := by simpa using he
    exact ⟨_, by simp [Txn.expects, Change.expects?, ht.reservation_id hr]; rfl⟩
  | _ => simp at he

theorem subject_mem_lockKeys (h : Transition settings ctx t op ids txn) (ht : t.Linked)
    {w : Write} (hw : w ∈ txn.writes) : w.subject ∈ txn.lockKeys :=
  (h.covers ht).subject_mem_lockKeys hw

theorem claims_of_putParking (h : Transition settings ctx t op ids txn) (ht : t.Linked)
    {p : Parking} (hp : .putParking p ∈ txn.writes) : (p.address.key, p.id) ∈ txn.claims ∨
      ∃ old, t.parkings.get? p.id = some old ∧ old.address.key = p.address.key := by
  cases h with
  | createParking =>
    obtain rfl : _ = p := by simpa [Txn.writes, Change.write?, eq_comm] using hp
    exact .inl (.head _)
  | updateParking _ _ hold =>
    obtain rfl : _ = p := by simpa [Txn.writes, Change.write?, eq_comm] using hp
    rw [ht.parking_id hold]
    exact .inl (.head _)
  | @addSector _ _ _ old _ _ hold =>
    obtain rfl : _ = p := by simpa [Txn.writes, Change.write?, eq_comm] using hp
    have here : t.parkings.get? old.id = some old := ht.parking_id hold ▸ hold
    exact .inr ⟨old, here, rfl⟩
  | @renameSector _ _ _ _ old _ _ _ _ _ _ _ hold =>
    obtain rfl : _ = p := by simpa [Txn.writes, Change.write?, eq_comm] using hp
    have here : t.parkings.get? old.id = some old := ht.parking_id hold ▸ hold
    exact .inr ⟨old, here, rfl⟩
  | @deleteSector _ _ _ old _ _ _ _ hold =>
    obtain rfl : _ = p := by simpa [Txn.writes, Change.write?, eq_comm] using hp
    have here : t.parkings.get? old.id = some old := ht.parking_id hold ▸ hold
    exact .inr ⟨old, here, rfl⟩
  | _ => simp [Txn.writes, Change.write?] at hp

/-- What is accepted stays accepted behind a commit that has no row in common with it. -/
theorem refusal?_apart (h : Transition settings ctx t op ids txn) (ht : t.Linked)
    (accepted : t.refusal? txn = none) (apart : txn.lockKeys.Disjoint txn'.lockKeys)
    (accepted' : t.refusal? txn' = none) : (t.apply txn.writes).refusal? txn' = none := by
  obtain ⟨rows, claims⟩ := Tables.refusal?_eq_none_iff.1 accepted'
  have linked := h.linked ht (Tables.refusal?_eq_none.1 accepted)
  refine Tables.refusal?_eq_none_iff.2 ⟨fun key v hv => ?_, fun key owner ho holder hh => ?_⟩
  · rw [Tables.version?_apply_of_not, rows key v hv]
    intro w hw hkey
    have locked := h.subject_mem_lockKeys ht hw
    rw [Write.subject_of_key? hkey] at locked
    exact apart locked (Txn.mem_lockKeys.2 (.inl ⟨v, hv⟩))
  · -- the parking that holds the address then held it before, or else it has claimed it
    obtain ⟨p, hp, rfl⟩ := linked.address.1 hh
    have row : (t.apply txn.writes).row? (.parking holder) = some (.parking p) := by
      simp [Tables.row?, hp]
    rw [Tables.row?_apply] at row
    split at row
    next w hw =>
      obtain ⟨mem, hkey⟩ := Commit.mem_of_last? hw
      obtain rfl : w = .putParking p := by cases w <;> simp_all [Write.row?]
      cases hkey
      rcases h.claims_of_putParking ht mem with claimed | ⟨old, hold, same⟩
      · have locked := Txn.mem_lockKeys.2 (.inr ⟨_, _, claimed, rfl⟩)
        exact absurd (Txn.mem_lockKeys.2 (.inr ⟨_, _, ho, rfl⟩)) (apart locked)
      · exact claims _ _ ho _ (ht.address.2 ⟨old, hold, same⟩)
    next =>
      have hold : t.parkings.get? holder = some p := by simpa [Tables.row?] using row
      exact claims _ _ ho _ (ht.address.2 ⟨p, hold, rfl⟩)

theorem apart (h : Transition settings ctx t op ids txn) (ht : t.Linked) {ctx' : Context}
    {op' : Operation} {ids' : List Ulid} (h' : Transition settings ctx' t op' ids' txn')
    (disjoint : txn.lockKeys.Disjoint txn'.lockKeys) : Commit.Apart txn.writes txn'.writes := by
  intro w hw w' hw' same
  have locked := h'.subject_mem_lockKeys ht hw'
  rw [← same] at locked
  exact disjoint (h.subject_mem_lockKeys ht hw) locked

end Transition

/-! ### Several commits, one after another -/

/-- Each of these commits passes its check on the tables that those before it have made. -/
def Tables.Admits (t : Tables) : List Commit → Prop
  | [] => True
  | c :: cs => (∃ txn : Txn, txn.writes = c ∧ t.refusal? txn = none) ∧ (t.apply c).Admits cs

theorem Tables.admits_append {t : Tables} {cs ds : List Commit} :
    t.Admits (cs ++ ds) ↔ t.Admits cs ∧ (cs.foldl Tables.apply t).Admits ds := by
  induction cs generalizing t with
  | nil => exact (iff_of_eq (true_and _)).symm
  | cons c cs ih =>
    rw [List.cons_append, Admits, Admits, ih, and_assoc]
    rfl

theorem Tables.admits_singleton {t : Tables} {txn : Txn} (h : t.refusal? txn = none) :
    t.Admits [txn.writes] := ⟨⟨txn, rfl, h⟩, trivial⟩

/-! ### Several attempts that are through -/

def Attempt.txn (a : Attempt) : Txn :=
  match a.rest with
  | .done (.ok txn) => txn
  | _ => []

structure Attempt.Accepted (t : Tables) (a : Attempt) : Prop where
  through : a.rest = .done (.ok a.txn)
  accepted : t.refusal? a.txn = none

def Attempt.Apart (a b : Attempt) : Prop := a.txn.lockKeys.Disjoint b.txn.lockKeys

theorem Attempt.Apart.symm {a b : Attempt} (h : a.Apart b) : b.Apart a := fun _ hb ha => h ha hb

namespace Traffic

variable {settings : Settings} {t : Tables} {spent : Ulid → Prop} {as as' : List Attempt}
  {a b : Attempt} {now : Moment}

theorem Sound.linked {T : Traffic} (hs : T.Sound settings now) : T.tables.Linked :=
  hs.tables ▸ now.linked

theorem Sound.perm (hs : Sound settings ⟨t, spent, as⟩ now) (hp : as.Perm as') :
    Sound settings ⟨t, spent, as'⟩ now where
  tables := hs.tables
  reservation_used := hs.reservation_used
  spent := hs.spent
  own := fun a ha => hs.own a (hp.mem_iff.2 ha)
  apart := (hp.flatMap_right _).nodup_iff.1 hs.apart
  follows := fun a ha => hs.follows a (hp.mem_iff.2 ha)

theorem Sound.accepted (hs : Sound settings ⟨t, spent, as⟩ now) (ha : a ∈ as)
    (first : a.Accepted t) (apart : a.Apart b) (second : b.Accepted t) :
    b.Accepted (t.apply a.txn.writes) := by
  refine ⟨second.through, ?_⟩
  by_cases writes : a.txn = []
  · rw [writes]
    exact second.accepted
  · exact (hs.transition ha first.through writes first.accepted).refusal?_apart hs.linked
      first.accepted apart second.accepted

theorem Sound.commit_first (hs : Sound settings ⟨t, spent, a :: as⟩ now) (first : a.Accepted t) :
    ∃ now', Sound settings ⟨t.apply a.txn.writes, spent, as⟩ now' := by
  obtain ⟨ctx, op, ids, rest⟩ := a
  have step : Step settings ⟨t, spent, [] ++ ⟨ctx, op, ids, .done (.ok _)⟩ :: as⟩ _ :=
    .commit first.accepted
  rw [← first.through] at step
  obtain ⟨now', -, sound⟩ := step.sound hs
  exact ⟨now', sound⟩

theorem Sound.commits {waiting : List Attempt}
    (hs : Sound settings ⟨t, spent, waiting ++ as⟩ now) (accepted : ∀ a ∈ waiting, a.Accepted t)
    (apart : waiting.Pairwise Attempt.Apart) :
    ∃ now', Sound settings
      ⟨(waiting.map (·.txn.writes)).foldl Tables.apply t, spent, as⟩ now' := by
  induction waiting generalizing t now with
  | nil => exact ⟨now, hs⟩
  | cons a waiting ih =>
    obtain ⟨first, others⟩ := List.forall_mem_cons.1 accepted
    obtain ⟨apart, rest⟩ := List.pairwise_cons.1 apart
    obtain ⟨now', sound⟩ := hs.commit_first first
    exact ih sound (fun b hb => hs.accepted (.head _) first (apart b hb) (others b hb)) rest

theorem Sound.accepted_behind {waiting : List Attempt}
    (hs : Sound settings ⟨t, spent, waiting ++ as⟩ now) (accepted : ∀ a ∈ waiting, a.Accepted t)
    (apart : waiting.Pairwise Attempt.Apart) (others : ∀ a ∈ waiting, a.Apart b)
    (hb : b.Accepted t) :
    b.Accepted ((waiting.map (·.txn.writes)).foldl Tables.apply t) := by
  induction waiting generalizing t now with
  | nil => exact hb
  | cons a waiting ih =>
    obtain ⟨first, accepted⟩ := List.forall_mem_cons.1 accepted
    obtain ⟨pairs, apart⟩ := List.pairwise_cons.1 apart
    obtain ⟨other, others⟩ := List.forall_mem_cons.1 others
    obtain ⟨now', sound⟩ := hs.commit_first first
    exact ih sound (fun c hc => hs.accepted (.head _) first (pairs c hc) (accepted c hc)) apart
      others (hs.accepted (.head _) first other hb)

theorem Sound.commit_apart (hs : Sound settings ⟨t, spent, as⟩ now) (ha : a ∈ as) (hb : b ∈ as)
    (ha' : a.Accepted t) (hb' : b.Accepted t) (apart : a.Apart b) :
    Commit.Apart a.txn.writes b.txn.writes := by
  by_cases writes : a.txn = []
  · rw [writes]
    exact fun _ hw => absurd hw List.not_mem_nil
  by_cases writes' : b.txn = []
  · rw [writes']
    exact fun _ _ _ hw => absurd hw List.not_mem_nil
  exact (hs.transition ha ha'.through writes ha'.accepted).apart hs.linked
    (hs.transition hb hb'.through writes' hb'.accepted) apart

theorem Sound.alike_front {before after : List Attempt}
    (hs : Sound settings ⟨t, spent, (before ++ a :: after) ++ as⟩ now)
    (accepted : ∀ b ∈ before ++ a :: after, b.Accepted t)
    (apart : (before ++ a :: after).Pairwise Attempt.Apart) :
    (((before ++ a :: after).map (·.txn.writes)).foldl Tables.apply t).Alike
      (((before ++ after).map (·.txn.writes)).foldl Tables.apply (t.apply a.txn.writes)) := by
  have mem : a ∈ before ++ a :: after := List.mem_append_right _ (.head _)
  have others : ∀ b ∈ before ++ after, b ∈ before ++ a :: after := fun b hb =>
    List.perm_middle.mem_iff.2 (.tail _ hb)
  obtain ⟨apart', pairs⟩ := List.pairwise_cons.1 ((List.pairwise_middle Attempt.Apart.symm).1 apart)
  obtain ⟨_, all⟩ := hs.commits accepted apart
  have moved : Sound settings ⟨t, spent, a :: ((before ++ after) ++ as)⟩ now :=
    hs.perm (List.perm_middle.append_right as)
  obtain ⟨_, first⟩ := moved.commit_first (accepted a mem)
  obtain ⟨_, rest⟩ := first.commits (fun b hb =>
    moved.accepted (.head _) (accepted a mem) (apart' b hb) (accepted b (others b hb))) pairs
  refine Tables.SameRows.alike ?_ all.linked.toIndexed rest.linked.toIndexed
  rw [List.map_append, List.map_cons, List.map_append]
  refine Tables.SameRows.front t (List.forall_mem_map.2 fun b hb => ?_)
  have hb' := List.mem_append_left (a :: after) hb
  exact hs.commit_apart (List.mem_append_left as hb') (List.mem_append_left as mem)
    (accepted b hb') (accepted a mem) (apart' b (List.mem_append_left after hb)).symm

end Traffic

end Carpark
