import Carpark.Proofs.Attempt
import Carpark.Proofs.Oversize
import Carpark.Proofs.Snapshot
import Carpark.Proofs.Steps

/-!
The engines that come about from an empty log by requests and by being opened anew, and what
holds of all of them: the tables are linked, and the log describes them. When it is opened anew,
nothing is lost, or one reservation whose gate log has grown beyond the limit of a frame.
-/

namespace Carpark

open Relation

/-! ### Alone -/

def Moment.ofTables (t : Tables) (ht : t.Linked) : Moment where
  tables := t
  used id := (t.parkings.get? id).isSome ∨ (t.sectors.get? id).isSome
  linked := ht
  parking_used hp := .inl (by simp [hp])
  sector_used hs := .inr (by simp [hs])

theorem Transition.of_eval {settings : Settings} {ctx : Context} {t : Tables} {op : Operation}
    {ids : Nat → Ulid} {n n' : Nat} {txn : Txn} (ht : t.Linked)
    (h : (op.staging settings ctx).run.eval t ids n = (.ok txn, n'))
    (hok : t.refusal? txn = none) (writes : txn ≠ []) :
    Transition settings ctx t op (Reading.drawn ids n n') txn := by
  have sees : Reading.Sees Moment.tables Later (op.staging settings ctx).run (.ofTables t ht)
      (Reading.drawn ids n ((op.staging settings ctx).run.eval t ids n).2)
      ((op.staging settings ctx).run.eval t ids n).1 (.ofTables t ht) :=
    Reading.sees_eval (Later.refl _) ids _ n
  rw [h] at sees
  exact of_sees sees (.refl _) hok writes

theorem Txn.ne_nil_of_isEmpty {txn : Txn} (h : txn.isEmpty = false) : txn ≠ [] := by
  rintro rfl
  cases h

/-- An operation changes the tables by one transition, or not at all. -/
theorem Engine.run_operation {e : Engine} (ht : e.tables.Linked) (settings : Settings)
    (ctx : Context) (op : Operation) :
    (e.run (op.program settings ctx)).engine.tables = e.tables ∨
      ∃ ids txn, Transition settings ctx e.tables op ids txn ∧ (∀ c ∈ txn, c.suits e.tables) ∧
        (e.run (op.program settings ctx)).engine.tables = e.tables.apply txn.writes := by
  rcases (Program.Tries.operation ctx op e []).tables with same | h
  · exact .inl same
  · obtain ⟨_, _, _, txn, staged, writes, accepted, tables⟩ := h
    have transition := Transition.of_eval ht staged accepted (Txn.ne_nil_of_isEmpty writes)
    exact .inr ⟨_, txn, transition, Tables.refusal?_eq_none.1 accepted, tables⟩

/-! ### The log -/

/-- The tables are linked, and the log describes them. A last commit over the limit is that of a
snapshot. -/
structure Engine.Sound (e : Engine) (cs : List Commit) : Prop where
  linked : e.tables.Linked
  slight : e.tables.Slight
  holds : e.store.log.Holds cs
  described : (Tables.ofCommits cs).Alike e.tables
  oversized : ∀ {kept d}, cs = kept ++ [d] → Frame.mostBytes < (Binary.commit d).length →
    cs = e.tables.snapshot

theorem Tables.Alike.slight {t t' : Tables} (h : t.Alike t') (ht : t.Slight) : t'.Slight :=
  ht.of_subset (fun _ _ hp => h.parkings ▸ hp) (fun _ _ hs => h.sectors ▸ hs)
    fun _ _ hr => h.reservations ▸ hr

theorem Tables.Forgets.slight {t t' : Tables} {r : Reservation} (h : t.Forgets r t')
    (ht : t.Slight) : t'.Slight :=
  ht.of_subset (fun _ _ hp => h.parkings ▸ hp) (fun _ _ hs => h.sectors ▸ hs)
    fun _ _ hr => (h.get?_reservation.1 hr).2

theorem Tables.ofCommits_concat (cs : List Commit) (c : Commit) :
    ofCommits (cs ++ [c]) = (ofCommits cs).apply c := by
  rw [ofCommits, List.foldl_append]
  rfl

namespace Engine

variable {settings : Settings} {may : Context → Operation → Prop} {e e' : Engine}
  {cs cs' : List Commit}

theorem Sound.of_store (hs : e.Sound cs) (same : e'.store = e.store) : e'.Sound cs := by
  have tables : e'.tables = e.tables := congrArg Store.tables same
  refine ⟨tables ▸ hs.linked, tables ▸ hs.slight, same ▸ hs.holds, tables ▸ hs.described, ?_⟩
  rw [tables]
  exact hs.oversized

theorem Step.sound (h : Step settings may (e, cs) (e', cs')) (hs : e.Sound cs) : e'.Sound cs' := by
  cases h with
  | draws _ => exact hs.of_store rfl
  | sweeps b => exact hs.of_store rfl
  | @commits _ _ ctx op txn n _ staged writes accepted =>
    have transition := Transition.of_eval hs.linked staged accepted (Txn.ne_nil_of_isEmpty writes)
    have commit := (Store.commit_of_accepted (s := e.store) writes accepted cs).1
    have linked := transition.linked hs.linked (Tables.refusal?_eq_none.1 accepted)
    have slight := transition.slight hs.slight
    rw [commit]
    refine ⟨linked, hs.slight.apply slight.1, hs.holds.append _,
      Tables.ofCommits_concat cs _ ▸ hs.described.apply _, fun last large => ?_⟩
    obtain ⟨-, same⟩ := List.append_inj' last rfl
    cases same
    exact absurd large (Nat.not_lt.2 slight.length_le)
  | compacts =>
    cases obstructed : e.store.log.obstructed with
    | true =>
      have store : e.store.compact.2 = e.store := by
        simp [Store.compact, Store.order, LogFile.execute, LogFile.replace, obstructed]
      rw [store, Store.compacted, if_pos obstructed]
      exact hs.of_store rfl
    | false =>
      have store : e.store.compact.2 =
          ⟨e.store.tables, .opened false (LogWriter.fileOf e.store.tables.snapshot)⟩ := by
        simp [Store.compact, Store.order, LogFile.execute, LogFile.replace, obstructed]
      rw [store, Store.compacted, if_neg (by simp [obstructed])]
      exact ⟨hs.linked, hs.slight, .opened _ _, hs.linked.ofCommits_snapshot, fun _ _ => rfl⟩

theorem Step.obstructed {x y : Engine × List Commit} (h : Step settings may x y) :
    y.1.store.log.obstructed = x.1.store.log.obstructed := by
  cases h with
  | draws _ | sweeps _ => rfl
  | @commits e cs _ _ txn _ _ _ writes accepted =>
    rw [(Store.commit_of_accepted writes accepted cs).1]
    rfl
  | @compacts e cs =>
    simp only [Store.compact, Store.order, LogFile.execute, LogFile.replace]
    split <;> rfl

theorem Sound.steps {x y : Engine × List Commit} (h : ReflTransGen (Step settings may) x y)
    (hs : x.1.Sound x.2) : y.1.Sound y.2 := by
  induction h with
  | refl => exact hs
  | tail _ step ih => exact step.sound ih

theorem Sound.invariant {P : Tables → Prop} {x y : Engine × List Commit}
    (h : ReflTransGen (Step settings may) x y) (hs : x.1.Sound x.2) (hx : P x.1.tables)
    (kept : ∀ {t ctx op ids txn}, t.Linked → may ctx op → Transition settings ctx t op ids txn →
      (∀ c ∈ txn, c.suits t) → P t → P (t.apply txn.writes)) : P y.1.tables := by
  induction h with
  | refl => exact hx
  | @tail y z steps step ih =>
    have linked := (hs.steps steps).linked
    cases step with
    | draws _ => exact ih
    | sweeps b => exact ih
    | compacts => exact ih
    | @commits e cs ctx op txn n hop staged writes accepted =>
      have transition := Transition.of_eval linked staged accepted (Txn.ne_nil_of_isEmpty writes)
      rw [Engine.tables, Store.tables_commit writes accepted]
      exact kept linked hop transition (Tables.refusal?_eq_none.1 accepted) ih

/-- What is no sweep changes the tables by one transition at most. -/
theorem Sound.tables_request (hs : e.Sound cs) (q : Request) :
    (e.run (q.program e.settings)).engine.tables = e.tables ∨
      (∃ ctx op ids txn, q = .operation ctx op ∧
        Transition e.settings ctx e.tables op ids txn ∧ (∀ c ∈ txn, c.suits e.tables) ∧
        (e.run (q.program e.settings)).engine.tables = e.tables.apply txn.writes) ∨
      ∃ now, q = .sweep now := by
  have idle (none : ∀ ctx op, ¬ q.may ctx op) :
      (e.run (q.program e.settings)).engine.tables = e.tables :=
    hs.invariant (x := (e, cs)) (P := (· = e.tables)) (Program.Steps.request e.settings q e cs) rfl
      fun _ hop => absurd hop (none _ _)
  cases q with
  | operation ctx op =>
    rcases run_operation hs.linked e.settings ctx op with same | ⟨ids, txn, transition, hok, tables⟩
    · exact .inl same
    · exact .inr (.inl ⟨ctx, op, ids, txn, rfl, transition, hok, tables⟩)
  | sweep now => exact .inr (.inr ⟨now, rfl⟩)
  | _ => exact .inl (idle fun _ _ h => h)

end Engine

/-! ### Opening the log anew -/

/-- What is read when the log is opened anew: the store, and the commits that are left. All numbers
and texts fit their fields. -/
def Engine.Reopens (e : Engine) (cs : List Commit) (store : Store) (kept : List Commit) : Prop :=
  (∀ c ∈ cs, c.Fits) ∧ ∃ obstructed replay,
    Store.ofFile obstructed e.store.log.bytes = .ok (store, replay) ∧ replay.commits = kept

namespace Engine.Sound

variable {e : Engine} {cs kept : List Commit} {store : Store}

theorem reopens (hs : e.Sound cs) (hcs : ∀ c ∈ cs, c.Readable) (obstructed : Bool) :
    e.Reopens cs ⟨.ofCommits cs, .opened obstructed (LogWriter.fileOf cs)⟩ cs := by
  refine ⟨fun c hc => (hcs c hc).fits, obstructed, ⟨cs, (LogWriter.fileOf cs).size⟩, ?_, rfl⟩
  rw [hs.holds.bytes]
  exact Store.ofFile_fileOf hcs obstructed

theorem reopens_cut {d : Commit} (hs : e.Sound (kept ++ [d])) (fits : ∀ c ∈ kept ++ [d], c.Fits)
    (small : ∀ c ∈ kept, (Binary.commit c).length ≤ Frame.mostBytes)
    (large : Frame.mostBytes < (Binary.commit d).length)
    (hlt : (Binary.commit d).length < 2 ^ 32) (obstructed : Bool) :
    e.Reopens (kept ++ [d]) ⟨.ofCommits kept, .opened obstructed (LogWriter.fileOf kept)⟩ kept := by
  refine ⟨fits, obstructed, ⟨kept, (LogWriter.fileOf kept).size⟩, ?_, rfl⟩
  rw [hs.holds.bytes]
  exact Store.ofFile_cut fits ⟨rfl, small, large⟩ hlt obstructed

theorem store_of_reopens (hs : e.Sound cs) (h : e.Reopens cs store kept) :
    (∃ obstructed, store = ⟨.ofCommits kept, .opened obstructed (LogWriter.fileOf kept)⟩) ∧
      (∀ c ∈ kept, c.Readable) ∧
      (cs = kept ∨ ∃ d, cs = kept ++ [d] ∧ Frame.mostBytes < (Binary.commit d).length) := by
  obtain ⟨fits, obstructed, replay, opened, rfl⟩ := h
  rw [hs.holds.bytes] at opened
  obtain ⟨store, readable, cases⟩ := Store.ofFile_cases fits opened
  exact ⟨⟨obstructed, store⟩, readable, cases⟩

theorem kept_of_readable (hs : e.Sound cs) (hcs : ∀ c ∈ cs, c.Readable)
    (h : e.Reopens cs store kept) : kept = cs := by
  obtain ⟨-, -, same | ⟨d, last, large⟩⟩ := hs.store_of_reopens h
  · exact same.symm
  · have small := (hcs d (last ▸ List.mem_append_right _ (.head _))).length
    exact absurd large (Nat.not_lt.2 small)

theorem alike_of_reopens (hs : e.Sound cs) (h : e.Reopens cs store cs) :
    e.tables.Alike store.tables := by
  obtain ⟨⟨obstructed, rfl⟩, -, -⟩ := hs.store_of_reopens h
  exact hs.described.symm

/-- All is read again, or all but a reservation whose commit in the snapshot is over the limit. -/
theorem reopens_cases (hs : e.Sound cs) (h : e.Reopens cs store kept) :
    kept = cs ∧ e.tables.Alike store.tables ∨
      ∃ r, cs = kept ++ [e.tables.reservationCommit r] ∧
        Frame.mostBytes < (Binary.commit (e.tables.reservationCommit r)).length ∧
        e.tables.Forgets r store.tables := by
  obtain ⟨⟨obstructed, rfl⟩, -, rfl | ⟨d, last, large⟩⟩ := hs.store_of_reopens h
  · exact .inl ⟨rfl, hs.described.symm⟩
  have snapshot : kept ++ [d] = e.tables.parkings.values.map e.tables.parkingCommit ++
      e.tables.reservations.values.map e.tables.reservationCommit :=
    last.symm.trans (hs.oversized last large)
  rcases List.eq_nil_or_concat' e.tables.reservations.values with none | ⟨rs, r, values⟩
  · -- the last commit would be that of a parking, which is short
    rw [none, List.map_nil, List.append_nil] at snapshot
    have mem : d ∈ e.tables.parkings.values.map e.tables.parkingCommit :=
      snapshot ▸ List.mem_append_right _ (.head _)
    obtain ⟨p, hp, rfl⟩ := List.mem_map.1 mem
    obtain ⟨id, hid⟩ := Table.mem_values.1 hp
    exact absurd large (Nat.not_lt.2 (hs.slight.parkingCommit hid).length_le)
  · rw [values, List.map_append, List.map_singleton, ← List.append_assoc] at snapshot
    obtain ⟨rfl, same⟩ := List.append_inj' snapshot rfl
    cases same
    exact .inr ⟨r, last, large, hs.linked.forgets_last values⟩

theorem sectors_of_reopens (hs : e.Sound cs) (h : e.Reopens cs store kept) :
    store.tables.sectors = e.tables.sectors := by
  rcases hs.reopens_cases h with ⟨-, alike⟩ | ⟨_, -, -, forgets⟩
  · exact alike.sectors.symm
  · exact forgets.sectors

theorem reopened (hs : e.Sound cs) (h : e.Reopens cs store kept) (settings : Settings)
    (notifier : Notifier) (supply : Nat → Ulid) :
    (ofStore settings notifier supply store).Sound kept := by
  obtain ⟨⟨obstructed, opened⟩, readable, -⟩ := hs.store_of_reopens h
  have tables : store.tables.Linked ∧ store.tables.Slight := by
    rcases hs.reopens_cases h with ⟨-, alike⟩ | ⟨r, -, -, forgets⟩
    · exact ⟨alike.linked hs.linked, alike.slight hs.slight⟩
    · exact ⟨forgets.linked hs.linked, forgets.slight hs.slight⟩
  refine ⟨tables.1, tables.2, ?_, ?_, fun last large => ?_⟩
  · rw [opened]
    exact .opened _ _
  · rw [opened]
    exact .refl _
  · have small := (readable _ (last ▸ List.mem_append_right _ (.head _))).length
    exact absurd large (Nat.not_lt.2 small)

end Engine.Sound

/-! ### Reachable engines -/

def Engine.fresh (settings : Settings) (notifier : Notifier) (supply : Nat → Ulid)
    (obstructed : Bool) : Engine :=
  .ofStore settings notifier supply ⟨.empty, .opened obstructed .empty⟩

def Engine.serve (e : Engine) : List Request → Engine
  | [] => e
  | r :: rs => (e.run (r.program e.settings)).engine.serve rs

theorem Engine.serve_append (e : Engine) (rs rs' : List Request) :
    e.serve (rs ++ rs') = (e.serve rs).serve rs' := by
  induction rs generalizing e with
  | nil => rfl
  | cons r rs ih => exact ih _

theorem Engine.Sound.invariant_serve {P : Tables → Prop} {e : Engine} {cs : List Commit}
    (hs : e.Sound cs) (he : P e.tables)
    (kept : ∀ {ctx t op ids txn}, t.Linked → Transition e.settings ctx t op ids txn →
      (∀ c ∈ txn, c.suits t) → P t → P (t.apply txn.writes)) (rs : List Request) :
    P (e.serve rs).tables := by
  induction rs generalizing e cs with
  | nil => exact he
  | cons r rs ih =>
    have steps := Program.Steps.request e.settings r e cs
    refine ih (hs.steps (x := (e, cs)) steps)
      (hs.invariant (x := (e, cs)) steps he fun linked _ => kept linked) ?_
    rw [settings_run]
    exact kept

/-- The engines that come about by requests that may be asked, and by the log being opened anew
where `opens` admits what is left of it. -/
inductive Engine.Leads (may : Engine → Request → Prop) (opens : List Commit → List Commit → Prop)
    (e : Engine) (cs : List Commit) : Engine → List Commit → Prop
  | here : Leads may opens e cs e cs
  | asked {e' : Engine} {cs' : List Commit} (q : Request) : Leads may opens e cs e' cs' →
    may e' q → Leads may opens e cs (e'.run (q.program e'.settings)).engine
      (e'.logged cs' (q.program e'.settings))
  | reopened {e' : Engine} {cs' kept : List Commit} {store : Store} (settings : Settings)
      (notifier : Notifier) (supply : Nat → Ulid) : Leads may opens e cs e' cs' →
    e'.Reopens cs' store kept → opens cs' kept →
    Leads may opens e cs (.ofStore settings notifier supply store) kept

/-- However much of the log is read again. -/
abbrev Engine.Becomes (e : Engine) (cs : List Commit) : Engine → List Commit → Prop :=
  Leads (fun _ _ => True) (fun _ _ => True) e cs

/-- As long as all of the log is read again. -/
abbrev Engine.Onward (e : Engine) (cs : List Commit) : Engine → List Commit → Prop :=
  Leads (fun _ _ => True) Eq e cs

def Engine.Reachable (e : Engine) (cs : List Commit) : Prop :=
  ∃ settings notifier supply obstructed, (fresh settings notifier supply obstructed).Becomes [] e cs

namespace Engine.Reachable

variable {e : Engine} {cs : List Commit}

theorem fresh (settings : Settings) (notifier : Notifier) (supply : Nat → Ulid)
    (obstructed : Bool) : (Engine.fresh settings notifier supply obstructed).Reachable [] :=
  ⟨settings, notifier, supply, obstructed, .here⟩

theorem asked (h : e.Reachable cs) (q : Request) :
    (e.run (q.program e.settings)).engine.Reachable (e.logged cs (q.program e.settings)) := by
  obtain ⟨settings, notifier, supply, obstructed, h⟩ := h
  exact ⟨settings, notifier, supply, obstructed, h.asked q trivial⟩

theorem reopened (h : e.Reachable cs) {store : Store} {kept : List Commit}
    (opened : e.Reopens cs store kept) (settings : Settings) (notifier : Notifier)
    (supply : Nat → Ulid) : (Engine.ofStore settings notifier supply store).Reachable kept := by
  obtain ⟨settings', notifier', supply', obstructed, h⟩ := h
  exact ⟨settings', notifier', supply', obstructed, h.reopened _ _ _ opened trivial⟩

@[elab_as_elim]
theorem induct {motive : (e : Engine) → (cs : List Commit) → e.Reachable cs → Prop}
    (begun : ∀ settings notifier supply obstructed,
      motive _ _ (fresh settings notifier supply obstructed))
    (asked : ∀ {e cs} (q : Request) (h : e.Reachable cs), motive e cs h → motive _ _ (h.asked q))
    (reopened : ∀ {e cs store kept} (settings : Settings) (notifier : Notifier)
      (supply : Nat → Ulid) (h : e.Reachable cs) (opened : e.Reopens cs store kept),
      motive e cs h → motive _ _ (h.reopened opened settings notifier supply))
    {e : Engine} {cs : List Commit} (h : e.Reachable cs) : motive e cs h := by
  obtain ⟨settings, notifier, supply, obstructed, h⟩ := h
  induction h with
  | here => exact begun _ _ _ _
  | asked q before _ ih => exact asked q ⟨_, _, _, _, before⟩ ih
  | reopened _ _ _ before opened _ ih => exact reopened _ _ _ ⟨_, _, _, _, before⟩ opened ih

theorem sound (h : e.Reachable cs) : e.Sound cs := by
  induction h using induct with
  | begun settings notifier supply obstructed =>
    refine ⟨.empty, .empty, LogFile.Holds.opened obstructed [], .refl _, fun last => ?_⟩
    simp at last
  | asked q _ ih => exact ih.steps (Program.Steps.request _ q _ _)
  | reopened _ _ _ _ opened ih => exact ih.reopened opened _ _ _

theorem linked (h : e.Reachable cs) : e.tables.Linked := h.sound.linked

/-- An invariant of transitions, of forgetting a reservation and of the order of indexes. -/
theorem invariant {P : Tables → Prop} (h : e.Reachable cs) (empty : P .empty)
    (alike : ∀ {t t'}, t.Alike t' → P t → P t')
    (forgets : ∀ {t t' r}, t.Linked → t.Forgets r t' → P t → P t')
    (kept : ∀ {settings ctx t op ids txn}, t.Linked → Transition settings ctx t op ids txn →
      (∀ c ∈ txn, c.suits t) → P t → P (t.apply txn.writes)) : P e.tables := by
  induction h using induct with
  | begun => exact empty
  | @asked e cs q reachable ih =>
    exact reachable.sound.invariant (x := (e, cs)) (Program.Steps.request _ q e cs) ih
      fun linked _ => kept linked
  | reopened _ _ _ reachable opened ih =>
    rcases reachable.sound.reopens_cases opened with ⟨-, same⟩ | ⟨r, -, -, less⟩
    · exact alike same ih
    · exact forgets reachable.linked less ih

theorem serve (h : e.Reachable cs) (rs : List Request) : ∃ cs', (e.serve rs).Reachable cs' := by
  induction rs generalizing e cs with
  | nil => exact ⟨cs, h⟩
  | cons r rs ih => exact ih (h.asked r)

end Engine.Reachable

theorem Engine.Leads.reachable {may : Engine → Request → Prop}
    {opens : List Commit → List Commit → Prop} {e e' : Engine} {cs cs' : List Commit}
    (h : Leads may opens e cs e' cs') (he : e.Reachable cs) : e'.Reachable cs' := by
  induction h with
  | here => exact he
  | asked q _ _ ih => exact ih.asked q
  | reopened _ _ _ _ opened _ ih => exact ih.reopened opened _ _ _

/-- On the way the log is opened without its last entry, that of the reservation, which is larger
than a frame may be. -/
def Engine.Drops (may : Engine → Request → Prop) (opens : List Commit → List Commit → Prop)
    (e : Engine) (cs : List Commit) (e' : Engine) (cs' : List Commit) (id : Ulid) : Prop :=
  ∃ (before : Engine) (kept : List Commit) (r : Reservation) (store : Store) (settings : Settings)
    (notifier : Notifier) (supply : Nat → Ulid),
    let entry := before.tables.reservationCommit r
    Leads may opens e cs before (kept ++ [entry]) ∧ r.id = id ∧
      Frame.mostBytes < (Binary.commit entry).length ∧
      before.Reopens (kept ++ [entry]) store kept ∧ opens (kept ++ [entry]) kept ∧
      Leads may opens (ofStore settings notifier supply store) kept e' cs'

namespace Engine.Drops

variable {may : Engine → Request → Prop} {opens : List Commit → List Commit → Prop}
  {e e' : Engine} {cs cs' kept : List Commit} {store : Store} {id : Ulid}

theorem asked (h : Drops may opens e cs e' cs' id) {q : Request} (allowed : may e' q) :
    Drops may opens e cs (e'.run (q.program e'.settings)).engine
      (e'.logged cs' (q.program e'.settings)) id := by
  obtain ⟨before, kept, r, store, settings, notifier, supply, first, its, large, opened, less,
    after⟩ := h
  exact ⟨before, kept, r, store, settings, notifier, supply, first, its, large, opened, less,
    after.asked q allowed⟩

theorem reopened (h : Drops may opens e cs e' cs' id) (opened : e'.Reopens cs' store kept)
    (allowed : opens cs' kept) (settings : Settings) (notifier : Notifier) (supply : Nat → Ulid) :
    Drops may opens e cs (ofStore settings notifier supply store) kept id := by
  obtain ⟨before, kept, r, store, settings', notifier', supply', first, its, large, opened', less,
    after⟩ := h
  exact ⟨before, kept, r, store, settings', notifier', supply', first, its, large, opened', less,
    after.reopened settings notifier supply opened allowed⟩

theorem of_onward : ¬ Drops may Eq e cs e' cs' id := by
  rintro ⟨_, kept, r, _, _, _, _, -, -, -, -, same, -⟩
  simp at same

end Engine.Drops

end Carpark
