import Carpark.Proofs.Workshop

/-!
Whoever reads the row of a reservation first and its gate log afterwards, while commits are being
written to the tables, may find events that are newer than the row. None that came with the row or
before it are missing, and if the row is still the same when the reader comes back with a commit of
its own, there were no newer ones either.
-/

namespace Carpark

open Relation

variable {id : Ulid}

/-! ### A row and its gate log -/

namespace Commit

def level (c : Commit) (id : Ulid) : Version :=
  ((c.last? (.reservation id)).bind Write.row?).elim 0 Row.version

def Spares (c : Commit) (id : Ulid) : Prop := ∀ w ∈ c, w.subject ≠ .reservation id

variable {c : Commit}

theorem Spares.last? (h : c.Spares id) : c.last? (.reservation id) = none :=
  last?_eq_none.2 fun w hw hkey => h w hw (Write.subject_of_key? hkey)

theorem Spares.eventsOf (h : c.Spares id) : c.eventsOf id = [] := by
  refine List.eq_nil_iff_forall_not_mem.2 fun e he => ?_
  obtain ⟨hw, rfl⟩ := exists_mem_of_mem_eventsOf he
  exact h _ hw rfl

theorem eventsOf_of_row {w : Write} {rest : Commit} (h : w :: rest <:+ c.ordered)
    (row : w.isEvent = false) : Commit.eventsOf rest id = [] := by
  have ordered : c.ordered.Pairwise fun a b => b.isEvent = true → a.isEvent = true := by
    refine List.pairwise_append.2 ⟨?_, ?_, fun a ha _ _ _ => (List.mem_filter.1 ha).2⟩
    · exact List.pairwise_of_forall_mem_list fun a ha _ _ _ => (List.mem_filter.1 ha).2
    · refine List.pairwise_of_forall_mem_list fun _ _ b hb event => ?_
      have none := (List.mem_filter.1 hb).2
      rw [event] at none
      cases none
  obtain ⟨first, -⟩ := List.pairwise_cons.1 (ordered.sublist h.sublist)
  refine List.eq_nil_iff_forall_not_mem.2 fun e he => ?_
  cases row.symm.trans (first _ (exists_mem_of_mem_eventsOf he).1 rfl)

end Commit

namespace Tables

variable {t t' : Tables}

def level (t : Tables) (id : Ulid) : Version := (t.version? (.reservation id)).getD 0

/-- The events that were there at the start, or came with commits up to this version. -/
def eventsUpTo (t : Tables) (cs : List Commit) (id : Ulid) (v : Version) : List GateEvent :=
  t.eventsOf id ++ (cs.filter (·.level id ≤ v)).flatMap (·.eventsOf id)

def dossier (t : Tables) (id : Ulid) : Option Row × List GateEvent :=
  (t.row? (.reservation id), t.eventsOf id)

theorem row?_of_dossier (h : t.dossier id = t'.dossier id) :
    t.row? (.reservation id) = t'.row? (.reservation id) := congrArg Prod.fst h

theorem eventsOf_of_dossier (h : t.dossier id = t'.dossier id) : t.eventsOf id = t'.eventsOf id :=
  congrArg Prod.snd h

theorem version?_of_dossier (h : t.dossier id = t'.dossier id) :
    t.version? (.reservation id) = t'.version? (.reservation id) := by
  rw [version?_eq, version?_eq, row?_of_dossier h]

theorem level_of_dossier (h : t.dossier id = t'.dossier id) : t.level id = t'.level id := by
  rw [level, level, version?_of_dossier h]

theorem dossier_foldl (h : t.dossier id = t'.dossier id) (c : Commit) :
    (c.foldl write t).dossier id = (c.foldl write t').dossier id := by
  rw [dossier, dossier, row?_foldl, row?_foldl, eventsOf_foldl, eventsOf_foldl,
    eventsOf_of_dossier h, row?_of_dossier h]

theorem dossier_of_spares {c : Commit} (h : c.Spares id) :
    (c.foldl write t).dossier id = t.dossier id := by
  rw [dossier, row?_foldl, eventsOf_foldl, h.last?, h.eventsOf, List.append_nil]
  rfl

theorem version?_of_row {w : Write} (h : w.key? = some (.reservation id)) :
    (t.write w).version? (.reservation id) = w.row?.map Row.version := by
  rw [version?_eq, row?_write, if_pos h]

theorem level_of_not_row {w : Write} (h : w.key? ≠ some (.reservation id)) :
    (t.write w).level id = t.level id := by
  rw [level, level, version?_eq, version?_eq, row?_write, if_neg h]

theorem eventsUpTo_concat (cs : List Commit) (c : Commit) (v : Version) :
    t.eventsUpTo (cs ++ [c]) id v =
      t.eventsUpTo cs id v ++ if c.level id ≤ v then c.eventsOf id else [] := by
  rw [eventsUpTo, List.filter_append, List.flatMap_append, ← List.append_assoc]
  split <;> simp [eventsUpTo, *]

end Tables

theorem Txn.version_of_write {txn : Txn} {v : Option Version} {w : Write}
    (expects : ∀ v', (.reservation id, v') ∈ txn.expects → v' = v) (hw : w ∈ txn.writes)
    (hkey : w.key? = some (.reservation id)) : w.row?.map Row.version = some (Version.next v) := by
  obtain ⟨v', hv', gone | next⟩ := exists_expects hw hkey
  · cases w <;> cases hkey
    cases gone
  · rw [next, expects v' hv']

theorem Txn.reservation_mem_lockKeys {txn : Txn} :
    .reservation id ∈ txn.lockKeys ↔ ∃ v, (.reservation id, v) ∈ txn.expects := by
  rw [mem_lockKeys, or_iff_left]
  rintro ⟨_, _, -, key⟩
  cases key

theorem Txn.level_writes {txn : Txn} {v : Option Version}
    (expects : ∀ v', (.reservation id, v') ∈ txn.expects → v' = v)
    (locked : .reservation id ∈ txn.lockKeys) (t : Tables) :
    Commit.level txn.writes id = Version.next v ∧
      (t.apply txn.writes).version? (.reservation id) = some (Version.next v) := by
  obtain ⟨v', hv'⟩ := reservation_mem_lockKeys.1 locked
  obtain ⟨w, hw, hkey⟩ := exists_write hv'
  obtain ⟨last, hlast⟩ : ∃ last, Commit.last? txn.writes (.reservation id) = some last :=
    Option.ne_none_iff_exists'.1 fun none => Commit.last?_eq_none.1 none w hw hkey
  obtain ⟨mem, hkey'⟩ := Commit.mem_of_last? hlast
  have left := version_of_write expects mem hkey'
  obtain ⟨row, hrow, version⟩ := Option.map_eq_some_iff.1 left
  refine ⟨?_, ?_⟩
  · rw [Commit.level, hlast, Option.bind_some, hrow, Option.elim_some, version]
  · rw [Tables.version?_eq, Tables.row?_apply, hlast]
    exact left

theorem Version.lt_next (v : Option Version) : v.getD 0 < Version.next v := by
  cases v with
  | none => exact Nat.one_pos
  | some v => exact Nat.lt_succ_self v

theorem Txn.Covers.spares {txn : Txn} (h : txn.Covers) (unlocked : .reservation id ∉ txn.lockKeys) :
    Commit.Spares txn.writes id := fun _ hw about => unlocked (about ▸ h.subject_mem_lockKeys hw)

def Job.Covers : Job → Prop
  | .commit txn => txn.Covers
  | .compact | .count => True

/-! ### What holds between any two steps -/

/-- What is to be written brings the reservation to where it will be once all is settled. -/
structure Owes (t settled : Tables) (id : Ulid) (rest : Commit) : Prop where
  due : (rest.foldl Tables.write t).dossier id = settled.dossier id
  rows : ∀ w ∈ rest, w.key? = some (.reservation id) →
    w.row?.map Row.version = settled.version? (.reservation id)

namespace Worker

def Alters (id : Ulid) (w : Worker) : Prop :=
  ∃ txn taken rest, w.job = .commit txn ∧ w.stage = .applying taken rest ∧
    .reservation id ∈ txn.lockKeys

/-- A commit that waits for the log finds the row as expected; one that is being written owes the
rest. -/
def Tallies (t settled : Tables) (id : Ulid) (w : Worker) : Prop :=
  match w.job, w.stage with
  | .commit txn, .logging _ =>
    ∀ v, (.reservation id, v) ∈ txn.expects → t.version? (.reservation id) = v
  | .commit txn, .applying _ rest => .reservation id ∈ txn.lockKeys → Owes t settled id rest
  | _, _ => True

variable {t t' settled settled' : Tables} {w : Worker}

theorem Tallies.of_dossier (h : w.Tallies t settled id) (same : t'.dossier id = t.dossier id)
    (same' : settled'.dossier id = settled.dossier id) : w.Tallies t' settled' id := by
  obtain ⟨i, job, stage⟩ := w
  cases job with
  | commit txn =>
    cases stage with
    | logging taken => exact fun v hv => (Tables.version?_of_dossier same).trans (h v hv)
    | applying taken rest =>
      intro locked
      obtain ⟨due, rows⟩ := h locked
      exact ⟨(Tables.dossier_foldl same rest).trans (due.trans same'.symm),
        fun w hw hkey => (rows w hw hkey).trans (Tables.version?_of_dossier same').symm⟩
    | _ => trivial
  | _ => cases stage <;> trivial

end Worker

namespace Workshop

variable {base : Tables} {S S' : Workshop}

/-- The tables with all acknowledged commits in them. -/
def settled (base : Tables) (S : Workshop) : Tables := S.logged.foldl Tables.apply base

structure Tallied (base : Tables) (id : Ulid) (S : Workshop) : Prop extends S.Sound where
  covers : ∀ w ∈ S.crew, w.job.Covers
  each : ∀ w ∈ S.crew, w.Tallies S.tables (S.settled base) id
  idle : (∀ w ∈ S.crew, ¬ w.Alters id) → S.tables.dossier id = (S.settled base).dossier id
  total : ∀ v, base.eventsUpTo S.logged id v <+: (S.settled base).eventsOf id ∧
    ((S.settled base).level id ≤ v →
      base.eventsUpTo S.logged id v = (S.settled base).eventsOf id)
  rising : S.tables.level id ≤ (S.settled base).level id
  /-- The gate log has all that came with the row or before it. -/
  seen : base.eventsUpTo S.logged id (S.tables.level id) <+: S.tables.eventsOf id

namespace Tallied

theorem rest (store : Store) (id : Ulid) : Tallied store.tables id (rest store) where
  toSound := .rest store
  covers := List.forall_mem_nil _
  each := List.forall_mem_nil _
  idle := fun _ => rfl
  total := fun v => by simp [Workshop.rest, settled, Tables.eventsUpTo]
  rising := Nat.le_refl _
  seen := by simp [Workshop.rest, tables, SharedStore.ofStore, Tables.eventsUpTo]

theorem still (h : Tallied base id S) (sound : S'.Sound)
    (tables : S'.tables.dossier id = S.tables.dossier id)
    (settled : (S'.settled base).dossier id = (S.settled base).dossier id)
    (logged : ∀ v, base.eventsUpTo S'.logged id v = base.eventsUpTo S.logged id v)
    (covers : ∀ w ∈ S'.crew, w.job.Covers)
    (each : ∀ w ∈ S'.crew, w.Tallies S.tables (S.settled base) id)
    (idle : (∀ w ∈ S'.crew, ¬ w.Alters id) → S.tables.dossier id = (S.settled base).dossier id) :
    Tallied base id S' where
  toSound := sound
  covers := covers
  each := fun w hw => (each w hw).of_dossier tables settled
  idle := fun none => tables.trans ((idle none).trans settled.symm)
  total := fun v => by
    rw [logged, Tables.eventsOf_of_dossier settled, Tables.level_of_dossier settled]
    exact h.total v
  rising := by
    rw [Tables.level_of_dossier settled, Tables.level_of_dossier tables]
    exact h.rising
  seen := by
    rw [logged, Tables.level_of_dossier tables, Tables.eventsOf_of_dossier tables]
    exact h.seen

end Tallied

theorem Sound.others_tally {others : List Worker} {i : TaskId} {txn : Txn} {stage : Stage}
    (h : S.Sound)
    (crew : S.crew.Perm (⟨i, .commit txn, stage⟩ :: others))
    (checked : Job.isChecked (.commit txn) stage = true) (locked : .reservation id ∈ txn.lockKeys)
    (t settled : Tables) : ∀ w ∈ others, w.Tallies t settled id ∧ ¬ w.Alters id := by
  rintro ⟨j, job, stage'⟩ hw
  cases job with
  | commit txn' =>
    cases stage' with
    | logging taken' =>
      have free := h.unlocked crew checked locked hw rfl rfl
      exact ⟨fun v hv => absurd (Txn.reservation_mem_lockKeys.2 ⟨v, hv⟩) free,
        fun ⟨_, _, _, _, applying, _⟩ => by cases applying⟩
    | applying taken' rest =>
      have free := h.unlocked crew checked locked hw rfl rfl
      refine ⟨fun locked' => absurd locked' free, ?_⟩
      rintro ⟨_, _, _, ⟨⟩, -, locked'⟩
      exact free locked'
    | _ => exact ⟨trivial, fun ⟨_, _, _, _, applying, _⟩ => by cases applying⟩
  | _ =>
    refine ⟨by cases stage' <;> trivial, ?_⟩
    rintro ⟨_, _, _, ⟨⟩, -⟩

namespace Tallied

variable {others : List Worker} {i : TaskId} {txn : Txn} {taken : List Nat}

theorem covers_moved {job : Job} {stage : Stage} (h : Tallied base id S)
    (crew : S.crew.Perm (⟨i, job, stage⟩ :: others)) (stage' : Stage) :
    ∀ w ∈ (⟨i, job, stage'⟩ : Worker) :: others, w.job.Covers := by
  obtain ⟨me, rest⟩ := List.forall_mem_cons.1 fun w hw => h.covers w (crew.mem_iff.2 hw)
  exact List.forall_mem_cons.2 ⟨me, rest⟩

theorem settled_of_locked {stage : Stage} (h : Tallied base id S)
    (crew : S.crew.Perm (⟨i, .commit txn, stage⟩ :: others))
    (calm : ∀ taken rest, stage ≠ .applying taken rest)
    (checked : Sound { S with crew := ⟨i, .commit txn, .logging taken⟩ :: others })
    (locked : .reservation id ∈ txn.lockKeys) :
    S.tables.dossier id = (S.settled base).dossier id := by
  refine h.idle fun w hw => ?_
  rcases List.mem_cons.1 (crew.mem_iff.1 hw) with rfl | hw
  · exact fun ⟨_, _, _, _, applying, _⟩ => calm _ _ applying
  · exact (checked.others_tally (.refl _) rfl locked S.tables base w hw).2

theorem expects_of_logging (h : Tallied base id S)
    (crew : S.crew.Perm (⟨i, .commit txn, .logging taken⟩ :: others)) (v : Option Version)
    (hv : (.reservation id, v) ∈ txn.expects) :
    v = (S.settled base).version? (.reservation id) := by
  have current := h.each _ (crew.mem_iff.2 (.head _)) v hv
  rw [← current, Tables.version?_of_dossier]
  exact h.settled_of_locked crew nofun (h.toSound.perm crew)
    (Txn.reservation_mem_lockKeys.2 ⟨v, hv⟩)

theorem level_lt (h : Tallied base id S)
    (crew : S.crew.Perm (⟨i, .commit txn, .logging taken⟩ :: others))
    (locked : .reservation id ∈ txn.lockKeys) :
    (S.settled base).level id < Commit.level txn.writes id := by
  rw [(Txn.level_writes (h.expects_of_logging crew) locked base).1]
  exact Version.lt_next _

theorem acknowledge (h : Tallied base id S)
    (crew : S.crew.Perm (⟨i, .commit txn, .logging taken⟩ :: others))
    (locked : .reservation id ∈ txn.lockKeys) (sound : S'.Sound)
    (crew' : S'.crew = ⟨i, .commit txn, .applying taken txn.writes.ordered⟩ :: others)
    (tables : S'.tables = S.tables) (logged : S'.logged = S.logged ++ [txn.writes]) :
    Tallied base id S' := by
  have rest := h.toSound.others_tally crew rfl locked
  have settled : S'.settled base = (S.settled base).apply txn.writes := by
    rw [Workshop.settled, logged, List.foldl_append]
    rfl
  have same := h.settled_of_locked crew nofun (h.toSound.perm crew) locked
  have expects := h.expects_of_logging crew
  have grows := h.level_lt crew locked
  obtain ⟨level, version⟩ := Txn.level_writes expects locked (S.settled base)
  have next : (S'.settled base).level id = Commit.level txn.writes id := by
    rw [settled, level, Tables.level, version]
    rfl
  refine ⟨sound, crew' ▸ h.covers_moved crew _, fun w hw => ?_, fun none => ?_, fun v => ?_, ?_, ?_⟩
  · rcases List.mem_cons.1 (crew' ▸ hw) with rfl | hw
    · refine fun _ => ⟨?_, fun w hw hkey => ?_⟩
      · rw [tables, settled]
        exact Tables.dossier_foldl same txn.writes.ordered
      · rw [settled, version]
        exact Txn.version_of_write expects ((Commit.ordered_perm _).mem_iff.1 hw) hkey
    · exact (rest _ _ w hw).1
  · have me := none _ (crew' ▸ List.mem_cons_self)
    exact absurd ⟨txn, taken, _, rfl, rfl, locked⟩ me
  · rw [logged, next, settled, Tables.eventsUpTo_concat, Tables.eventsOf_apply]
    split
    next le =>
      have all := (h.total v).2 (Nat.le_trans (Nat.le_of_lt grows) le)
      exact ⟨all ▸ List.prefix_rfl, fun _ => all ▸ rfl⟩
    next early =>
      rw [List.append_nil]
      exact ⟨(h.total v).1.trans (List.prefix_append _ _), fun le => absurd le early⟩
  · rw [next, tables]
    exact Nat.le_trans h.rising (Nat.le_of_lt grows)
  · rw [tables, logged, Tables.eventsUpTo_concat,
      if_neg (Nat.not_le_of_lt (Nat.lt_of_le_of_lt h.rising grows)), List.append_nil]
    exact h.seen

theorem write (h : Tallied base id S) {w : Write} {rest : Commit}
    (crew : S.crew.Perm (⟨i, .commit txn, .applying taken (w :: rest)⟩ :: others))
    (locked : .reservation id ∈ txn.lockKeys) (sound : S'.Sound)
    (crew' : S'.crew = ⟨i, .commit txn, .applying taken rest⟩ :: others)
    (tables : S'.tables = S.tables.write w) (logged : S'.logged = S.logged) :
    Tallied base id S' := by
  have free := h.toSound.others_tally crew rfl locked
  have settled : S'.settled base = S.settled base := by
    rw [Workshop.settled, logged, Workshop.settled]
  obtain ⟨due, rows⟩ : Owes S.tables (S.settled base) id (w :: rest) :=
    h.each _ (crew.mem_iff.2 (.head _)) locked
  have level : S'.tables.level id = (S.settled base).level id ∧
        S'.tables.eventsOf id = (S.settled base).eventsOf id ∨
      S'.tables.level id = S.tables.level id := by
    by_cases hkey : w.key? = some (.reservation id)
    · have last : Commit.eventsOf rest id = [] :=
        Commit.eventsOf_of_row (h.proper _ (crew.mem_iff.2 (.head _)) txn taken _ rfl rfl)
          (by cases w <;> first | rfl | cases hkey)
      have events := Tables.eventsOf_of_dossier due
      rw [List.foldl_cons, Tables.eventsOf_foldl, last, List.append_nil] at events
      refine .inl ⟨?_, tables ▸ events⟩
      rw [tables, Tables.level, Tables.version?_of_row hkey, rows w (.head _) hkey, Tables.level]
    · exact .inr (tables ▸ Tables.level_of_not_row hkey)
  refine ⟨sound, crew' ▸ h.covers_moved crew _, fun w hw => ?_, fun none => ?_, ?_, ?_, ?_⟩
  · rcases List.mem_cons.1 (crew' ▸ hw) with rfl | hw
    · exact fun _ => ⟨tables ▸ settled ▸ due, fun w hw => settled ▸ rows w (.tail _ hw)⟩
    · exact (free _ _ w hw).1
  · have me := none _ (crew' ▸ List.mem_cons_self)
    exact absurd ⟨txn, taken, _, rfl, rfl, locked⟩ me
  · rw [logged, settled]
    exact h.total
  · rw [settled]
    rcases level with ⟨last, -⟩ | same
    · exact Nat.le_of_eq last
    · exact same ▸ h.rising
  · rw [logged]
    rcases level with ⟨last, events⟩ | same
    · rw [events]
      exact (h.total _).1
    · rw [same, tables, Tables.eventsOf_write]
      exact h.seen.trans (List.prefix_append _ _)

theorem quiet {job : Job} {stage stage' : Stage} (h : Tallied base id S)
    (crew : S.crew.Perm (⟨i, job, stage⟩ :: others)) (sound : S'.Sound)
    (crew' : S'.crew = ⟨i, job, stage'⟩ :: others) (tables : S'.tables = S.tables)
    (logged : S'.logged = S.logged)
    (tallies : Worker.Tallies S.tables (S.settled base) id ⟨i, job, stage'⟩)
    (idle : Worker.Alters id ⟨i, job, stage⟩ → S.tables.dossier id = (S.settled base).dossier id) :
    Tallied base id S' := by
  refine h.still sound (tables ▸ rfl) (by rw [settled, logged, settled]) (fun v => logged ▸ rfl)
    (crew' ▸ h.covers_moved crew _) ?_ fun none => ?_
  · rw [crew']
    exact List.forall_mem_cons.2 ⟨tallies, fun w hw => h.each w (crew.mem_iff.2 (.tail _ hw))⟩
  · by_cases alters : Worker.Alters id ⟨i, job, stage⟩
    · exact idle alters
    · refine h.idle fun w hw => ?_
      rcases List.mem_cons.1 (crew.mem_iff.1 hw) with rfl | hw
      · exact alters
      · exact none w (crew' ▸ .tail _ hw)

theorem elsewhere {stage stage' : Stage} (h : Tallied base id S)
    (crew : S.crew.Perm (⟨i, .commit txn, stage⟩ :: others))
    (unlocked : .reservation id ∉ txn.lockKeys) (sound : S'.Sound)
    (crew' : S'.crew = ⟨i, .commit txn, stage'⟩ :: others)
    (applying : ∃ rest, stage' = .applying taken rest)
    (tables : S'.tables.dossier id = S.tables.dossier id)
    (settled : (S'.settled base).dossier id = (S.settled base).dossier id)
    (logged : ∀ v, base.eventsUpTo S'.logged id v = base.eventsUpTo S.logged id v) :
    Tallied base id S' := by
  obtain ⟨rest, rfl⟩ := applying
  refine h.still sound tables settled logged (crew' ▸ h.covers_moved crew _) ?_ fun none => ?_
  · rw [crew']
    exact List.forall_mem_cons.2 ⟨fun locked => absurd locked unlocked,
      fun w hw => h.each w (crew.mem_iff.2 (.tail _ hw))⟩
  · refine h.idle fun w hw => ?_
    rcases List.mem_cons.1 (crew.mem_iff.1 hw) with rfl | hw
    · rintro ⟨_, _, _, ⟨⟩, -, locked⟩
      exact unlocked locked
    · exact none w (crew' ▸ .tail _ hw)

end Tallied

theorem Step.tallied (h : Step (fun _ job => job.Covers) S S') (hs : Tallied base id S) :
    Tallied base id S' := by
  have sound := h.sound hs.toSound
  cases h with
  | start fresh covers =>
    refine hs.still sound rfl rfl (fun _ => rfl) (List.forall_mem_cons.2 ⟨covers, hs.covers⟩)
      (List.forall_mem_cons.2 ⟨?_, hs.each⟩) fun none => hs.idle fun w hw => none w (.tail _ hw)
    rename_i job
    cases job <;> trivial
  | retire crew =>
    refine hs.still sound rfl rfl (fun _ => rfl)
      (fun w hw => hs.covers w (crew.mem_iff.2 (.tail _ hw)))
      (fun w hw => hs.each w (crew.mem_iff.2 (.tail _ hw))) fun none => hs.idle fun w hw => ?_
    rcases List.mem_cons.1 (crew.mem_iff.1 hw) with rfl | hw
    · exact fun ⟨_, _, _, _, applying, _⟩ => by cases applying
    · exact none w hw
  | log => exact hs.still sound rfl rfl (fun _ => rfl) hs.covers hs.each hs.idle
  | @work others i job stage stage' shared crew step =>
    have idle (calm : ∀ txn taken rest, job = .commit txn → stage ≠ .applying taken rest) :
        Worker.Alters id ⟨i, job, stage⟩ → S.tables.dossier id = (S.settled base).dossier id := by
      rintro ⟨txn, taken, rest, rfl, rfl, -⟩
      exact absurd rfl (calm txn taken rest rfl)
    rcases SharedStore.step_cases step with ⟨txn, taken, w, rest, rfl, rfl, rfl, rfl⟩ |
      ⟨moves, same, -, other⟩
    · by_cases locked : .reservation id ∈ txn.lockKeys
      · exact hs.write crew locked sound rfl rfl (List.append_nil _)
      · have covers : txn.Covers := hs.covers _ (crew.mem_iff.2 (.head _))
        have mem : w ∈ Txn.writes txn := (Commit.ordered_perm _).mem_iff.1
          ((hs.proper _ (crew.mem_iff.2 (.head _)) txn taken _ rfl rfl).subset (.head _))
        have spares : Commit.Spares [w] id :=
          List.forall_mem_singleton.2 (covers.spares locked w mem)
        refine hs.elsewhere crew locked sound rfl ⟨rest, rfl⟩
          (Tables.dossier_of_spares spares) ?_ ?_
        · rw [settled]
          exact congrArg (fun cs => Tables.dossier (cs.foldl Tables.apply base) id)
            (List.append_nil _)
        · exact fun v => congrArg (fun cs => base.eventsUpTo cs id v) (List.append_nil _)
    · have quiet := hs.quiet crew sound rfl same
      cases moves with
      | @logged txn taken answer n _ ok =>
        by_cases locked : .reservation id ∈ txn.lockKeys
        · exact hs.acknowledge crew locked sound rfl same rfl
        · have covers : txn.Covers := hs.covers _ (crew.mem_iff.2 (.head _))
          have spares := covers.spares locked
          refine hs.elsewhere crew locked sound rfl ⟨_, rfl⟩ rfl ?_ fun v => ?_
          · have ordered : Commit.Spares (Commit.ordered txn.writes) id := fun w hw =>
              spares w ((Commit.ordered_perm _).mem_iff.1 hw)
            rw [settled, List.foldl_append]
            exact Tables.dossier_of_spares ordered
          · change base.eventsUpTo (S.logged ++ [txn.writes]) id v = _
            rw [Tables.eventsUpTo_concat, spares.eventsOf, ite_self, List.append_nil]
      | pass holds accepted =>
        refine quiet (List.append_nil _) ?_ (idle nofun)
        exact fun v hv => (Tables.refusal?_eq_none_iff.1 accepted).1 _ v hv
      | @write txn taken c =>
        cases c with
        | nil =>
          refine quiet (List.append_nil _) trivial ?_
          rintro ⟨_, _, _, ⟨⟩, ⟨⟩, locked⟩
          exact (hs.each _ (crew.mem_iff.2 (.head _)) locked).due
        | cons w c => exact absurd rfl (other txn taken w c rfl)
      | _ => exact quiet (List.append_nil _) trivial (idle nofun)

theorem Steps.tallied (h : Steps (fun _ job => job.Covers) S S') (hs : Tallied base id S) :
    Tallied base id S' := by
  induction h with
  | refl => exact hs
  | tail _ step ih => exact step.tallied ih

/-! ### Later on -/

/-- Versions do not go down, gate logs grow, and versions that have been do not come again. -/
structure Onward (base : Tables) (id : Ulid) (S S' : Workshop) : Prop where
  level : S.tables.level id ≤ S'.tables.level id
  events : S.tables.eventsOf id <+: S'.tables.eventsOf id
  logged : ∀ v ≤ S.tables.level id, base.eventsUpTo S'.logged id v = base.eventsUpTo S.logged id v

theorem Onward.refl (base : Tables) (id : Ulid) (S : Workshop) : Onward base id S S :=
  ⟨Nat.le_refl _, List.prefix_rfl, fun _ _ => rfl⟩

theorem Onward.trans {S'' : Workshop} (h : Onward base id S S') (h' : Onward base id S' S'') :
    Onward base id S S'' where
  level := Nat.le_trans h.level h'.level
  events := h.events.trans h'.events
  logged := fun v hv => (h'.logged v (Nat.le_trans hv h.level)).trans (h.logged v hv)

theorem Step.onward (h : Step (fun _ job => job.Covers) S S') (hs : Tallied base id S) :
    Onward base id S S' := by
  cases h with
  | @work others i job stage stage' shared crew step =>
    rcases SharedStore.step_cases step with ⟨txn, taken, w, rest, rfl, rfl, rfl, rfl⟩ |
      ⟨moves, same, -⟩
    · refine ⟨?_, ?_, fun v _ => congrArg (base.eventsUpTo · id v) (List.append_nil _)⟩
      · change _ ≤ (S.tables.write w).level id
        by_cases hkey : w.key? = some (.reservation id)
        · have covers : txn.Covers := hs.covers _ (crew.mem_iff.2 (.head _))
          have mem : w ∈ Txn.writes txn := (Commit.ordered_perm _).mem_iff.1
            ((hs.proper _ (crew.mem_iff.2 (.head _)) txn taken _ rfl rfl).subset (.head _))
          have locked := covers.subject_mem_lockKeys mem
          rw [Write.subject_of_key? hkey] at locked
          have owes := hs.each _ (crew.mem_iff.2 (.head _)) locked
          rw [Tables.level, Tables.level, Tables.version?_of_row hkey, owes.rows w (.head _) hkey]
          exact hs.rising
        · exact Nat.le_of_eq (Tables.level_of_not_row hkey).symm
      · exact ⟨_, (Tables.eventsOf_write _ w id).symm⟩
    · have tables : Workshop.tables { S with shared } = S.tables := same
      refine ⟨Nat.le_of_eq (congrArg (·.level id) tables).symm, ?_, fun v hv => ?_⟩
      · exact tables ▸ List.prefix_rfl
      · cases moves with
        | @logged txn taken answer n _ ok =>
          have none : (if Commit.level txn.writes id ≤ v then Commit.eventsOf txn.writes id
              else []) = [] := by
            by_cases locked : .reservation id ∈ txn.lockKeys
            · have late := Nat.lt_of_le_of_lt (Nat.le_trans hv hs.rising) (hs.level_lt crew locked)
              exact if_neg (Nat.not_le_of_lt late)
            · have covers : txn.Covers := hs.covers _ (crew.mem_iff.2 (.head _))
              rw [(covers.spares locked).eventsOf, ite_self]
          change base.eventsUpTo (S.logged ++ [txn.writes]) id v = _
          rw [Tables.eventsUpTo_concat, none, List.append_nil]
        | _ => exact congrArg (base.eventsUpTo · id v) (List.append_nil _)
  | _ => exact ⟨Nat.le_refl _, List.prefix_rfl, fun _ _ => rfl⟩

theorem Steps.onward (h : Steps (fun _ job => job.Covers) S S') (hs : Tallied base id S) :
    Onward base id S S' := by
  induction h with
  | refl => exact .refl base id S
  | tail steps step ih => exact ih.trans (step.onward (Steps.tallied steps hs))

/-! ### Readers -/

/-- Someone has all the locks and has not begun to write. -/
def Poised (S : Workshop) (txn : Txn) : Prop :=
  ∃ i taken, ⟨i, .commit txn, .locking taken []⟩ ∈ S.crew ∧ S.shared.holdsAll i taken = true ∨
    ⟨i, .commit txn, .logging taken⟩ ∈ S.crew

theorem Tallied.settled_of_poised (h : Tallied base id S) {txn : Txn} (poised : S.Poised txn)
    (locked : .reservation id ∈ txn.lockKeys) :
    S.tables.dossier id = (S.settled base).dossier id := by
  obtain ⟨i, taken, ⟨hw, holds⟩ | hw⟩ := poised
  · obtain ⟨others, crew⟩ := Worker.exists_perm hw
    exact h.settled_of_locked crew nofun (h.toSound.holdsAll crew holds) locked
  · obtain ⟨others, crew⟩ := Worker.exists_perm hw
    exact h.settled_of_locked crew nofun (h.toSound.perm crew) locked

/-- A reader without locks, row first and events later, misses no event of the version that it has
seen. If a commit holds the row's lock at that version, it has found exactly what there is. -/
theorem events_of_row {store : Store} {S₁ S₂ S₃ : Workshop} {r : Reservation}
    (before : Steps (fun _ job => job.Covers) (rest store) S₁)
    (row : S₁.tables.reservations.get? id = some r)
    (meanwhile : Steps (fun _ job => job.Covers) S₁ S₂)
    (after : Steps (fun _ job => job.Covers) S₂ S₃) :
    store.tables.eventsUpTo S₃.logged id r.version <+: S₂.tables.eventsOf id ∧
      ∀ txn, S₃.Poised txn → .reservation id ∈ txn.lockKeys →
        S₃.tables.version? (.reservation id) = some r.version →
        S₂.tables.eventsOf id = S₃.tables.eventsOf id ∧
          S₃.tables.eventsOf id = (S₃.logged.foldl Tables.apply store.tables).eventsOf id := by
  have sound₁ := Steps.tallied before (.rest store id)
  have sound₂ := Steps.tallied meanwhile sound₁
  have sound₃ := Steps.tallied after sound₂
  have onward₂ := Steps.onward meanwhile sound₁
  have onward₃ := Steps.onward after sound₂
  have level : S₁.tables.level id = r.version := by
    rw [Tables.level, Tables.version?, row]
    rfl
  have found : store.tables.eventsUpTo S₃.logged id r.version <+: S₂.tables.eventsOf id := by
    rw [(onward₂.trans onward₃).logged _ (Nat.le_of_eq level.symm), ← level]
    exact sound₁.seen.trans onward₂.events
  refine ⟨found, fun txn poised locked still => ?_⟩
  have settled := sound₃.settled_of_poised poised locked
  have version : (S₃.settled store.tables).level id = r.version := by
    rw [← Tables.level_of_dossier settled, Tables.level, still]
    rfl
  have all := (sound₃.total r.version).2 (Nat.le_of_eq version)
  rw [all, ← Tables.eventsOf_of_dossier settled] at found
  exact ⟨onward₃.events.eq_of_length_le (found.length_le), Tables.eventsOf_of_dossier settled⟩

def stay : Reservation :=
  ⟨.ofNat 4, none, .ofNat 1, .ofNat 2, ⟨0, hour⟩, .created, false, some "AB12", 1⟩

def leaving : GateEvent := ⟨.ofNat 5, .ofNat 4, 10, .exit, false⟩

def leave : Txn := [.updateReservation stay, .appendEvent leaving]

theorem lockKeys_leave : leave.lockKeys = [.reservation (.ofNat 4)] :=
  Txn.lockKeys_of_one rfl rfl

theorem covers_leave : leave.Covers := by
  intro e he
  obtain rfl : e = leaving := by simpa [leave] using he
  exact ⟨some 1, .head _⟩

def leavingAt (stage : Stage) (rows : RowLocks) : Workshop where
  shared := ⟨⟨Tables.empty.putReservation stay, .opened false .empty⟩,
    SharedLock.free.join 0 .shared, rows, [], []⟩
  crew := [⟨0, .commit leave, stage⟩]
  logged := []
  landed := []

set_option maxRecDepth 10000 in
theorem events_of_row_leave :
    let store : Store := ⟨Tables.empty.putReservation stay, .opened false .empty⟩
    ∃ P Q : Workshop,
      Steps (fun _ job => job.Covers) (rest store) P ∧ P.Poised leave ∧
      (rest store).tables.eventsOf (.ofNat 4) = P.tables.eventsOf (.ofNat 4) ∧
      Steps (fun _ job => job.Covers) P Q ∧
      Q.tables.reservations.get? (.ofNat 4) = some stay ∧
      Q.tables.eventsOf (.ofNat 4) = [leaving] ∧
      store.tables.eventsUpTo Q.logged (.ofNat 4) 1 <+: Q.tables.eventsOf (.ofNat 4) := by
  intro store
  have covers : Job.Covers (.commit leave) := covers_leave
  have came : Steps (fun _ job => job.Covers) (rest store) _ :=
    ReflTransGen.refl.tail (.start (i := 0) nofun covers)
  have entered := (came.tail (.work (.refl _) rfl)).tail (.work (.refl _) rfl)
  have inside : Steps (fun _ job => job.Covers) (rest store)
      (leavingAt (.locking [] leave.lockKeys) .none) := entered
  rw [lockKeys_leave] at inside
  let rows : RowLocks := ⟨[(.reservation (.ofNat 4), 0)], [⟨[0], [0]⟩]⟩
  let P := leavingAt (.locking [0] []) rows
  have locking := (inside.tail (.work (.refl _) rfl)).tail (.work (.refl _) rfl)
  have poised : Steps (fun _ job => job.Covers) (rest store) P := locking
  have checked : Steps (fun _ job => job.Covers) P _ :=
    ReflTransGen.refl.tail (.work (.refl _) rfl)
  have logged := checked.tail (.log store.log [] [(0, .done)])
  have between := (logged.tail (.work (.refl _) rfl)).tail (.work (.refl _) rfl)
  have holds : P.Poised leave := ⟨0, [0], .inl ⟨.head _, rfl⟩⟩
  have locked : .reservation (.ofNat 4) ∈ leave.lockKeys := lockKeys_leave ▸ .head _
  have still : Steps (fun _ job => job.Covers) (rest store) (rest store) := .refl
  have row : (rest store).tables.reservations.get? (.ofNat 4) = some stay := rfl
  obtain ⟨-, back⟩ := events_of_row still row still poised
  refine ⟨P, _, poised, holds, (back leave holds locked rfl).1, between, rfl, rfl, ?_⟩
  exact (events_of_row (poised.trans between) (r := stay) rfl .refl .refl).1

end Workshop

end Carpark
