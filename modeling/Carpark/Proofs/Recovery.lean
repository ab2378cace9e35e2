import Carpark.Proofs.Ahead
import Carpark.Proofs.Reachable
import Carpark.Proofs.Truncation

/-!
The service may stop at any instant. What its log file describes then are the tables with all
commits that have been acknowledged and some of those that were still waiting for it.
-/

namespace Carpark

/-! ### All that holds while the service runs -/

namespace SharedStore

variable {s s' : SharedStore} {i : TaskId} {work : Work} {stage stage' : Stage}

theorem Moves.whole (h : s.Moves i work.job stage s' stage') : Member.Whole ⟨i, work, stage'⟩ := by
  generalize hjob : work.job = job at h
  intro taken c txn hstage hjob'
  cases h with
  | logged =>
    cases hstage
    cases hjob.symm.trans hjob'
    rfl
  | _ => cases hstage

theorem Moves.log (h : s.Moves i work.job stage s' stage') : s'.store.log = s.store.log := by
  generalize work.job = job at h
  cases h <;> rfl

theorem Moves.passes (h : s.Moves i work.job stage s' stage') :
    s'.queue.filterMap (·.2.commit?) =
      s.queue.filterMap (·.2.commit?) ++ work.passes stage stage' := by
  cases work with
  | commit ctx op ids txn =>
    cases h with
    | pass => exact List.filterMap_append
    | _ => exact (List.append_nil _).symm
  | compact =>
    cases h with
    | snapshot => exact List.filterMap_append
    | _ => exact (List.append_nil _).symm
  | count =>
    cases h with
    | count => exact List.filterMap_append
    | _ => exact (List.append_nil _).symm

end SharedStore

theorem Lined.waiting_eq_nil {t : Tables} {crew : List Member}
    {commands : List (TaskId × LogCommand)} {replies : List (TaskId × LogAnswer)}
    (h : Lined t crew commands replies) (none : crew.filterMap Member.pending? = []) :
    commands.filterMap (·.2.commit?) = [] := by
  refine List.filterMap_eq_nil_iff.2 fun p hp => ?_
  obtain ⟨⟨task, work, stage⟩, hm, ⟨-, taken, rfl⟩, same⟩ := h.command p hp
  cases work with
  | commit ctx op ids txn => exact absurd (List.filterMap_eq_nil_iff.1 none _ hm) nofun
  | _ => rw [same]; rfl

theorem Tables.Alike.applyAll {t t' : Tables} (h : t.Alike t') (cs : List Commit) :
    (cs.foldl Tables.apply t).Alike (cs.foldl Tables.apply t') := by
  induction cs generalizing t t' with
  | nil => exact h
  | cons c cs ih => exact ih (h.apply c)

namespace Service

/-- The log describes what its commits make of the tables at the start, acknowledged or not. -/
def Logged (base : Tables) (log : LogFile) (commits : List Commit) : Prop :=
  ∃ ds, log.Holds ds ∧ (∀ c ∈ ds, c.Readable) ∧
    (Tables.ofCommits ds).Alike (commits.foldl Tables.apply base)

structure Sound (settings : Settings) (base : Tables) (S : Service) : Prop where
  guarded : S.shared.Guarded (S.crew.map Member.worker)
  whole : ∀ m ∈ S.crew, m.Whole
  lined : Lined S.tables S.crew S.commands S.replies
  ahead : ∃ ahead, Ahead settings base S.tables S.spent S.attempts S.crew S.passed ahead
  recorded : S.passed = S.answered ++ S.waiting
  readable : ∀ p ∈ S.commands, p.2.Readable
  free : ∀ batch, S.desk = .gathering batch → S.carried = none
  logged : Logged base S.log (S.answered ++ S.desk.written)

namespace Sound

variable {settings : Settings} {base : Tables} {S S' : Service}

theorem rest {e : Engine} {cs : List Commit} {spent : Ulid → Prop} (reachable : e.Reachable cs)
    (readable : ∀ c ∈ cs, c.Readable) (lacks : ∀ u, ¬ spent u → e.tables.Lacks u) :
    Sound settings e.tables (.rest e.store spent) where
  guarded := .ofStore e.store
  whole := fun _ hm => absurd hm List.not_mem_nil
  lined := ⟨.nil, fun _ hp => absurd hp List.not_mem_nil, fun _ hp => absurd hp List.not_mem_nil⟩
  ahead := ⟨[], .nil, (Traffic.Reachable.rest reachable lacks).sound,
    fun _ ha => absurd ha List.not_mem_nil, .refl _, trivial⟩
  recorded := rfl
  readable := fun _ hp => absurd hp List.not_mem_nil
  free := fun _ h => by cases h
  logged := ⟨cs, reachable.sound.holds, readable, reachable.sound.described⟩

/-! ### Work -/

theorem work {others : List Member} {i : TaskId} {work : Work} {stage stage' : Stage}
    {shared : SharedStore} (h : Sound settings base S)
    (crew : S.crew.Perm (⟨i, work, stage⟩ :: others))
    (step : S.shared.Moves i work.job stage shared stage')
    (readable : ∀ m ∈ shared.queue, m.2.Readable) :
    Sound settings base { S with
      shared, crew := ⟨i, work, stage'⟩ :: others
      passed := S.passed ++ work.passes stage stage' } := by
  obtain ⟨guarded, whole, lined, ⟨ahead, hahead⟩, recorded, readable', free, logged⟩ := h
  have guarded := guarded.perm (crew.map Member.worker)
  have whole := fun m hm => whole m (crew.mem_iff.2 hm)
  have lined := lined.perm crew (.refl _) (.refl _)
  rw [commands, replies, ← List.append_assoc] at lined
  refine {
    guarded := guarded.move step
    whole := List.forall_mem_cons.2 ⟨step.whole, fun m hm => whole m (.tail _ hm)⟩
    lined := ?_
    ahead := ?_
    recorded := ?_
    readable := ?_
    free := free
    logged := ?_ }
  · have moved := lined.move guarded step
    rwa [List.append_assoc] at moved
  · refine (hahead.permCrew crew).move guarded (whole _ (.head _)) (fun answer ha => ?_) step
    exact lined.accepts (fun n hn => guarded.other (List.mem_map_of_mem hn))
      (List.mem_append_right _ (SharedStore.mem_of_answer? ha))
  · simp only [waiting, commands, List.filterMap_append] at recorded ⊢
    rw [step.passes, recorded]
    simp only [List.append_assoc]
  · intro p hp
    simp only [commands, List.mem_append] at hp readable'
    rcases hp with hp | hp | hp
    · exact readable' p (.inl hp)
    · exact readable' p (.inr (.inl hp))
    · exact readable p hp
  · change Logged base shared.store.log _
    rw [step.log]
    exact logged

theorem read {spent : Ulid → Prop} {attempts : List Attempt} (h : Sound settings base S)
    (step : Traffic.Step settings ⟨S.tables, S.spent, S.attempts⟩ ⟨S.tables, spent, attempts⟩) :
    Sound settings base { S with spent, attempts } := by
  obtain ⟨ahead, hahead⟩ := h.ahead
  exact { h with ahead := ⟨ahead, hahead.read step⟩ }

theorem start {attempts : List Attempt} {work : Work} {i : TaskId} (h : Sound settings base S)
    (fresh : ∀ m ∈ S.crew, m.task ≠ i)
    (ahead : ∃ ahead, Ahead settings base S.tables S.spent attempts (⟨i, work, .start⟩ :: S.crew)
      S.passed ahead) :
    Sound settings base { S with attempts, crew := ⟨i, work, .start⟩ :: S.crew } :=
  { h with
    guarded := h.guarded.start (List.forall_mem_map.2 fresh)
    whole := List.forall_mem_cons.2 ⟨(fun _ _ _ stage => by cases stage), h.whole⟩
    lined := h.lined.start _
    ahead }

theorem retire {others : List Member} {i : TaskId} {work : Work} {result : Except CommitError Nat}
    (h : Sound settings base S) (crew : S.crew.Perm (⟨i, work, .finished result⟩ :: others)) :
    Sound settings base { S with crew := others } := by
  obtain ⟨ahead, hahead⟩ := h.ahead
  exact { h with
    guarded := (h.guarded.perm (crew.map Member.worker)).retire (by cases work <;> rfl)
    whole := fun m hm => h.whole m (crew.mem_iff.2 (.tail _ hm))
    lined := (h.lined.perm crew (.refl _) (.refl _)).drop fun _ _ ⟨_, _, stage⟩ => by cases stage
    ahead := ⟨ahead, (hahead.permCrew crew).retire rfl rfl⟩ }

/-! ### The writer -/

theorem handle (h : Sound settings base S) (desk : Desk) (carried : Option (TaskId × LogCommand))
    (queue : List (TaskId × LogCommand)) (answers : List (TaskId × LogAnswer)) (log : LogFile)
    (answered : List Commit)
    (lined : Lined S.tables S.crew (desk.commands ++ (carried.toList ++ queue))
      (desk.replies ++ answers))
    (recorded : S.passed = answered ++
      (desk.commands ++ (carried.toList ++ queue)).filterMap (·.2.commit?))
    (readable : ∀ p ∈ desk.commands ++ (carried.toList ++ queue), p.2.Readable)
    (free : ∀ batch, desk = .gathering batch → carried = none)
    (logged : Logged base log (answered ++ desk.written)) :
    Sound settings base { S with
      desk, carried, answered
      shared := { S.shared with store := { S.shared.store with log }, queue, answers } } where
  guarded := { h.guarded with }
  whole := h.whole
  lined := lined
  ahead := h.ahead
  recorded := recorded
  readable := readable
  free := free
  logged := logged

theorem rearrange (h : Sound settings base S) (desk : Desk) (carried : Option (TaskId × LogCommand))
    (queue : List (TaskId × LogCommand)) (answers : List (TaskId × LogAnswer))
    (commands : desk.commands ++ (carried.toList ++ queue) = S.commands)
    (replies : (desk.replies ++ answers).Perm S.replies)
    (free : ∀ batch, desk = .gathering batch → carried = none)
    (written : desk.written = S.desk.written) :
    Sound settings base { S with
      desk, carried, shared := { S.shared with queue, answers } } :=
  h.handle desk carried queue answers S.log S.answered
    (commands ▸ h.lined.perm (.refl _) (.refl _) replies.symm) (commands ▸ h.recorded)
    (commands ▸ h.readable) free (written ▸ h.logged)

theorem readable_batch {batch : List (TaskId × Commit)} (h : Sound settings base S)
    (desk : S.desk = .writing batch) : ∀ c ∈ batch.map Prod.snd, c.Readable := by
  intro c hc
  obtain ⟨p, hp, rfl⟩ := List.mem_map.1 hc
  refine h.readable (p.1, .append p.2) (List.mem_append_left _ ?_)
  rw [desk]
  exact List.mem_map.2 ⟨p, hp, rfl⟩

theorem flush {batch : List (TaskId × Commit)} (h : Sound settings base S)
    (desk : S.desk = .writing batch) :
    Logged base (S.log.writeBatch (batch.map Prod.snd)) (S.answered ++ batch.map Prod.snd) := by
  obtain ⟨ds, holds, readable, alike⟩ := h.logged
  refine ⟨ds ++ batch.map Prod.snd, holds.writeBatch _,
    List.forall_mem_append.2 ⟨readable, h.readable_batch desk⟩, ?_⟩
  simp only [desk, Desk.written, List.append_nil] at alike
  rw [Tables.ofCommits, List.foldl_append, List.foldl_append]
  exact alike.applyAll _

theorem swap {i : TaskId} {commits : List Commit} (h : Sound settings base S)
    (desk : S.desk = .drafting i commits) : Logged base (S.log.replace commits).2 S.answered := by
  have mem : (i, .replace commits) ∈ S.commands := by
    rw [commands, desk]
    exact .head _
  cases obstructed : S.log.obstructed with
  | true =>
    have logged := h.logged
    simp only [desk, Desk.written, List.append_nil] at logged
    rwa [LogFile.replace, if_pos obstructed]
  | false =>
    obtain ⟨m, hm, ⟨-, taken, stage⟩, same⟩ := h.lined.command _ mem
    obtain ⟨job, rfl⟩ : m.work.job = .compact ∧ commits = S.tables.snapshot := by
      cases hjob : m.work.job with
      | compact =>
        rw [hjob] at same
        exact ⟨rfl, LogCommand.replace.inj same⟩
      | _ => rw [hjob] at same; cases same
    have none := h.guarded.pending_eq_nil hm job stage
    obtain ⟨ahead, hahead⟩ := h.ahead
    have alike := hahead.upToDate none
    rw [h.recorded, waiting, h.lined.waiting_eq_nil none, List.append_nil] at alike
    rw [LogFile.replace, if_neg (by simp [obstructed])]
    exact ⟨_, .opened _ _, h.readable _ mem, hahead.linked.ofCommits_snapshot.trans alike⟩

theorem begins {m : TaskId × LogCommand} {queue : List (TaskId × LogCommand)}
    (h : Sound settings base S) (idle : S.desk = .idle)
    (next : S.carried.toList ++ S.shared.queue = m :: queue) :
    Sound settings base { S with
      desk := .take S.log m, carried := none, shared := { S.shared with queue } } := by
  obtain ⟨shared, spent, attempts, crew, _, carried, passed, answered⟩ := S
  cases idle
  have hcommands : commands ⟨shared, spent, attempts, crew, .idle, carried, passed, answered⟩ =
      m :: queue := next
  obtain ⟨i, command⟩ := m
  cases command with
  | append c | replace commits =>
    exact h.rearrange _ none queue _ hcommands.symm (.refl _) (fun _ _ => rfl) rfl
  | count =>
    have lined := h.lined
    have recorded := h.recorded
    have readable := h.readable
    rw [hcommands] at lined readable
    rw [waiting, hcommands] at recorded
    exact h.handle _ none queue _ shared.store.log answered
      (lined.tell (Job.accepts_of_command rfl _)) recorded (fun p hp => readable p (.tail _ hp))
      (fun _ _ => rfl) h.logged

theorem write (h : Sound settings base S) (step : Writes S S') : Sound settings base S' := by
  obtain ⟨shared, spent, attempts, crew, desk, carried, passed, answered⟩ := S
  cases step with
  | resume idle carried => exact h.begins idle (by rw [carried]; rfl)
  | receive idle carried queue =>
    have begun := h.begins idle (by rw [carried, queue]; rfl)
    rwa [carried]
  | @gather batch i c queue desk hqueue =>
    cases desk
    cases h.free batch rfl
    refine h.rearrange _ _ queue _ ?_ (.refl _) (fun _ _ => rfl) rfl
    rw [commands, hqueue]
    simp [Desk.commands]
  | @carry batch m queue desk hqueue other =>
    cases desk
    cases h.free batch rfl
    refine h.rearrange _ _ queue _ ?_ (.refl _) nofun rfl
    rw [commands, hqueue]
    rfl
  | close desk hqueue =>
    cases desk
    exact h.rearrange _ _ _ _ rfl (.refl _) nofun rfl
  | flush desk =>
    cases desk
    exact h.handle _ _ _ _ _ _ h.lined h.recorded h.readable nofun (h.flush rfl)
  | @answer i c rest desk =>
    cases desk
    have told : Lined _ _ _ ((i, .done) :: shared.answers) :=
      h.lined.tell fun job _ => job.accepts_done
    refine h.handle _ _ _ _ _ _
      (told.perm (.refl _) (.refl _) (List.perm_append_singleton _ _).symm) ?_
      (fun p hp => h.readable p (.tail _ hp)) nofun ?_
    · rw [List.append_assoc]
      exact h.recorded
    · rw [List.append_assoc]
      exact h.logged
  | done desk =>
    cases desk
    exact h.rearrange _ _ _ _ rfl (.refl _) nofun rfl
  | @swap i commits desk =>
    cases desk
    refine h.handle _ _ _ _ _ _ (h.lined.tell (Job.accepts_of_command rfl _)) h.recorded
      (fun p hp => h.readable p (.tail _ hp)) nofun ?_
    simp only [Desk.written, List.append_nil]
    exact h.swap rfl
  | @announce i told desk =>
    cases desk
    exact h.rearrange _ _ _ _ rfl (List.perm_append_singleton _ _) nofun rfl

theorem step (h : Sound settings base S) (step : Step settings S S') : Sound settings base S' := by
  cases step with
  | read step => exact h.read step
  | hand through fresh =>
    obtain ⟨ahead, hahead⟩ := h.ahead
    exact h.start fresh ⟨ahead, hahead.hand through rfl rfl⟩
  | upkeep upkeep fresh =>
    obtain ⟨ahead, hahead⟩ := h.ahead
    refine h.start fresh ⟨ahead, ?_⟩
    rcases upkeep with rfl | rfl <;> exact hahead.start rfl rfl
  | work crew stride readable => exact h.work crew (.of_stride stride) readable
  | retire crew => exact h.retire crew
  | write step => exact h.write step

end Sound

theorem Reachable.sound {settings : Settings} {base : Tables} {S : Service}
    (h : Reachable settings base S) : Sound settings base S := by
  induction h with
  | rest reachable readable lacks => exact .rest reachable readable lacks
  | step _ step ih => exact ih.step step

/-! ### What is found after a crash -/

variable {settings : Settings} {base : Tables} {S : Service} {file : ByteArray}

theorem exists_extract_iff {old file bytes : ByteArray} :
    (∃ n, file = old ++ bytes.extract 0 n) ↔
      old.data.toList <+: file.data.toList ∧
        file.data.toList <+: old.data.toList ++ bytes.data.toList := by
  have part (n : Nat) : (old ++ bytes.extract 0 n).data.toList =
      old.data.toList ++ bytes.data.toList.take n := by
    have extract := toList_extract bytes 0 n
    rw [Nat.zero_add, List.drop_zero] at extract
    rw [← extract]
    simp
  constructor
  · rintro ⟨n, rfl⟩
    rw [part]
    exact ⟨List.prefix_append _ _, (List.prefix_append_right_inj _).2 (List.take_prefix n _)⟩
  · rintro ⟨⟨more, hmore⟩, within⟩
    rw [← hmore, List.prefix_append_right_inj] at within
    refine ⟨more.length, LogFile.ext_toList ?_⟩
    rw [part, ← List.prefix_iff_eq_take.1 within, hmore]

theorem Sound.onDisk_append {batch : List (TaskId × Commit)} {cs : List Commit}
    (h : Sound settings base S) (desk : S.desk = .writing batch) (hcs : cs <+: batch.map Prod.snd) :
    S.OnDisk (cs.foldl LogFile.append S.log).bytes := by
  obtain ⟨ds, holds, -, -⟩ := h.logged
  rw [OnDisk, desk]
  have total := LogFile.total_foldl_append S.log cs
  have before : S.log.writer.total S.log.bytes = S.log.bytes.data.toList := by
    rw [LogWriter.total, holds.buffer]
    exact List.append_nil _
  rw [before] at total
  have front : (cs.foldl LogFile.append S.log).bytes.data.toList <+:
      S.log.bytes.data.toList ++ cs.flatMap Frame.encode := total ▸ List.prefix_append _ _
  obtain ⟨more, hmore⟩ := hcs
  refine exists_extract_iff.2 ⟨LogFile.isPrefix_foldl_append S.log cs, front.trans ?_⟩
  rw [← hmore, LogWriter.fileOf, List.flatMap_append, ← List.append_assoc]
  exact List.prefix_append _ _

theorem batch_isPrefix_waiting {batch : List (TaskId × Commit)}
    (h : S.desk.commands = batch.map fun (i, c) => (i, .append c)) :
    batch.map Prod.snd <+: S.waiting := by
  rw [waiting, commands, List.filterMap_append, h, commits_of_batch]
  exact List.prefix_append _ _

theorem fileOf_append_extract (ds cs : List Commit) (n : Nat) :
    LogWriter.fileOf ds ++ (LogWriter.fileOf cs).extract 0 n =
      (LogWriter.fileOf (ds ++ cs)).extract 0 ((LogWriter.fileOf ds).size + n) := by
  apply LogFile.ext_toList
  rw [LogWriter.toList_extract_fileOf, List.flatMap_append, LogWriter.size_fileOf,
    List.take_length_add_append, ← LogWriter.toList_extract_fileOf]
  simp [LogWriter.fileOf]

theorem Logged.replays {log : LogFile} {commits batch : List Commit}
    (h : Logged base log commits) (readable : ∀ c ∈ batch, c.Readable) (n : Nat) :
    ∃ r pre, Replay.ofFile (log.bytes ++ (LogWriter.fileOf batch).extract 0 n) = .ok r ∧
      pre <+: batch ∧
      (Tables.ofCommits r.commits).Alike ((commits ++ pre).foldl Tables.apply base) := by
  obtain ⟨ds, holds, readable', alike⟩ := h
  rw [holds.bytes, fileOf_append_extract]
  obtain ⟨pre, hpre⟩ : ds <+: LogWriter.within ((LogWriter.fileOf ds).size + n) (ds ++ batch) :=
    LogWriter.isPrefix_within (List.prefix_append ds batch) (Nat.le_add_right _ n)
  refine ⟨_, pre, Replay.ofFile_extract (List.forall_mem_append.2 ⟨readable', readable⟩) _, ?_, ?_⟩
  · exact (List.prefix_append_right_inj ds).1 (hpre ▸ LogWriter.within_isPrefix _ _)
  · rw [← hpre, Tables.ofCommits, List.foldl_append, List.foldl_append]
    exact alike.applyAll pre

theorem Sound.replays (h : Sound settings base S) (found : S.OnDisk file) :
    ∃ r pre, Replay.ofFile file = .ok r ∧ pre <+: S.waiting ∧
      (Tables.ofCommits r.commits).Alike ((S.answered ++ pre).foldl Tables.apply base) := by
  have whole (found : file = S.log.bytes) (written : S.desk.written <+: S.waiting) :
      ∃ r pre, Replay.ofFile file = .ok r ∧ pre <+: S.waiting ∧
        (Tables.ofCommits r.commits).Alike ((S.answered ++ pre).foldl Tables.apply base) := by
    obtain ⟨ds, holds, readable, alike⟩ := h.logged
    rw [found, holds.bytes]
    exact ⟨_, _, Replay.ofFile_fileOf readable, written, alike⟩
  rw [OnDisk] at found
  cases desk : S.desk with
  | writing batch =>
    rw [desk] at found
    obtain ⟨n, rfl⟩ := found
    have logged := h.logged
    simp only [desk, Desk.written, List.append_nil] at logged
    obtain ⟨r, pre, read, hpre, alike⟩ := logged.replays (h.readable_batch desk) n
    exact ⟨r, pre, read, hpre.trans (batch_isPrefix_waiting (by rw [desk]; rfl)), alike⟩
  | answering rest =>
    rw [desk] at found
    exact whole found (by rw [desk]; exact batch_isPrefix_waiting (by rw [desk]; rfl))
  | _ =>
    rw [desk] at found
    exact whole found (by rw [desk]; exact List.nil_prefix)

/-- However little of a batch is on disk, replay yields what has been acknowledged and then a front
of what waits. Each of these commits has passed its check on the tables that those before it
make. -/
theorem Reachable.recovers (h : Reachable settings base S) (found : S.OnDisk file) :
    S.passed = S.answered ++ S.waiting ∧ base.Admits (S.answered ++ S.waiting) ∧
      ∃ r pre, Replay.ofFile file = .ok r ∧ pre <+: S.waiting ∧
        (Tables.ofCommits r.commits).Alike ((S.answered ++ pre).foldl Tables.apply base) := by
  have sound := h.sound
  refine ⟨sound.recorded, ?_, sound.replays found⟩
  obtain ⟨_, ahead⟩ := sound.ahead
  exact sound.recorded ▸ ahead.admitted

def register : Operation := .createParking ⟨"Rome", "00100", "Corso 1"⟩ none

def registration : Txn := [
  .claimAddress (Address.key ⟨"Rome", "00100", "Corso 1"⟩) (.ofNat 1),
  .insertParking ⟨.ofNat 1, ⟨"Rome", "00100", "Corso 1"⟩, [], .leastOccupied, 1⟩]

theorem lockKeys_registration : registration.lockKeys =
    [.parking (.ofNat 1), .address (Address.key ⟨"Rome", "00100", "Corso 1"⟩)] := by
  have expects : registration.expects = [(.parking (.ofNat 1), none)] := rfl
  have claims : registration.claims =
      [(Address.key ⟨"Rome", "00100", "Corso 1"⟩, .ofNat 1)] := rfl
  rw [Txn.lockKeys, expects, claims]
  simp [List.mergeSort, List.merge, RowKey.le]
  rfl

def registering (stage : Stage) (rows : RowLocks) (desk : Desk) (passed : List Commit) :
    Service where
  shared := ⟨⟨.empty, .opened false .empty⟩, SharedLock.free.join 0 .shared, rows, [], []⟩
  spent := fun u => u = .ofNat 1 ∨ False
  attempts := []
  crew := [⟨0, .commit ⟨.system, 0⟩ register [.ofNat 1] registration, stage⟩]
  desk := desk
  carried := none
  passed := passed
  answered := []

set_option maxRecDepth 10000 in
theorem recovers_registration :
    let c := registration.writes
    ∃ S, Reachable {} .empty S ∧ S.answered = [] ∧ S.waiting = [c] ∧
      ∀ n, S.OnDisk ((LogWriter.fileOf [c]).extract 0 n) ∧ Tables.empty.Admits [c] ∧
        ∃ r, Replay.ofFile ((LogWriter.fileOf [c]).extract 0 n) = .ok r ∧
          ((Tables.ofCommits r.commits).Alike .empty ∨
            (Tables.ofCommits r.commits).Alike (Tables.empty.apply c)) := by
  intro c
  have nothing : ∀ m ∈ ([] : List (TaskId × LogCommand)), m.2.Readable :=
    fun _ hm => absurd hm List.not_mem_nil
  have readable : ∀ m ∈ [((0 : TaskId), LogCommand.append c)], m.2.Readable :=
    List.forall_mem_singleton.2 (show c.Readable by decide)
  have atRest : Reachable {} .empty (rest ⟨.empty, .opened false .empty⟩ fun _ => False) :=
    .rest (.fresh {} .silent .ofNat false) (fun _ hc => absurd hc List.not_mem_nil)
      fun _ _ => ⟨rfl, rfl, rfl⟩
  -- the attempt draws an identifier and hands over what it has staged
  have drawn := (atRest.step (.read (.start ⟨.system, 0⟩ register))).step
    (.read (@Traffic.Step.draw _ _ _ [] [] _ _ _ _ (.ofNat 1) id))
  have handed := drawn.step (@Step.hand _ _ [] ⟨.system, 0⟩ register [.ofNat 1] registration 0
    (.refl _) fun _ hm => absurd hm List.not_mem_nil)
  -- the commit takes its locks, passes its check and is sent to the log
  have entered := (handed.step (.work (.refl _) rfl nothing)).step (.work (.refl _) rfl nothing)
  have inside : Reachable {} .empty
      (registering (.locking [] registration.lockKeys) .none .idle []) := entered
  rw [lockKeys_registration] at inside
  have first := (inside.step (.work (.refl _) rfl nothing)).step (.work (.refl _) rfl nothing)
  have second := (first.step (.work (.refl _) rfl nothing)).step (.work (.refl _) rfl nothing)
  have sent := second.step (.work (.refl _) rfl readable)
  -- the writer takes it up
  let rows : RowLocks := ⟨[(.address (Address.key ⟨"Rome", "00100", "Corso 1"⟩), 1),
    (.parking (.ofNat 1), 0)], [⟨[0], [0]⟩, ⟨[0], [0]⟩]⟩
  let S := registering (.logging [0, 1]) rows (.writing [(0, c)]) [c]
  have received := (sent.step (.write (.receive rfl rfl rfl))).step (.write (.close rfl rfl))
  have writing : Reachable {} .empty S := received
  refine ⟨S, writing, rfl, rfl, fun n => ?_⟩
  have found : S.OnDisk ((LogWriter.fileOf [c]).extract 0 n) :=
    ⟨n, LogFile.ext_toList (by simp [S, registering, log, LogFile.opened])⟩
  obtain ⟨-, admits, r, pre, read, hpre, alike⟩ := writing.recovers found
  refine ⟨found, admits, r, read, ?_⟩
  rcases (List.prefix_concat_iff : pre <+: [] ++ [c] ↔ _).1 hpre with rfl | hpre
  · exact .inr alike
  · obtain rfl := List.prefix_nil.1 hpre
    exact .inl alike

end Service

end Carpark
