import Carpark.Proofs.Commits
import Carpark.Proofs.Service

/-!
The writer of the log does with batches what it would do with one command at a time. Whenever the
commands come to its queue, each is answered as if every command before it had been carried out
alone, with a flush of its own, and the file is the one that these would leave.
-/

namespace Carpark

/-! ### One command at a time -/

def LogCommand.ofBatch (batch : List (TaskId × Commit)) : List (TaskId × LogCommand) :=
  batch.map fun (i, c) => (i, .append c)

theorem LogCommand.ofBatch_cons (p : TaskId × Commit) (batch : List (TaskId × Commit)) :
    ofBatch (p :: batch) = (p.1, .append p.2) :: ofBatch batch := rfl

namespace LogFile

def alone (f : LogFile) : List (TaskId × LogCommand) → LogFile
  | [] => f
  | (_, command) :: rest => (f.execute command).2.alone rest

def told (f : LogFile) : List (TaskId × LogCommand) → List (TaskId × LogAnswer)
  | [] => []
  | (i, command) :: rest => (i, (f.execute command).1) :: (f.execute command).2.told rest

variable {f g : LogFile}

theorem alone_nil (f : LogFile) : f.alone [] = f := rfl

theorem alone_cons (f : LogFile) (m : TaskId × LogCommand) (rest : List (TaskId × LogCommand)) :
    f.alone (m :: rest) = (f.execute m.2).2.alone rest := rfl

theorem told_cons (f : LogFile) (m : TaskId × LogCommand) (rest : List (TaskId × LogCommand)) :
    f.told (m :: rest) = (m.1, (f.execute m.2).1) :: (f.execute m.2).2.told rest := rfl

theorem alone_append (f : LogFile) (before after : List (TaskId × LogCommand)) :
    f.alone (before ++ after) = (f.alone before).alone after := by
  induction before generalizing f with
  | nil => rfl
  | cons m before ih => rw [List.cons_append, alone_cons, alone_cons, ih]

theorem told_append (f : LogFile) (before after : List (TaskId × LogCommand)) :
    f.told (before ++ after) = f.told before ++ (f.alone before).told after := by
  induction before generalizing f with
  | nil => rfl
  | cons m before ih =>
    rw [List.cons_append, told_cons, told_cons, alone_cons, ih, List.cons_append]

theorem length_told (f : LogFile) (commands : List (TaskId × LogCommand)) :
    (f.told commands).length = commands.length := by
  induction commands generalizing f with
  | nil => rfl
  | cons m commands ih => rw [told_cons, List.length_cons, ih, List.length_cons]

/-! ### A batch -/

theorem appends_foldl_append (f : LogFile) (cs : List Commit) :
    (cs.foldl append f).writer.appends = f.writer.appends + cs.length := by
  induction cs generalizing f with
  | nil => rfl
  | cons c cs ih =>
    have one : (f.append c).writer.appends = f.writer.appends + 1 :=
      LogWriter.appends_append f.writer f.bytes c
    rw [List.foldl_cons, ih, one, List.length_cons]
    omega

theorem obstructed_foldl_append (f : LogFile) (cs : List Commit) :
    (cs.foldl append f).obstructed = f.obstructed := by
  induction cs generalizing f with
  | nil => rfl
  | cons c cs ih => rw [List.foldl_cons, ih]; rfl

theorem flush_congr (total : f.writer.total f.bytes = g.writer.total g.bytes)
    (appends : f.writer.appends = g.writer.appends) (obstructed : f.obstructed = g.obstructed) :
    f.flush = g.flush := by
  have bytes : f.flush.bytes = g.flush.bytes := ext_toList <| by
    rw [flush, flush, (LogWriter.total_flush f.writer f.bytes).2,
      (LogWriter.total_flush g.writer g.bytes).2, total]
  have writer : f.flush.writer = g.flush.writer := congrArg (LogWriter.mk .empty) appends
  calc f.flush = ⟨f.flush.bytes, f.flush.writer, f.obstructed⟩ := rfl
    _ = ⟨g.flush.bytes, g.flush.writer, g.obstructed⟩ := by rw [bytes, writer, obstructed]

theorem writeBatch_cons (f : LogFile) (c : Commit) (cs : List Commit) :
    f.writeBatch (c :: cs) = (f.append c).writeBatch cs := rfl

theorem writeBatch_flush (f : LogFile) (cs : List Commit) :
    f.flush.writeBatch cs = f.writeBatch cs := by
  refine flush_congr ?_ ?_ ?_
  · have same : f.flush.writer.total f.flush.bytes = f.writer.total f.bytes := by
      simp [flush, LogWriter.flush, LogWriter.total]
    rw [total_foldl_append, total_foldl_append, same]
  · rw [appends_foldl_append, appends_foldl_append]
    rfl
  · rw [obstructed_foldl_append, obstructed_foldl_append]
    rfl

theorem alone_flush_ofBatch (f : LogFile) (batch : List (TaskId × Commit)) :
    f.flush.alone (LogCommand.ofBatch batch) = f.writeBatch (batch.map Prod.snd) := by
  -- An append that is carried out alone ends with a flush, so the next one begins behind a flush.
  induction batch generalizing f with
  | nil => rfl
  | cons p batch ih =>
    have one : (f.flush.execute (.append p.2)).2 = (f.flush.append p.2).flush := rfl
    calc f.flush.alone (LogCommand.ofBatch (p :: batch))
        = (f.flush.append p.2).flush.alone (LogCommand.ofBatch batch) := by
          rw [LogCommand.ofBatch_cons, alone_cons, one]
      _ = f.flush.writeBatch (p.2 :: batch.map Prod.snd) := by rw [ih, writeBatch_cons]
      _ = f.writeBatch (p.2 :: batch.map Prod.snd) := writeBatch_flush f _

theorem alone_ofBatch (f : LogFile) {batch : List (TaskId × Commit)} (nonempty : batch ≠ []) :
    f.alone (LogCommand.ofBatch batch) = f.writeBatch (batch.map Prod.snd) := by
  cases batch with
  | nil => exact absurd rfl nonempty
  | cons p batch =>
    have one : (f.execute (.append p.2)).2 = (f.append p.2).flush := rfl
    rw [LogCommand.ofBatch_cons, alone_cons, one, alone_flush_ofBatch, List.map_cons,
      writeBatch_cons]

theorem told_ofBatch (f : LogFile) (batch : List (TaskId × Commit)) :
    f.told (LogCommand.ofBatch batch) = batch.map fun p => (p.1, .done) := by
  induction batch generalizing f with
  | nil => rfl
  | cons p batch ih =>
    rw [LogCommand.ofBatch_cons, told_cons, ih]
    rfl

theorem exists_batch (queue : List (TaskId × LogCommand)) : ∃ taken rest,
    queue = LogCommand.ofBatch taken ++ rest ∧
      batch (queue.map Prod.snd) = (taken.map Prod.snd, rest.map Prod.snd) := by
  induction queue with
  | nil => exact ⟨[], [], rfl, rfl⟩
  | cons m queue ih =>
    obtain ⟨i, command⟩ := m
    cases command with
    | append c =>
      obtain ⟨taken, rest, split, hbatch⟩ := ih
      refine ⟨(i, c) :: taken, rest, ?_, ?_⟩
      · rw [LogCommand.ofBatch_cons, split, List.cons_append]
      · simp [batch, hbatch]
    | replace commits => exact ⟨[], _, rfl, rfl⟩
    | count => exact ⟨[], _, rfl, rfl⟩

/-- A queue that is carried out at one go fares as its commands would one at a time. -/
theorem serve_eq (f : LogFile) (queue : List (TaskId × LogCommand)) :
    f.serve (queue.map Prod.snd) = ((f.told queue).map Prod.snd, f.alone queue) := by
  induction hn : queue.length using Nat.strong_induction_on generalizing f queue with
  | _ n ih =>
    cases queue with
    | nil =>
      rw [List.map_nil, serve]
      rfl
    | cons m queue =>
      obtain ⟨i, command⟩ := m
      rw [List.length_cons] at hn
      cases command with
      | append c =>
        obtain ⟨taken, rest, split, hbatch⟩ := exists_batch queue
        have shorter : rest.length < n := by
          rw [split, List.length_append] at hn
          omega
        have front : (i, .append c) :: queue = LogCommand.ofBatch ((i, c) :: taken) ++ rest := by
          rw [LogCommand.ofBatch_cons, split, List.cons_append]
        rw [List.map_cons, serve, hbatch, ← List.map_cons (f := Prod.snd) (a := (i, c)),
          ih _ shorter _ rest rfl, front, told_append, alone_append, told_ofBatch,
          alone_ofBatch _ (List.cons_ne_nil _ _)]
        simp
      | _ => simp [serve, ih _ (hn ▸ Nat.lt_succ_self _) _ queue rfl, told_cons, alone_cons]

theorem buffer_alone (h : f.writer.buffer = .empty) (commands : List (TaskId × LogCommand)) :
    (f.alone commands).writer.buffer = .empty := by
  induction commands generalizing f with
  | nil => exact h
  | cons m commands ih =>
    obtain ⟨i, command⟩ := m
    refine ih ?_
    cases command with
    | append c => rfl
    | replace commits =>
      simp only [execute, replace]
      split
      · exact h
      · rfl
    | count => exact h

theorem bytes_alone_ofBatch (h : f.writer.buffer = .empty) (batch : List (TaskId × Commit)) :
    (f.alone (LogCommand.ofBatch batch)).bytes =
      f.bytes ++ LogWriter.fileOf (batch.map Prod.snd) := by
  have flushed : f.flush = f := by
    obtain ⟨bytes, ⟨buffer, appends⟩, obstructed⟩ := f
    cases h
    exact congrArg (LogFile.mk · ⟨.empty, appends⟩ obstructed) ByteArray.append_empty
  rw [← flushed, alone_flush_ofBatch, flushed]
  refine ext_toList ?_
  rw [writeBatch, flush, (LogWriter.total_flush _ _).2, total_foldl_append]
  simp [LogWriter.total, LogWriter.fileOf, h]

end LogFile

/-! ### The writer and its queue -/

/-- The writer is about the first of these commands, and the log is what it should be by then. -/
def Desk.Begun (f : LogFile) (commands : List (TaskId × LogCommand)) (log : LogFile) : Desk → Prop
  | .idle => commands = [] ∧ log = f
  | .gathering batch | .writing batch => batch ≠ [] ∧ commands = LogCommand.ofBatch batch ∧ log = f
  | .answering rest => commands = LogCommand.ofBatch rest ∧ log = f.alone commands
  | .drafting i commits => commands = [(i, .replace commits)] ∧ log = f
  | .announcing i answer =>
    ∃ command, commands = [(i, command)] ∧ answer = (f.execute command).1 ∧
      log = (f.execute command).2

theorem Desk.begun_take (f : LogFile) (m : TaskId × LogCommand) :
    (Desk.take f m).Begun f [m] f := by
  obtain ⟨i, command⟩ := m
  cases command with
  | append c => exact ⟨List.cons_ne_nil _ _, rfl, rfl⟩
  | replace commits => exact ⟨rfl, rfl⟩
  | count => exact ⟨.count, rfl, rfl, rfl⟩

namespace Service

/-- The states of a writer that begins here, and the commands sent by then. Nobody picks up the
answers. -/
inductive Serving (S₀ : Service) : List (TaskId × LogCommand) → Service → Prop
  | rest : S₀.desk = .idle → S₀.carried = none → S₀.shared.queue = [] → Serving S₀ [] S₀
  | arrive {sent : List (TaskId × LogCommand)} {S : Service} (m : TaskId × LogCommand) :
    Serving S₀ sent S → Serving S₀ (sent ++ [m]) { S with shared := S.shared.send m.1 m.2 }
  | write {sent : List (TaskId × LogCommand)} {S S' : Service} : Serving S₀ sent S →
    Writes S S' → Serving S₀ sent S'

/-- What has been sent has been answered as if each command had been alone, is the writer's
business, or waits. -/
structure Abreast (S₀ : Service) (sent answered begun : List (TaskId × LogCommand))
    (S : Service) : Prop where
  sent : sent = answered ++ (begun ++ (S.carried.toList ++ S.shared.queue))
  answers : S.shared.answers = S₀.shared.answers ++ S₀.log.told answered
  begun : S.desk.Begun (S₀.log.alone answered) begun S.log
  free : ∀ batch, S.desk = .gathering batch → S.carried = none

variable {S₀ S S' : Service} {sent answered begun : List (TaskId × LogCommand)}

theorem Writes.abreast (h : Writes S S') (hS : Abreast S₀ sent answered begun S) :
    ∃ answered' begun', Abreast S₀ sent answered' begun' S' := by
  obtain ⟨hsent, hanswers, hbegun, free⟩ := hS
  cases h with
  | resume desk carried =>
    rw [desk] at hbegun
    obtain ⟨rfl, hlog⟩ := hbegun
    rw [carried] at hsent
    refine ⟨answered, _, hsent, hanswers, ?_, fun _ _ => rfl⟩
    rw [← hlog]
    exact Desk.begun_take _ _
  | @receive m queue desk carried hqueue =>
    rw [desk] at hbegun
    obtain ⟨rfl, hlog⟩ := hbegun
    refine ⟨answered, [m], ?_, hanswers, ?_, fun _ _ => carried⟩
    · rw [hsent, carried, hqueue]
      rfl
    · rw [← hlog]
      exact Desk.begun_take _ _
  | @gather batch i c queue desk hqueue =>
    rw [desk] at hbegun
    obtain ⟨nonempty, rfl, hlog⟩ := hbegun
    -- Nothing is carried, so what the queue has in front comes right behind the batch.
    have carried := free batch desk
    refine ⟨answered, LogCommand.ofBatch (batch ++ [(i, c)]), ?_, hanswers, ⟨by simp, rfl, hlog⟩,
      fun _ _ => carried⟩
    rw [hsent, carried, hqueue]
    simp [LogCommand.ofBatch]
  | carry desk hqueue other =>
    rw [desk] at hbegun
    refine ⟨answered, begun, ?_, hanswers, hbegun, nofun⟩
    rw [hsent, free _ desk, hqueue]
    rfl
  | close desk hqueue =>
    rw [desk] at hbegun
    exact ⟨answered, begun, hsent, hanswers, hbegun, nofun⟩
  | @flush batch desk =>
    rw [desk] at hbegun
    obtain ⟨nonempty, rfl, hlog⟩ := hbegun
    refine ⟨answered, _, hsent, hanswers, ⟨rfl, ?_⟩, nofun⟩
    rw [LogFile.alone_ofBatch _ nonempty, ← hlog]
    rfl
  | @answer i c rest desk =>
    rw [desk] at hbegun
    obtain ⟨rfl, hlog⟩ := hbegun
    rw [LogCommand.ofBatch_cons, LogFile.alone_cons] at hlog
    refine ⟨answered ++ [(i, .append c)], LogCommand.ofBatch rest, ?_, ?_, ⟨rfl, ?_⟩, nofun⟩
    · rw [hsent, List.append_assoc]
      rfl
    · rw [LogFile.told_append, ← List.append_assoc, ← hanswers]
      rfl
    · rw [LogFile.alone_append, LogFile.alone_cons, LogFile.alone_nil]
      exact hlog
  | done desk =>
    rw [desk] at hbegun
    obtain ⟨rfl, hlog⟩ := hbegun
    exact ⟨answered, [], hsent, hanswers, ⟨rfl, hlog⟩, nofun⟩
  | swap desk =>
    rw [desk] at hbegun
    obtain ⟨rfl, hlog⟩ := hbegun
    refine ⟨answered, _, hsent, hanswers, ⟨_, rfl, ?_, ?_⟩, nofun⟩
    · rw [hlog]
      rfl
    · rw [← hlog]
      rfl
  | @announce i answer desk =>
    rw [desk] at hbegun
    obtain ⟨command, rfl, rfl, hlog⟩ := hbegun
    refine ⟨answered ++ [(i, command)], [], ?_, ?_, ⟨rfl, ?_⟩, nofun⟩
    · rw [hsent, List.append_assoc]
      rfl
    · rw [LogFile.told_append, ← List.append_assoc, ← hanswers]
      rfl
    · rw [LogFile.alone_append, LogFile.alone_cons, LogFile.alone_nil]
      exact hlog

theorem Serving.abreast (h : Serving S₀ sent S) :
    ∃ answered begun, Abreast S₀ sent answered begun S := by
  induction h with
  | rest desk carried queue =>
    refine ⟨[], [], ?_, (List.append_nil _).symm, ?_, fun _ _ => carried⟩
    · rw [carried, queue]
      rfl
    · rw [desk]
      exact ⟨rfl, rfl⟩
  | arrive m _ ih =>
    obtain ⟨answered, begun, hsent, hanswers, hbegun, free⟩ := ih
    refine ⟨answered, begun, ?_, hanswers, hbegun, free⟩
    simp [hsent, SharedStore.send]
  | write _ step ih =>
    obtain ⟨answered, begun, abreast⟩ := ih
    exact step.abreast abreast

end Service

/-! ### To the end -/

def Desk.load : Desk → Nat
  | .idle => 0
  | .gathering batch => batch.length + 3
  | .writing batch => batch.length + 2
  | .answering rest => rest.length + 1
  | .drafting .. => 2
  | .announcing .. => 1

namespace Service

def load (S : Service) : Nat := S.desk.load + 5 * (S.carried.toList ++ S.shared.queue).length

variable {S₀ S S' : Service} {sent : List (TaskId × LogCommand)}

theorem load_take_le (f : LogFile) (m : TaskId × LogCommand) : (Desk.take f m).load ≤ 4 := by
  obtain ⟨i, command⟩ := m
  cases command <;> simp [Desk.take, Desk.load]

theorem Writes.load_lt (h : Writes S S') : S'.load < S.load := by
  have idle : Desk.idle.load = 0 := rfl
  cases h with
  | @resume m desk carried =>
    have := load_take_le S.log m
    simp only [load, desk, carried, idle, Option.toList_some, Option.toList_none, List.nil_append,
      List.singleton_append, List.length_cons]
    omega
  | @receive m queue desk carried hqueue =>
    have := load_take_le S.log m
    simp only [load, desk, carried, hqueue, idle, Option.toList_none, List.nil_append,
      List.length_cons]
    omega
  | gather desk hqueue =>
    simp only [load, desk, hqueue, Desk.load, List.length_append, List.length_cons,
      List.length_nil]
    omega
  | carry desk hqueue other =>
    simp only [load, desk, hqueue, Desk.load, Option.toList_some, List.length_append,
      List.length_cons, List.length_nil]
    omega
  | close desk hqueue => simp [load, desk, hqueue, Desk.load]
  | flush desk => simp [load, desk, Desk.load]
  | answer desk => simp [load, desk, Desk.load]
  | done desk => simp [load, desk, Desk.load]
  | swap desk => simp [load, desk, Desk.load]
  | announce desk => simp [load, desk, Desk.load]

theorem Writes.exists_of_load (h : S.load ≠ 0) : ∃ S', Writes S S' := by
  cases desk : S.desk with
  | idle =>
    cases commands : S.carried.toList ++ S.shared.queue with
    | nil => exact absurd (by rw [load, desk, commands]; rfl) h
    | cons m rest => exact ⟨_, .begins desk commands⟩
  | gathering batch =>
    cases queue : S.shared.queue with
    | nil => exact ⟨_, .close desk queue⟩
    | cons m queue' =>
      obtain ⟨i, command⟩ := m
      cases other : command.commit? with
      | none => exact ⟨_, .carry desk queue other⟩
      | some c =>
        cases command with
        | append c => exact ⟨_, .gather desk queue⟩
        | replace commits => cases other
        | count => cases other
  | writing batch => exact ⟨_, .flush desk⟩
  | answering rest =>
    cases rest with
    | nil => exact ⟨_, .done desk⟩
    | cons p rest => exact ⟨_, .answer desk⟩
  | drafting i commits => exact ⟨_, .swap desk⟩
  | announcing i answer => exact ⟨_, .announce desk⟩

theorem load_eq_zero_iff : S.load = 0 ↔ ∀ S', ¬ Writes S S' := by
  constructor
  · intro done S' step
    exact Nat.not_lt_zero _ (done ▸ step.load_lt)
  · intro waits
    by_contra more
    obtain ⟨S', step⟩ := Writes.exists_of_load more
    exact waits S' step

theorem Serving.exists_waits (h : Serving S₀ sent S) :
    ∃ S', Serving S₀ sent S' ∧ ∀ S'', ¬ Writes S' S'' := by
  induction hn : S.load using Nat.strong_induction_on generalizing S with
  | _ n ih =>
    by_cases waits : ∀ S', ¬ Writes S S'
    · exact ⟨S, h, waits⟩
    · push Not at waits
      obtain ⟨S', step⟩ := waits
      exact ih _ (hn ▸ step.load_lt) (h.write step) rfl

theorem Abreast.of_load {answered begun : List (TaskId × LogCommand)}
    (h : Abreast S₀ sent answered begun S) (done : S.load = 0) :
    begun = [] ∧ answered = sent ∧ S.log = S₀.log.alone answered := by
  obtain ⟨hsent, -, hbegun, -⟩ := h
  have nothing : (S.carried.toList ++ S.shared.queue).length = 0 := by
    rw [load] at done
    omega
  rw [List.eq_nil_of_length_eq_zero nothing, List.append_nil] at hsent
  cases desk : S.desk with
  | idle =>
    rw [desk] at hbegun
    obtain ⟨rfl, hlog⟩ := hbegun
    exact ⟨rfl, by rw [hsent, List.append_nil], hlog⟩
  | _ =>
    rw [load, desk, Desk.load] at done
    omega

/-- Batching does not show: answers, log and counters are those of the commands carried out one at a
time. A batch is in the file before it is answered, and the writer empties its queue. -/
theorem Serving.agrees (h : Serving S₀ sent S) (fresh : S₀.log.writer.buffer = .empty) :
    (∃ answered begun,
      sent = answered ++ (begun ++ (S.carried.toList ++ S.shared.queue)) ∧
      S.shared.answers = S₀.shared.answers ++ S₀.log.told answered ∧
      S.desk.Begun (S₀.log.alone answered) begun S.log ∧
      ∀ rest, S.desk = .answering rest → ∀ file, S.OnDisk file →
        file = (S₀.log.alone answered).bytes ++ LogWriter.fileOf (rest.map Prod.snd)) ∧
    (∀ S', Writes S S' → S'.load < S.load) ∧
    ((∀ S', ¬ Writes S S') →
      S.shared.answers = S₀.shared.answers ++ S₀.log.told sent ∧ S.log = S₀.log.alone sent) := by
  obtain ⟨answered, begun, abreast⟩ := h.abreast
  refine ⟨⟨answered, begun, abreast.sent, abreast.answers, abreast.begun, ?_⟩,
    fun S' step => step.load_lt, fun waits => ?_⟩
  · intro rest desk file onDisk
    have hbegun := abreast.begun
    rw [desk] at hbegun
    obtain ⟨rfl, hlog⟩ := hbegun
    rw [OnDisk, desk] at onDisk
    have kept := LogFile.buffer_alone fresh answered
    rw [onDisk, hlog, LogFile.bytes_alone_ofBatch kept]
  · obtain ⟨rfl, rfl, hlog⟩ := abreast.of_load (load_eq_zero_iff.2 waits)
    exact ⟨abreast.answers, hlog⟩

theorem agrees_aroundCompaction :
    let drop (n : Nat) : Commit := [.deleteParking (.ofNat n)]
    let start : Service := .rest ⟨.empty, .opened false .empty⟩ fun _ => False
    let early : List (TaskId × LogCommand) :=
      [(1, .append (drop 1)), (2, .append (drop 2)), (3, .replace [drop 2])]
    let late : List (TaskId × LogCommand) := [(4, .append (drop 3)), (5, .count)]
    (∃ S : Service, Serving start early S ∧ S.desk = .answering [(2, drop 2)] ∧
      S.carried = some (3, .replace [drop 2]) ∧ S.shared.answers = [(1, .done)] ∧
      ∀ file, S.OnDisk file → file = LogWriter.fileOf [drop 1, drop 2]) ∧
    ∃ S : Service, Serving start (early ++ late) S ∧ (∀ S', ¬ Writes S S') ∧
      S.shared.answers = [(1, .done), (2, .done), (3, .done), (4, .done), (5, .counted 1)] ∧
      S.log.bytes = LogWriter.fileOf [drop 2, drop 3] := by
  intro drop start early late
  obtain ⟨S₁, answering, desk, carried, one⟩ : ∃ S : Service, Serving start early S ∧
      S.desk = .answering [(2, drop 2)] ∧ S.carried = some (3, .replace [drop 2]) ∧
      S.shared.answers = [(1, .done)] := by
    have began : Serving start [] start := .rest rfl rfl rfl
    have gathering := began.arrive (1, .append (drop 1)) |>.write (.receive rfl rfl rfl)
    have carrying := gathering.arrive (2, .append (drop 2)) |>.arrive (3, .replace [drop 2])
      |>.write (.gather rfl rfl) |>.write (.carry rfl rfl rfl)
    exact ⟨_, carrying.write (.flush rfl) |>.write (.answer rfl), rfl, rfl, rfl⟩
  obtain ⟨S₂, finished, waits⟩ :=
    (answering.arrive (4, .append (drop 3)) |>.arrive (5, .count)).exists_waits
  obtain ⟨answers, log⟩ := (finished.agrees rfl).2.2 waits
  refine ⟨⟨S₁, answering, desk, carried, one, ?_⟩, S₂, finished, waits, ?_, ?_⟩
  · obtain ⟨answered, begun, hsent, hanswers, -, disk⟩ := (answering.agrees rfl).1
    have length : answered.length = 1 := by
      rw [← LogFile.length_told start.log, ← List.nil_append (start.log.told answered)]
      exact (congrArg List.length hanswers).symm.trans (congrArg List.length one)
    have first : answered = [(1, .append (drop 1))] := by
      have front := congrArg (List.take 1) hsent
      rw [← length, List.take_left, length] at front
      exact front.symm
    intro file onDisk
    rw [disk _ desk file onDisk, first]
    decide +kernel
  · rw [answers]
    decide +kernel
  · rw [log]
    decide +kernel

end Service

end Carpark
