import Carpark.Proofs.Definite
import Carpark.Proofs.Truncation
import Carpark.Store.Basic

/-!
Log files that came to harm: the length in front of a frame has changed, or zeros follow the last
frame. The checksum of a frame does not cover its length, and the checksum of nothing is zero.
-/

namespace Carpark

/-! ### One frame -/

namespace Frame

/-- The length at the position is an allowed one, and behind so many bytes stands their checksum. -/
def Sealed (file : ByteArray) (pos : Nat) : Prop :=
  word file pos ≤ mostBytes ∧
    word file (pos + 4 + word file pos) =
      (Crc32.ofBytes (file.extract (pos + 4) (pos + 4 + word file pos))).toNat

variable {file : ByteArray} {pos w : Nat} {c : Commit} {rest : List UInt8}

theorem read_of_lt (hpos : pos < file.size) (h : file.size < pos + 8 + word file pos) :
    read file pos = .torn := by
  rw [read, if_neg (Nat.not_le.2 hpos)]
  split
  · rfl
  · exact if_pos h

theorem read_of_sealed (h : pos + 8 + word file pos ≤ file.size) (hs : Sealed file pos) :
    read file pos =
      match Binary.commit?
          (file.extract (pos + 4) (pos + 4 + word file pos)).data.toList with
      | some c => .commit c (word file pos)
      | Option.none => .faulty .undecodable := by
  obtain ⟨allowed, checksum⟩ := hs
  simp only [read, checksum]
  rw [if_neg (by omega), if_neg (by omega), if_neg (by omega), if_neg (by omega)]
  exact if_neg (by simp)

theorem read_of_last (h : pos + 8 + word file pos = file.size) (hs : ¬ Sealed file pos) :
    read file pos = .torn := by
  simp only [read, h, if_true]
  rw [if_neg (by omega), if_neg (by omega), if_neg (by omega)]
  by_cases allowed : mostBytes < word file pos
  · rw [if_pos allowed]
  · rw [if_neg allowed, if_pos fun checksum => hs ⟨Nat.not_lt.1 allowed, checksum⟩]

theorem read_of_not_sealed (h : pos + 8 + word file pos < file.size) (hs : ¬ Sealed file pos) :
    ∃ fault, read file pos = .faulty fault := by
  simp only [read]
  rw [if_neg (by omega), if_neg (by omega), if_neg (by omega)]
  by_cases allowed : mostBytes < word file pos
  · rw [if_pos allowed, if_neg (Nat.ne_of_lt h)]
    exact ⟨_, rfl⟩
  · rw [if_neg allowed, if_pos fun checksum => hs ⟨Nat.not_lt.1 allowed, checksum⟩,
      if_neg (Nat.ne_of_lt h)]
    exact ⟨_, rfl⟩

/-! ### A length that has changed -/

/-- The bytes of a frame, but for the length in front. -/
def body (c : Commit) : List UInt8 :=
  Binary.commit c ++ Binary.nat 4 (Crc32.ofList (Binary.commit c)).toNat

theorem encode_eq (c : Commit) : encode c = Binary.nat 4 (Binary.commit c).length ++ body c :=
  List.append_assoc ..

theorem drop_body (h : file.data.toList.drop pos = Binary.nat 4 w ++ (body c ++ rest)) :
    file.data.toList.drop (pos + 4) = body c ++ rest := by
  rw [← List.drop_drop, h, List.drop_left' (Binary.length_nat 4 w)]

theorem read_shortened (h : file.data.toList.drop pos = Binary.nat 4 w ++ (body c ++ rest))
    (hc : c.Fits) (hw32 : w < 2 ^ 32) (hw : w < (Binary.commit c).length) :
    ∃ fault, read file pos = .faulty fault := by
  have word : word file pos = w := word_eq h hw32
  have size : pos + 8 + (Binary.commit c).length ≤ file.size := by
    have length := congrArg List.length h
    rw [List.length_drop, List.length_append, List.length_append, body, List.length_append,
      Binary.length_nat, Binary.length_nat, ← size_eq_length] at length
    omega
  by_cases hs : Sealed file pos
  · -- The checksum may be right by chance, but a form that is cut short is not one of a commit.
    have bytes : (file.extract (pos + 4) (pos + 4 + w)).data.toList = (Binary.commit c).take w := by
      rw [toList_extract, drop_body h, body, List.append_assoc,
        List.take_append_of_le_length (Nat.le_of_lt hw)]
    rw [read_of_sealed (by omega) hs, word, bytes, Binary.commit?_take hc hw]
    exact ⟨_, rfl⟩
  · exact read_of_not_sealed (by omega) hs

/-- The bytes behind a commit are not looked at, so a longer frame is read if its checksum is right
by chance. -/
theorem read_lengthened (h : file.data.toList.drop pos = Binary.nat 4 w ++ (body c ++ rest))
    (hc : c.Readable) (hw : w < 2 ^ 32) (hlength : (Binary.commit c).length < w)
    (hsize : pos + 8 + w ≤ file.size) (hs : Sealed file pos) : read file pos = .commit c w := by
  have word : word file pos = w := word_eq h hw
  have bytes : (file.extract (pos + 4) (pos + 4 + w)).data.toList =
      Binary.commit c ++ (Binary.nat 4 (Crc32.ofList (Binary.commit c)).toNat ++ rest).take
        (w - (Binary.commit c).length) := by
    rw [toList_extract, drop_body h, body, List.append_assoc, List.take_append,
      List.take_of_length_le (Nat.le_of_lt hlength)]
  rw [read_of_sealed (by omega) hs, word, bytes, Binary.commit?_append hc.fits]

end Frame

namespace Replay

variable {file : ByteArray} {pos index : Nat}

theorem le_frame_of_error {fault : Fault} (h : scan file pos index = .error fault) :
    index ≤ fault.frame := by
  fun_induction scan file pos index with
  | case1 => cases h
  | case2 => cases h
  | case3 pos index cause => cases h; exact Nat.le_refl _
  | case4 pos index c length _ ih =>
    cases hscan : scan file (pos + 8 + length) (index + 1) with
    | ok r => rw [hscan] at h; cases h
    | error fault' =>
      rw [hscan] at h
      cases h
      exact Nat.le_of_succ_le (ih hscan)

/-! ### Whole frames and what follows them -/

section

variable {cs : List Commit} {tail : List UInt8}
  (h : file.data.toList = cs.flatMap Frame.encode ++ tail)

include h

theorem drop_frames : file.data.toList.drop (LogWriter.fileOf cs).size = tail := by
  rw [h, LogWriter.size_fileOf, List.drop_left' rfl]

theorem size_frames : file.size = (LogWriter.fileOf cs).size + tail.length := by
  rw [size_eq_length, h, List.length_append, LogWriter.size_fileOf]

theorem rest_frames (commits : List Commit) :
    Replay.rest ⟨commits, (LogWriter.fileOf cs).size⟩ file = LogWriter.fileOf cs := by
  apply LogFile.ext_toList
  rw [Replay.rest, ← Nat.zero_add (LogWriter.fileOf cs).size, toList_extract, h,
    LogWriter.size_fileOf, List.drop_zero, List.take_left' rfl]
  rfl

theorem ofFile_frames (hcs : ∀ c ∈ cs, c.Readable) :
    ofFile file = (scan file (LogWriter.fileOf cs).size cs.length).map fun r =>
      { r with commits := cs ++ r.commits } := by
  rw [ofFile, scan_frames (by rw [List.drop_zero, h]) hcs, Nat.zero_add, Nat.zero_add,
    LogWriter.size_fileOf]

theorem ofFile_of_torn (hcs : ∀ c ∈ cs, c.Readable)
    (hread : Frame.read file (LogWriter.fileOf cs).size = .torn) :
    ofFile file = .ok ⟨cs, (LogWriter.fileOf cs).size⟩ := by
  rw [ofFile_frames h hcs, scan, hread]
  simp [Except.map]

theorem ofFile_of_faulty (hcs : ∀ c ∈ cs, c.Readable) {fault : Frame.Fault}
    (hread : Frame.read file (LogWriter.fileOf cs).size = .faulty fault) :
    ofFile file = .error ⟨fault, cs.length, (LogWriter.fileOf cs).size⟩ := by
  rw [ofFile_frames h hcs, scan, hread]
  rfl

theorem ofFile_of_commit (hcs : ∀ c ∈ cs, c.Readable) {c : Commit} {w : Nat}
    (hread : Frame.read file (LogWriter.fileOf cs).size = .commit c w) :
    ofFile file =
      (scan file ((LogWriter.fileOf cs).size + 8 + w) (cs.length + 1)).map fun r =>
        { r with commits := cs ++ c :: r.commits } := by
  rw [ofFile_frames h hcs, scan, hread]
  dsimp only
  cases scan file ((LogWriter.fileOf cs).size + 8 + w) (cs.length + 1) <;> rfl

end

/-! ### A file in which a length has changed -/

variable {before after : List Commit} {c : Commit} {w : Nat}

theorem toList_fileOf (before after : List Commit) (c : Commit) :
    (LogWriter.fileOf (before ++ c :: after)).data.toList =
      before.flatMap Frame.encode ++ (Binary.nat 4 (Binary.commit c).length ++
        (Frame.body c ++ after.flatMap Frame.encode)) := by
  change (before ++ c :: after).flatMap Frame.encode = _
  rw [List.flatMap_append, List.flatMap_cons, Frame.encode_eq, List.append_assoc]

theorem toList_set (before after : List Commit) (c : Commit) {i : Nat} (hi : i < 4) (b : UInt8) :
    ∃ w < 2 ^ 32,
      ((LogWriter.fileOf (before ++ c :: after)).set! ((LogWriter.fileOf before).size + i)
          b).data.toList =
        before.flatMap Frame.encode ++
          (Binary.nat 4 w ++ (Frame.body c ++ after.flatMap Frame.encode)) := by
  have length : ((Binary.nat 4 (Binary.commit c).length).set i b).length = 4 := by
    rw [List.length_set, Binary.length_nat]
  refine ⟨Binary.toNat ((Binary.nat 4 (Binary.commit c).length).set i b), ?_, ?_⟩
  · have small := Binary.toNat_lt ((Binary.nat 4 (Binary.commit c).length).set i b)
    rwa [length] at small
  · have word := Binary.nat_toNat ((Binary.nat 4 (Binary.commit c).length).set i b)
    rw [length] at word
    have set (file : ByteArray) (k : Nat) :
        (file.set! k b).data.toList = file.data.toList.set k b := by
      simp [ByteArray.set!]
    rw [word, set, toList_fileOf, LogWriter.size_fileOf,
      List.set_append_right _ _ (Nat.le_add_right _ _), Nat.add_sub_cancel_left,
      List.set_append_left _ _ (by rw [Binary.length_nat]; exact hi)]

section

variable {rest : List UInt8}
  (h : file.data.toList = before.flatMap Frame.encode ++
    (Binary.nat 4 w ++ (Frame.body c ++ rest)))
  (hbefore : ∀ d ∈ before, d.Readable) (hc : c.Readable) (hw : w < 2 ^ 32)

include h hbefore hc hw

theorem ofFile_of_refused (hlength : w < (Binary.commit c).length ∨
      (LogWriter.fileOf before).size + 8 + w < file.size ∧
        ¬ Frame.Sealed file (LogWriter.fileOf before).size) :
    ∃ cause, ofFile file = .error ⟨cause, before.length, (LogWriter.fileOf before).size⟩ := by
  have tail := drop_frames h
  obtain ⟨fault, read⟩ : ∃ fault,
      Frame.read file (LogWriter.fileOf before).size = .faulty fault := by
    rcases hlength with short | ⟨inside, unsealed⟩
    · exact Frame.read_shortened tail hc.fits hw short
    · refine Frame.read_of_not_sealed ?_ unsealed
      rwa [Frame.word_eq tail hw]
  exact ⟨fault, ofFile_of_faulty h hbefore read⟩

omit hc in
theorem ofFile_of_given_up (hlength : file.size < (LogWriter.fileOf before).size + 8 + w ∨
      file.size = (LogWriter.fileOf before).size + 8 + w ∧
        ¬ Frame.Sealed file (LogWriter.fileOf before).size) :
    ofFile file = .ok ⟨before, (LogWriter.fileOf before).size⟩ := by
  have tail := drop_frames h
  have word := Frame.word_eq tail hw
  have size := size_frames h
  rw [List.length_append, Binary.length_nat] at size
  refine ofFile_of_torn h hbefore ?_
  rcases hlength with beyond | ⟨atEnd, unsealed⟩
  · exact Frame.read_of_lt (by omega) (by rw [word]; exact beyond)
  · exact Frame.read_of_last (by rw [word]; exact atEnd.symm) unsealed

theorem ofFile_of_lengthened (hlength : (Binary.commit c).length < w)
    (hsize : (LogWriter.fileOf before).size + 8 + w ≤ file.size)
    (hs : Frame.Sealed file (LogWriter.fileOf before).size) :
    ofFile file = (scan file ((LogWriter.fileOf before).size + 8 + w) (before.length + 1)).map
      fun r => { r with commits := before ++ c :: r.commits } :=
  ofFile_of_commit h hbefore (Frame.read_lengthened (drop_frames h) hc hw hlength hsize hs)

end

theorem length_lt_of_read_on {stop : Nat}
    (h : ofFile file = (scan file stop (before.length + 1)).map fun r =>
      { r with commits := before ++ c :: r.commits }) :
    (∀ r, ofFile file = .ok r → before.length < r.commits.length) ∧
      ∀ fault, ofFile file = .error fault → before.length < fault.frame := by
  rw [h]
  cases hscan : scan file stop (before.length + 1) with
  | ok r =>
    refine ⟨fun r' ok => ?_, fun fault error => by cases error⟩
    cases ok
    simp only [List.length_append, List.length_cons]
    omega
  | error fault =>
    refine ⟨fun r ok => (by cases ok), fun fault' error => ?_⟩
    cases error
    exact le_frame_of_error hscan

/-- A changed length makes the frame end somewhere else. Behind the end of the file, or at the end
with a wrong checksum, it passes for a torn one, and the intact frames behind it are given up with
it. Otherwise the change is noticed, unless the checksum is right by chance. -/
theorem length_changed (hcs : ∀ d ∈ before ++ c :: after, d.Readable) {i : Nat}
    (hi : i < 4) (b : UInt8) :
    let file := LogWriter.fileOf (before ++ c :: after)
    let start := (LogWriter.fileOf before).size
    let damaged := file.set! (start + i) b
    let stop := start + 8 + Frame.word damaged start
    damaged ≠ file →
      (ofFile damaged = .ok ⟨before, start⟩ ↔
        damaged.size < stop ∨ damaged.size = stop ∧ ¬ Frame.Sealed damaged start) ∧
      Replay.rest ⟨before, start⟩ damaged = LogWriter.fileOf before ∧
      ((∃ cause, ofFile damaged = .error ⟨cause, before.length, start⟩) ↔
        Frame.word damaged start < (Binary.commit c).length ∨
          stop < damaged.size ∧ ¬ Frame.Sealed damaged start) ∧
      ((Binary.commit c).length < Frame.word damaged start ∧ stop ≤ damaged.size ∧
          Frame.Sealed damaged start →
        ofFile damaged = (scan damaged stop (before.length + 1)).map fun r =>
          { r with commits := before ++ c :: r.commits }) := by
  intro file start damaged stop changed
  have hbefore : ∀ d ∈ before, d.Readable := fun d hd => hcs d (List.mem_append_left _ hd)
  have hc : c.Readable := hcs c (List.mem_append_right _ List.mem_cons_self)
  obtain ⟨w, hw, bytes⟩ : ∃ w < 2 ^ 32, damaged.data.toList = before.flatMap Frame.encode ++
      (Binary.nat 4 w ++ (Frame.body c ++ after.flatMap Frame.encode)) :=
    toList_set before after c hi b
  have word : Frame.word damaged start = w := Frame.word_eq (drop_frames bytes) hw
  have other : w ≠ (Binary.commit c).length := by
    intro same
    refine changed (LogFile.ext_toList ?_)
    rw [bytes, same, toList_fileOf]
  have size : damaged.size = start + 8 + (Binary.commit c).length +
      (after.flatMap Frame.encode).length := by
    have size := size_frames bytes
    simp only [Frame.body, List.length_append, Binary.length_nat] at size
    omega
  have refused := ofFile_of_refused bytes hbefore hc hw
  have given_up := ofFile_of_given_up bytes hbefore hw
  have lengthened := ofFile_of_lengthened bytes hbefore hc hw
  rw [← word] at other refused given_up lengthened
  have outcome : (Frame.word damaged start < (Binary.commit c).length ∨
      stop < damaged.size ∧ ¬ Frame.Sealed damaged start) ∨
      (damaged.size < stop ∨ damaged.size = stop ∧ ¬ Frame.Sealed damaged start) ∨
      ((Binary.commit c).length < Frame.word damaged start ∧ stop ≤ damaged.size ∧
        Frame.Sealed damaged start) := by
    by_cases hs : Frame.Sealed damaged start
    · simp only [hs, not_true, and_true, and_false, or_false]
      omega
    · simp only [hs, not_false_iff, and_true, and_false, or_false]
      omega
  refine ⟨⟨fun read => ?_, given_up⟩, rest_frames bytes _, ⟨fun ⟨cause, read⟩ => ?_, refused⟩,
    fun ⟨longer, inside, hs⟩ => lengthened longer inside hs⟩
  · rcases outcome with noticed | lost | ⟨longer, inside, hs⟩
    · obtain ⟨_, error⟩ := refused noticed
      cases read.symm.trans error
    · exact lost
    · have more := (length_lt_of_read_on (lengthened longer inside hs)).1 _ read
      exact absurd more (Nat.lt_irrefl _)
  · rcases outcome with noticed | lost | ⟨longer, inside, hs⟩
    · exact noticed
    · cases read.symm.trans (given_up lost)
    · have later := (length_lt_of_read_on (lengthened longer inside hs)).2 _ read
      exact absurd later (Nat.lt_irrefl _)

set_option maxRecDepth 10000 in
theorem length_changed_highest :
    let first : Commit :=
      [.putParking ⟨.ofNat 1, ⟨"Rome", "00100", "Corso 1"⟩, [], .leastOccupied, 1⟩]
    let second : Commit := [.deleteParking (.ofNat 1)]
    let third : Commit :=
      [.putParking ⟨.ofNat 2, ⟨"Rome", "00100", "Corso 1"⟩, [], .mostOccupied, 1⟩]
    let file := LogWriter.fileOf [first, second, third]
    let start := (LogWriter.fileOf [first]).size
    let damaged := file.set! (start + 3) 0xFF
    (∀ c ∈ [first, second, third], c.Readable) ∧ damaged ≠ file ∧
      ofFile damaged = .ok ⟨[first], start⟩ ∧
      Replay.rest ⟨[first], start⟩ damaged = LogWriter.fileOf [first] := by
  intro first second third file start damaged
  have readable : ∀ c ∈ [first, second, third], c.Readable := by decide
  have changed : damaged ≠ file := by
    intro same
    have word : Frame.word damaged start ≠ Frame.word file start := by decide
    exact word (by rw [same])
  obtain ⟨given_up, rest, -⟩ :=
    @length_changed [first] [third] second readable 3 (by decide) 0xFF changed
  exact ⟨readable, changed, given_up.2 (.inl (by decide)), rest⟩

set_option maxRecDepth 10000 in
/-- One byte of the first length is changed: both commits are gone, and no fault is found. -/
theorem intact_frame_lost :
    let first : Commit :=
      [.putParking ⟨.ofNat 1, ⟨"Rome", "00100", "Corso 1"⟩, [], .leastOccupied, 1⟩]
    let second : Commit :=
      [.putParking ⟨.ofNat 2, ⟨"Rome", "00100", "Corso 2"⟩, [], .leastOccupied, 1⟩]
    let damaged := (LogWriter.fileOf [first, second]).set! 3 0xFF
    (∀ c ∈ [first, second], c.Readable) ∧ (∀ fault, ofFile damaged ≠ .error fault) ∧
      ofFile damaged = .ok ⟨[], 0⟩ ∧ Replay.rest ⟨[], 0⟩ damaged = .empty := by
  intro first second damaged
  have readable : ∀ c ∈ [first, second], c.Readable := by decide
  obtain ⟨w, hw, bytes⟩ := toList_set [] [second] first (i := 3) (by decide) 0xFF
  have word : Frame.word damaged 0 = w := Frame.word_eq (drop_frames bytes) hw
  have beyond : damaged.size < (LogWriter.fileOf []).size + 8 + Frame.word damaged 0 := by decide
  have lost : ofFile damaged = .ok ⟨[], 0⟩ :=
    ofFile_of_given_up bytes (List.forall_mem_nil _) hw (.inl (word ▸ beyond))
  refine ⟨readable, fun fault error => ?_, lost, ?_⟩
  · cases lost.symm.trans error
  · have rest := rest_frames bytes []
    exact rest

end Replay

/-! ### Zeros behind the last frame -/

namespace Binary

theorem toNat_replicate (n : Nat) : toNat (List.replicate n 0) = 0 := by
  induction n with
  | zero => rfl
  | succ n ih => rw [List.replicate_succ, toNat, ih]; rfl

end Binary

/-- So many bytes that are zero, as a crash leaves them where a file has grown before its data was
written. -/
def LogWriter.zeros (k : Nat) : ByteArray := ⟨Array.replicate k 0⟩

namespace Frame

variable {file : ByteArray} {pos k : Nat}

theorem word_of_zeros {n : Nat} (h : file.data.toList.drop pos = List.replicate k 0) :
    word file (pos + n) = 0 := by
  rw [word, toList_extract, ← List.drop_drop, h, List.drop_replicate, List.take_replicate,
    Binary.toNat_replicate]

/-- Eight zeros are a frame with nothing in it, and the checksum of nothing is zero. -/
theorem sealed_of_zeros (h : file.data.toList.drop pos = List.replicate k 0) :
    Sealed file pos := by
  have length : word file pos = 0 := word_of_zeros (n := 0) h
  have nothing : Crc32.ofList [] = 0 := by decide
  refine ⟨by rw [length]; exact Nat.zero_le _, ?_⟩
  rw [length, Nat.add_zero, word_of_zeros h, Crc32.ofBytes_eq_ofList,
    ← Nat.add_zero (pos + 4), toList_extract, List.take_zero, nothing]
  rfl

theorem read_of_zeros (h : file.data.toList.drop pos = List.replicate k 0) (hk : 0 < k) :
    read file pos = if k < 8 then .torn else .faulty .undecodable := by
  have length : word file pos = 0 := word_of_zeros (n := 0) h
  have size : file.size = pos + k := by
    have size := congrArg List.length h
    rw [List.length_drop, List.length_replicate, ← size_eq_length] at size
    omega
  split
  · exact read_of_lt (by omega) (by omega)
  · have none : Binary.commit? [] = Option.none := by decide
    rw [read_of_sealed (by omega) (sealed_of_zeros h), length, toList_extract, List.take_zero, none]

end Frame

namespace Replay

variable {cs : List Commit}

/-- Zeros at the end are cut off if they are too few for a frame. Eight of them are a frame with a
right checksum, and the log is refused. -/
theorem zeros_behind (hcs : ∀ c ∈ cs, c.Readable) {k : Nat} (hk : 0 < k) (obstructed : Bool) :
    let whole := LogWriter.fileOf cs
    let file := whole ++ LogWriter.zeros k
    (k < 8 → ofFile file = .ok ⟨cs, whole.size⟩ ∧ Replay.rest ⟨cs, whole.size⟩ file = whole ∧
      Store.ofFile obstructed file =
        .ok (⟨.ofCommits cs, .opened obstructed whole⟩, ⟨cs, whole.size⟩)) ∧
    (8 ≤ k → ofFile file = .error ⟨.undecodable, cs.length, whole.size⟩ ∧
      Store.ofFile obstructed file = .error ⟨.undecodable, cs.length, whole.size⟩) := by
  intro whole file
  have bytes : file.data.toList = cs.flatMap Frame.encode ++ List.replicate k 0 := by
    simp [file, whole, LogWriter.fileOf, LogWriter.zeros]
  have read := Frame.read_of_zeros (drop_frames bytes) hk
  have rest : Replay.rest ⟨cs, whole.size⟩ file = whole := rest_frames bytes cs
  refine ⟨fun few => ?_, fun many => ?_⟩
  · rw [if_pos few] at read
    have replay := ofFile_of_torn bytes hcs read
    refine ⟨replay, rest, ?_⟩
    rw [Store.ofFile, replay]
    simp only [Except.map]
    rw [rest]
  · rw [if_neg (Nat.not_lt.2 many)] at read
    have replay := ofFile_of_faulty bytes hcs read
    refine ⟨replay, ?_⟩
    rw [Store.ofFile, replay]
    rfl

theorem zeros_behind_seven_eight :
    let first : Commit :=
      [.putParking ⟨.ofNat 1, ⟨"Rome", "00100", "Corso 1"⟩, [], .leastOccupied, 1⟩]
    let whole := LogWriter.fileOf [first]
    first.Readable ∧ ofFile (whole ++ LogWriter.zeros 7) = .ok ⟨[first], whole.size⟩ ∧
      ofFile (whole ++ LogWriter.zeros 8) = .error ⟨.undecodable, 1, whole.size⟩ := by
  intro first whole
  have hfirst : first.Readable := by decide
  have readable : ∀ c ∈ [first], c.Readable := by simp [hfirst]
  obtain ⟨torn, -⟩ := zeros_behind readable (k := 7) (by decide) false
  obtain ⟨-, refused⟩ := zeros_behind readable (k := 8) (by decide) false
  exact ⟨hfirst, (torn (by decide)).1, (refused (by decide)).1⟩

theorem eight_zeros_refused :
    let first : Commit :=
      [.putParking ⟨.ofNat 1, ⟨"Rome", "00100", "Corso 1"⟩, [], .leastOccupied, 1⟩]
    let file := LogWriter.fileOf [first] ++ LogWriter.zeros 8
    first.Readable ∧ (∀ r, ofFile file ≠ .ok r) ∧
      ∀ obstructed opened, Store.ofFile obstructed file ≠ .ok opened := by
  intro first file
  have hfirst : first.Readable := by decide
  have bytes : file.data.toList = [first].flatMap Frame.encode ++ List.replicate 8 0 := by
    simp [file, LogWriter.fileOf, LogWriter.zeros]
  have read := Frame.read_of_zeros (drop_frames bytes) (by decide)
  have refused := ofFile_of_faulty bytes (by simp [hfirst]) read
  refine ⟨hfirst, fun r ok => ?_, fun obstructed opened ok => ?_⟩
  · cases refused.symm.trans ok
  · rw [Store.ofFile, refused] at ok
    cases ok

end Replay

end Carpark
