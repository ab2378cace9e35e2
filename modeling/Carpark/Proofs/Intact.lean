import Mathlib.Data.List.Forall2
import Carpark.Proofs.Damage

/-!
The reading of any bytes as a log file. What is kept of them is a row of intact frames, what is cut
off is less than a frame or one damaged frame, and what is kept is read again to the same commits.
-/

namespace Carpark

namespace Frame

/-! ### The parts of a frame -/

def announced (bytes : List UInt8) : Nat := Binary.toNat (bytes.take 4)

def payload (bytes : List UInt8) : List UInt8 := (bytes.drop 4).take (announced bytes)

def checksum (bytes : List UInt8) : Nat :=
  Binary.toNat ((bytes.drop (4 + announced bytes)).take 4)

/-- The bytes are one frame that the commit is read from. -/
structure Intact (bytes : List UInt8) (c : Commit) : Prop where
  length : bytes.length = 8 + announced bytes
  allowed : announced bytes ≤ mostBytes
  checksum : checksum bytes = (Crc32.ofList (payload bytes)).toNat
  decoded : Binary.commit? (payload bytes) = some c

/-- What passes for a torn end: too few bytes for a length, fewer than announced, or one whole frame
that is oversized or fails its checksum. -/
structure Torn (tail : List UInt8) : Prop where
  nonempty : tail ≠ []
  damaged : tail.length < 4 ∨ tail.length < 8 + announced tail ∨
    tail.length = 8 + announced tail ∧
      (mostBytes < announced tail ∨ Frame.checksum tail ≠ (Crc32.ofList (payload tail)).toNat)

def Shows (bytes : List UInt8) : Frame → Prop
  | .none => bytes = []
  | .torn => Torn bytes
  | .faulty _ => True
  | .commit c n => ∃ frame rest, bytes = frame ++ rest ∧ Intact frame c ∧ frame.length = 8 + n

section

variable {frame rest : List UInt8}

theorem announced_append (h : 4 ≤ frame.length) : announced (frame ++ rest) = announced frame := by
  rw [announced, List.take_append_of_le_length h, announced]

theorem payload_append (h : frame.length = 8 + announced frame) :
    payload (frame ++ rest) = payload frame := by
  rw [payload, announced_append (by omega), List.drop_append_of_le_length (by omega),
    List.take_append_of_le_length (by rw [List.length_drop]; omega), payload]

theorem checksum_append (h : frame.length = 8 + announced frame) :
    checksum (frame ++ rest) = checksum frame := by
  rw [checksum, announced_append (by omega), List.drop_append_of_le_length (by omega),
    List.take_append_of_le_length (by rw [List.length_drop]; omega), checksum]

theorem intact_take {bytes : List UInt8} {c : Commit}
    (whole : 8 + announced bytes ≤ bytes.length) (allowed : announced bytes ≤ mostBytes)
    (sum : checksum bytes = (Crc32.ofList (payload bytes)).toNat)
    (decoded : Binary.commit? (payload bytes) = some c) :
    Intact (bytes.take (8 + announced bytes)) c ∧
      (bytes.take (8 + announced bytes)).length = 8 + announced bytes := by
  obtain ⟨frame, rest, size, rfl⟩ : ∃ frame rest : List UInt8,
      frame.length = 8 + announced bytes ∧ frame ++ rest = bytes :=
    ⟨_, _, List.length_take_of_le whole, List.take_append_drop _ bytes⟩
  have front : announced (frame ++ rest) = announced frame := announced_append (by omega)
  rw [List.take_left' size]
  rw [front] at size allowed
  rw [payload_append size] at sum decoded
  rw [checksum_append size] at sum
  exact ⟨⟨size, allowed, sum, decoded⟩, by rw [front]; exact size⟩

theorem intact_encode {c : Commit} (hc : c.Readable) : Intact (encode c) c := by
  have most : mostBytes < 2 ^ 32 := by decide
  have small : (Binary.commit c).length < 256 ^ 4 := Nat.lt_of_le_of_lt hc.length most
  have front : announced (encode c) = (Binary.commit c).length := by
    rw [announced, encode_eq, List.take_left' (Binary.length_nat 4 _),
      Binary.toNat_nat_of_lt small]
  have form : payload (encode c) = Binary.commit c := by
    rw [payload, front, encode_eq, List.drop_left' (Binary.length_nat 4 _), body,
      List.take_left' rfl]
  have sum : Frame.checksum (encode c) = (Crc32.ofList (Binary.commit c)).toNat := by
    rw [Frame.checksum, front, ← List.drop_drop, encode_eq,
      List.drop_left' (Binary.length_nat 4 _), body, List.drop_left' rfl,
      List.take_of_length_le (Nat.le_of_eq (Binary.length_nat 4 _)),
      Binary.toNat_nat_of_lt (UInt32.toNat_lt _)]
  exact ⟨by rw [length_encode, front], front ▸ hc.length, by rw [sum, form],
    by rw [form, Binary.commit?_commit hc.fits]⟩

end

/-! ### What stands at a position -/

section

variable {file : ByteArray} {pos : Nat}

theorem length_drop_toList (file : ByteArray) (pos : Nat) :
    (file.data.toList.drop pos).length = file.size - pos := by
  rw [List.length_drop, ← size_eq_length]

theorem word_eq_announced : word file pos = announced (file.data.toList.drop pos) := by
  rw [word, toList_extract, announced]

theorem extract_eq_payload :
    (file.extract (pos + 4) (pos + 4 + word file pos)).data.toList =
      payload (file.data.toList.drop pos) := by
  rw [toList_extract, payload, word_eq_announced, List.drop_drop]

theorem word_eq_checksum :
    word file (pos + 4 + word file pos) = checksum (file.data.toList.drop pos) := by
  rw [word, toList_extract, checksum, word_eq_announced, List.drop_drop, Nat.add_assoc]

theorem sealed_iff : Sealed file pos ↔
    announced (file.data.toList.drop pos) ≤ mostBytes ∧
      checksum (file.data.toList.drop pos) =
        (Crc32.ofList (payload (file.data.toList.drop pos))).toNat := by
  rw [Sealed, word_eq_checksum, Crc32.ofBytes_eq_ofList, extract_eq_payload, word_eq_announced]

theorem read_shows (file : ByteArray) (pos : Nat) :
    (read file pos).Shows (file.data.toList.drop pos) := by
  have length := length_drop_toList file pos
  by_cases outside : file.size ≤ pos
  · rw [read_end outside]
    exact List.drop_of_length_le (by rwa [← size_eq_length])
  have nonempty : file.data.toList.drop pos ≠ [] := List.ne_nil_of_length_pos (by omega)
  by_cases short : file.size < pos + 8 + word file pos
  · rw [read_of_lt (Nat.not_le.1 outside) short]
    rw [word_eq_announced] at short
    exact ⟨nonempty, .inr (.inl (by omega))⟩
  by_cases hs : Sealed file pos
  · obtain ⟨allowed, sum⟩ := sealed_iff.1 hs
    rw [read_of_sealed (Nat.not_lt.1 short) hs, extract_eq_payload]
    rw [word_eq_announced] at short ⊢
    cases decoded : Binary.commit? (payload (file.data.toList.drop pos)) with
    | none => trivial
    | some c =>
      obtain ⟨intact, size⟩ := intact_take (by omega) allowed sum decoded
      exact ⟨_, _, (List.take_append_drop _ _).symm, intact, size⟩
  · rcases Nat.eq_or_lt_of_not_lt short with last | inner
    · rw [read_of_last last.symm hs]
      rw [sealed_iff, not_and_or, Nat.not_le] at hs
      rw [word_eq_announced] at last
      exact ⟨nonempty, .inr (.inr ⟨by omega, hs⟩)⟩
    · obtain ⟨fault, faulty⟩ := read_of_not_sealed inner hs
      rw [faulty]
      trivial

theorem read_of_torn (h : Torn (file.data.toList.drop pos)) : read file pos = .torn := by
  have length := length_drop_toList file pos
  have inside : pos < file.size := by
    have := List.length_pos_iff.2 h.nonempty
    omega
  have damaged := h.damaged
  rw [← word_eq_announced] at damaged
  by_cases short : file.size < pos + 8 + word file pos
  · exact read_of_lt inside short
  · obtain ⟨last, unsealed⟩ := (damaged.resolve_left (by omega)).resolve_left (by omega)
    refine read_of_last (by omega) fun hs => ?_
    obtain ⟨allowed, checksum⟩ := sealed_iff.1 hs
    rw [word_eq_announced] at unsealed
    exact unsealed.elim (Nat.not_lt.2 allowed) fun wrong => wrong checksum

theorem read_of_intact {frame rest : List UInt8} {c : Commit}
    (h : file.data.toList.drop pos = frame ++ rest) (hframe : Intact frame c) :
    read file pos = .commit c (announced frame) := by
  have length := length_drop_toList file pos
  rw [h, List.length_append, hframe.length] at length
  have front : word file pos = announced frame := by
    rw [word_eq_announced, h, announced_append (by rw [hframe.length]; omega)]
  have hs : Sealed file pos := by
    rw [sealed_iff, ← word_eq_announced, front, h, checksum_append hframe.length,
      payload_append hframe.length]
    exact ⟨hframe.allowed, hframe.checksum⟩
  rw [read_of_sealed (by omega) hs, extract_eq_payload, h, payload_append hframe.length,
    hframe.decoded, front]

end

end Frame

/-! ### Whole files -/

namespace Replay

open Carpark.Frame (Intact Torn)

/-- The bytes are frames of these commits, one after another. -/
def Framed (bytes : List UInt8) (cs : List Commit) : Prop :=
  ∃ frames : List (List UInt8), frames.flatten = bytes ∧ List.Forall₂ Intact frames cs

theorem Framed.nil : Framed [] [] := ⟨[], rfl, .nil⟩

theorem Framed.cons {frame bytes : List UInt8} {c : Commit} {cs : List Commit}
    (hframe : Intact frame c) (h : Framed bytes cs) : Framed (frame ++ bytes) (c :: cs) := by
  obtain ⟨frames, rfl, intact⟩ := h
  exact ⟨frame :: frames, rfl, .cons hframe intact⟩

theorem Framed.append {bytes bytes' : List UInt8} {cs ds : List Commit} (h : Framed bytes cs)
    (h' : Framed bytes' ds) : Framed (bytes ++ bytes') (cs ++ ds) := by
  obtain ⟨frames, rfl, intact⟩ := h
  obtain ⟨frames', rfl, intact'⟩ := h'
  exact ⟨frames ++ frames', List.flatten_append, List.rel_append intact intact'⟩

theorem framed_encode {cs : List Commit} (hcs : ∀ c ∈ cs, c.Readable) :
    Framed (cs.flatMap Frame.encode) cs := by
  induction cs with
  | nil => exact .nil
  | cons c cs ih =>
    exact .cons (Frame.intact_encode (hcs c List.mem_cons_self))
      (ih fun c' hc' => hcs c' (List.mem_cons_of_mem _ hc'))

variable {file : ByteArray} {pos index : Nat} {r : Replay}

theorem scan_framed {kept tail : List UInt8} {cs : List Commit} (h : Framed kept cs)
    (bytes : file.data.toList.drop pos = kept ++ tail) :
    scan file pos index = (scan file (pos + kept.length) (index + cs.length)).map fun r =>
      { r with commits := cs ++ r.commits } := by
  obtain ⟨frames, rfl, intact⟩ := h
  induction intact generalizing pos index with
  | nil =>
    rw [List.flatten_nil, List.length_nil, Nat.add_zero, List.length_nil, Nat.add_zero]
    cases scan file pos index <;> rfl
  | @cons frame c frames cs hframe _ ih =>
    rw [List.flatten_cons, List.append_assoc] at bytes
    have size := hframe.length
    have behind : file.data.toList.drop (pos + 8 + Frame.announced frame) =
        frames.flatten ++ tail := by
      rw [Nat.add_assoc, ← size, ← List.drop_drop, bytes, List.drop_left' rfl]
    have stop : pos + 8 + Frame.announced frame + frames.flatten.length =
        pos + (frame :: frames).flatten.length := by
      rw [List.flatten_cons, List.length_append, size, Nat.add_assoc, Nat.add_assoc,
        ← Nat.add_assoc 8]
    have number : index + 1 + cs.length = index + (c :: cs).length := by
      rw [List.length_cons, Nat.add_right_comm, Nat.add_assoc]
    rw [scan, Frame.read_of_intact bytes hframe]
    dsimp only
    rw [ih behind, stop, number]
    cases scan file (pos + (frame :: frames).flatten.length) (index + (c :: cs).length) <;> rfl

theorem ofFile_framed {kept tail : List UInt8} {cs : List Commit} (h : Framed kept cs)
    (bytes : file.data.toList = kept ++ tail) :
    ofFile file = (scan file kept.length cs.length).map fun r =>
      { r with commits := cs ++ r.commits } := by
  rw [ofFile, scan_framed h (by rw [List.drop_zero, bytes]), Nat.zero_add, Nat.zero_add]

def Found (r : Replay) (pos : Nat) (bytes : List UInt8) : Prop :=
  ∃ kept tail, bytes = kept ++ tail ∧ Framed kept r.commits ∧ r.kept = pos + kept.length ∧
    (tail = [] ∨ Torn tail)

theorem found_of_scan (h : scan file pos index = .ok r) :
    r.Found pos (file.data.toList.drop pos) := by
  fun_induction scan file pos index generalizing r with
  | case1 pos index hread =>
    cases h
    have shows := Frame.read_shows file pos
    rw [hread] at shows
    exact ⟨[], [], shows, .nil, rfl, .inl rfl⟩
  | case2 pos index hread =>
    cases h
    have shows := Frame.read_shows file pos
    rw [hread] at shows
    exact ⟨[], _, rfl, .nil, rfl, .inr shows⟩
  | case3 pos index cause hread => cases h
  | case4 pos index c length hread ih =>
    have shows := Frame.read_shows file pos
    rw [hread] at shows
    obtain ⟨frame, rest, split, intact, size⟩ := shows
    cases hscan : scan file (pos + 8 + length) (index + 1) with
    | error fault => rw [hscan] at h; cases h
    | ok r' =>
      rw [hscan] at h
      cases h
      obtain ⟨kept, tail, bytes, framed, stop, ends⟩ := ih hscan
      have behind : file.data.toList.drop (pos + 8 + length) = rest := by
        rw [Nat.add_assoc, ← size, ← List.drop_drop, split, List.drop_left' rfl]
      refine ⟨frame ++ kept, tail, ?_, framed.cons intact, ?_, ends⟩
      · rw [split, ← behind, bytes, List.append_assoc]
      · rw [stop, List.length_append, size]
        omega

theorem scan_of_found (h : r.Found pos (file.data.toList.drop pos)) :
    scan file pos index = .ok r := by
  obtain ⟨kept, tail, bytes, framed, stop, ends⟩ := h
  have behind : file.data.toList.drop (pos + kept.length) = tail := by
    rw [← List.drop_drop, bytes, List.drop_left' rfl]
  have last : scan file (pos + kept.length) (index + r.commits.length) =
      .ok ⟨[], pos + kept.length⟩ := by
    rcases ends with rfl | torn
    · rw [List.drop_eq_nil_iff, ← size_eq_length] at behind
      rw [scan, Frame.read_end behind]
    · rw [scan, Frame.read_of_torn (behind ▸ torn)]
  rw [scan_framed framed bytes, last, ← stop]
  simp [Except.map]

/-- A reading succeeds exactly where there are intact frames and at most a torn tail behind them. -/
theorem ofFile_eq_ok : ofFile file = .ok r ↔ r.Found 0 file.data.toList :=
  ⟨found_of_scan, scan_of_found⟩

theorem ofFile_eq_ok_size {cs : List Commit} :
    ofFile file = .ok ⟨cs, file.size⟩ ↔ Framed file.data.toList cs := by
  rw [ofFile_eq_ok]
  constructor
  · rintro ⟨kept, tail, bytes, framed, stop, -⟩
    have length := congrArg List.length bytes
    dsimp only at stop
    rw [List.length_append, ← size_eq_length] at length
    obtain rfl : tail = [] := List.eq_nil_of_length_eq_zero (by omega)
    rwa [bytes, List.append_nil]
  · exact fun framed => ⟨_, [], (List.append_nil _).symm, framed,
      by rw [Nat.zero_add, ← size_eq_length], .inl rfl⟩

theorem toList_rest {kept tail : List UInt8} (h : file.data.toList = kept ++ tail)
    (hr : r.kept = 0 + kept.length) : (r.rest file).data.toList = kept := by
  rw [rest, hr, toList_extract, List.drop_zero, h, List.take_left' rfl]

theorem toList_afterwards (h : ofFile file = .ok r) :
    ∃ tail, file.data.toList = (afterwards file).data.toList ++ tail ∧
      Framed (afterwards file).data.toList r.commits ∧
      r.kept = 0 + (afterwards file).data.toList.length ∧ (tail = [] ∨ Torn tail) := by
  obtain ⟨kept, tail, bytes, framed, stop, ends⟩ := ofFile_eq_ok.1 h
  rw [afterwards_of_ok h, toList_rest bytes stop]
  exact ⟨tail, bytes, framed, stop, ends⟩

theorem ofFile_afterwards (file : ByteArray) : ofFile (afterwards file) = ofFile file := by
  cases h : ofFile file with
  | error fault => rw [afterwards_of_error h, h]
  | ok r =>
    obtain ⟨tail, -, framed, stop, -⟩ := toList_afterwards h
    exact ofFile_eq_ok.2 ⟨_, [], (List.append_nil _).symm, framed, stop, .inl rfl⟩

theorem afterwards_afterwards (file : ByteArray) :
    afterwards (afterwards file) = afterwards file := by
  have same := ofFile_afterwards file
  cases h : ofFile file with
  | error fault => rw [afterwards_of_error h, afterwards_of_error h]
  | ok r =>
    obtain ⟨tail, -, -, stop, -⟩ := toList_afterwards h
    rw [afterwards_of_ok (same.trans h)]
    exact LogFile.ext_toList (toList_rest (List.append_nil _).symm stop)

theorem store_ofFile_afterwards (obstructed : Bool) (file : ByteArray) :
    Store.ofFile obstructed (afterwards file) = Store.ofFile obstructed file := by
  have same := ofFile_afterwards file
  cases h : ofFile file with
  | error fault => rw [afterwards_of_error h]
  | ok r =>
    have again := afterwards_afterwards file
    rw [afterwards_of_ok (same.trans h), afterwards_of_ok h] at again
    rw [Store.ofFile, Store.ofFile, same, h, afterwards_of_ok h]
    simp only [Except.map, again]

/-- Replay is idempotent: it keeps the frames of the commits that it reads, and cuts off a torn
tail. -/
theorem read_again (file : ByteArray) :
    (∀ fault, ofFile file = .error fault → afterwards file = file) ∧
    ∀ r, ofFile file = .ok r →
      ∃ tail, file.data.toList = (afterwards file).data.toList ++ tail ∧
        Framed (afterwards file).data.toList r.commits ∧ (tail = [] ∨ Torn tail) ∧
        ofFile (afterwards file) = .ok r ∧ afterwards (afterwards file) = afterwards file := by
  refine ⟨fun fault h => afterwards_of_error h, fun r h => ?_⟩
  obtain ⟨tail, bytes, framed, -, ends⟩ := toList_afterwards h
  exact ⟨tail, bytes, framed, ends, (ofFile_afterwards file).trans h, afterwards_afterwards file⟩

theorem read_again_behind_zeros :
    let first : Commit :=
      [.putParking ⟨.ofNat 1, ⟨"Rome", "00100", "Corso 1"⟩, [], .leastOccupied, 1⟩]
    let whole := LogWriter.fileOf [first]
    let file := whole ++ LogWriter.zeros 7
    let refused := whole ++ LogWriter.zeros 8
    afterwards file = whole ∧ Framed (afterwards file).data.toList [first] ∧
      ofFile (afterwards file) = .ok ⟨[first], whole.size⟩ ∧ afterwards refused = refused := by
  intro first whole file refused
  have readable : ∀ c ∈ [first], c.Readable := by decide
  have bytes (k : Nat) : (whole ++ LogWriter.zeros k).data.toList =
      [first].flatMap Frame.encode ++ List.replicate k 0 := by
    simp [whole, LogWriter.fileOf, LogWriter.zeros]
  have cut : ofFile file = .ok ⟨[first], whole.size⟩ :=
    ofFile_of_torn (bytes 7) readable (Frame.read_of_zeros (drop_frames (bytes 7)) (by decide))
  have fault : ofFile refused = .error ⟨.undecodable, 1, whole.size⟩ :=
    ofFile_of_faulty (bytes 8) readable (Frame.read_of_zeros (drop_frames (bytes 8)) (by decide))
  obtain ⟨-, read⟩ := read_again file
  obtain ⟨tail, -, framed, -, again, -⟩ := read _ cut
  refine ⟨?_, framed, again, (read_again refused).1 _ fault⟩
  rw [afterwards_of_ok cut]
  exact rest_frames (bytes 7) [first]

end Replay

end Carpark
