import Carpark.Proofs.Checksum
import Carpark.Proofs.Damage

/-!
Log files in which the body of one frame has changed: up to four bytes in a row of its commit, or
its checksum. Where the frame ends is not affected, so the change is noticed, and only a last frame
is given up for it.
-/

namespace Carpark

/-! ### Files that differ in a few bytes -/

/-- The files are of one size and differ, but only in `n` bytes from position `pos` on. -/
structure Altered (file damaged : ByteArray) (pos n : Nat) : Prop where
  size : damaged.size = file.size
  changed : damaged ≠ file
  outside : ∀ i, i < pos ∨ pos + n ≤ i → damaged.data.toList[i]? = file.data.toList[i]?

namespace Altered

variable {file damaged : ByteArray} {pos n : Nat}

theorem set {b : UInt8} (h : file.set! pos b ≠ file) : Altered file (file.set! pos b) pos 1 where
  size := by simp [ByteArray.set!, ← ByteArray.size_data]
  changed := h
  outside i hi := by
    have other : pos ≠ i := by omega
    simp [ByteArray.set!, other]

theorem take_eq (h : Altered file damaged pos n) :
    damaged.data.toList.take pos = file.data.toList.take pos := by
  apply List.ext_getElem?
  intro i
  rw [List.getElem?_take, List.getElem?_take]
  split
  next hi => exact h.outside i (.inl hi)
  next => rfl

theorem drop_eq (h : Altered file damaged pos n) :
    damaged.data.toList.drop (pos + n) = file.data.toList.drop (pos + n) := by
  apply List.ext_getElem?
  intro i
  rw [List.getElem?_drop, List.getElem?_drop]
  exact h.outside _ (.inr (Nat.le_add_right _ _))

theorem exists_splice (h : Altered file damaged pos n) {front part back : List UInt8}
    (hfile : file.data.toList = front ++ (part ++ back)) (hstart : front.length ≤ pos)
    (hstop : pos + n ≤ front.length + part.length) :
    ∃ l mid mid' r, part = l ++ (mid ++ r) ∧ mid.length = n ∧ mid.length = mid'.length ∧
      mid ≠ mid' ∧ damaged.data.toList = front ++ ((l ++ (mid' ++ r)) ++ back) := by
  obtain ⟨k, rfl⟩ := Nat.exists_eq_add_of_le hstart
  have inside : k + n ≤ part.length := by omega
  have length : damaged.data.toList.length = file.data.toList.length := by
    rw [← size_eq_length, ← size_eq_length, h.size]
  have whole : damaged.data.toList = front ++
      ((part.take k ++ ((damaged.data.toList.drop (front.length + k)).take n ++
        part.drop (k + n))) ++ back) := by
    have take : damaged.data.toList.take (front.length + k) = front ++ part.take k := by
      rw [h.take_eq, hfile, List.take_length_add_append,
        List.take_append_of_le_length (by omega)]
    have drop : damaged.data.toList.drop (front.length + k + n) = part.drop (k + n) ++ back := by
      rw [h.drop_eq, hfile, Nat.add_assoc, List.drop_length_add_append,
        List.drop_append_of_le_length inside]
    conv => lhs; rw [← List.take_append_drop (front.length + k) damaged.data.toList, take,
      ← List.take_append_drop n (damaged.data.toList.drop (front.length + k)), List.drop_drop, drop]
    simp only [List.append_assoc]
  have parts : part = part.take k ++ ((part.drop k).take n ++ part.drop (k + n)) := by
    conv => lhs; rw [← List.take_append_drop k part,
      ← List.take_append_drop n (part.drop k), List.drop_drop]
  have middle : ((part.drop k).take n).length = n := by
    rw [List.length_take, List.length_drop]
    omega
  refine ⟨part.take k, (part.drop k).take n, _, part.drop (k + n), parts, middle, ?_, ?_, whole⟩
  · rw [middle, List.length_take, List.length_drop, length, hfile]
    simp only [List.length_append]
    omega
  · intro same
    refine h.changed (LogFile.ext_toList ?_)
    rw [whole, ← same, ← parts, hfile]

end Altered

/-! ### A frame that has changed -/

namespace Binary

theorem nat_injective {a b : List UInt8} (hlength : a.length = b.length)
    (h : toNat a = toNat b) : a = b := by
  rw [← nat_toNat a, ← nat_toNat b, hlength, h]

end Binary

namespace Frame

variable {file : ByteArray} {pos : Nat} {payload sum rest : List UInt8}

theorem read_of_wrong_sum
    (h : file.data.toList.drop pos = Binary.nat 4 payload.length ++ (payload ++ (sum ++ rest)))
    (hpayload : payload.length ≤ mostBytes) (hsum : sum.length = 4)
    (wrong : Binary.toNat sum ≠ (Crc32.ofList payload).toNat) :
    read file pos = if rest = [] then .torn else .faulty .checksum := by
  have most : mostBytes < 2 ^ 32 := by decide
  have size : pos + (8 + payload.length + rest.length) = file.size := by
    have length := congrArg List.length h
    simp only [List.length_drop, List.length_append, Binary.length_nat, hsum,
      ← size_eq_length] at length
    omega
  have behind : file.data.toList.drop (pos + 4) = payload ++ (sum ++ rest) := by
    rw [← List.drop_drop, h, List.drop_left' (Binary.length_nat _ _)]
  have length : word file pos = payload.length := word_eq h (by omega)
  have bytes : (file.extract (pos + 4) (pos + 4 + payload.length)).data.toList = payload := by
    rw [toList_extract, behind, List.take_left' rfl]
  have check : word file (pos + 4 + payload.length) = Binary.toNat sum := by
    rw [word, toList_extract, ← List.drop_drop, behind, List.drop_left' rfl,
      List.take_left' hsum]
  simp only [read, length, check, Crc32.ofBytes_eq_ofList, bytes]
  rw [if_neg (by omega), if_neg (by omega), if_neg (by omega), if_neg (by omega), if_pos wrong]
  have last : pos + 8 + payload.length = file.size ↔ rest = [] := by
    rw [← List.length_eq_zero_iff]
    omega
  simp only [last]

end Frame

namespace Replay

variable {before after : List Commit} {c : Commit} {damaged : ByteArray} {pos n : Nat}

theorem exists_wrong_sum
    (h : Altered (LogWriter.fileOf (before ++ c :: after)) damaged pos n)
    (hpos : ((LogWriter.fileOf before).size + 4 ≤ pos ∧
        pos + n ≤ (LogWriter.fileOf before).size + 4 + (Binary.commit c).length ∧ n ≤ 4) ∨
      ((LogWriter.fileOf before).size + 4 + (Binary.commit c).length ≤ pos ∧
        pos + n ≤ (LogWriter.fileOf before).size + 4 + (Binary.commit c).length + 4)) :
    ∃ payload sum, payload.length = (Binary.commit c).length ∧ sum.length = 4 ∧
      Binary.toNat sum ≠ (Crc32.ofList payload).toNat ∧
      damaged.data.toList = before.flatMap Frame.encode ++
        (Binary.nat 4 payload.length ++ (payload ++ (sum ++ after.flatMap Frame.encode))) := by
  generalize hsum : Binary.nat 4 (Crc32.ofList (Binary.commit c)).toNat = sum
  have sumLength : sum.length = 4 := by rw [← hsum, Binary.length_nat]
  have sumValue : Binary.toNat sum = (Crc32.ofList (Binary.commit c)).toNat := by
    rw [← hsum]
    exact Binary.toNat_nat_of_lt (UInt32.toNat_lt _)
  have bytes := toList_fileOf before after c
  rw [Frame.body, hsum, List.append_assoc] at bytes
  rw [LogWriter.size_fileOf] at hpos
  rcases hpos with ⟨hstart, hstop, few⟩ | ⟨hstart, hstop⟩
  · rw [← List.append_assoc] at bytes
    obtain ⟨l, mid, mid', r, parts, length, sameLength, changed, altered⟩ :=
      h.exists_splice bytes (by rw [List.length_append, Binary.length_nat]; exact hstart)
        (by rw [List.length_append, Binary.length_nat]; exact hstop)
    have payloadLength : (l ++ (mid' ++ r)).length = (Binary.commit c).length := by
      rw [parts]
      simp only [List.length_append, sameLength]
    refine ⟨l ++ (mid' ++ r), sum, payloadLength, sumLength, ?_, ?_⟩
    · rw [sumValue, parts]
      intro same
      exact Crc32.ofList_ne sameLength (length ▸ few) changed (UInt32.toNat_inj.1 same)
    · rw [altered, payloadLength, List.append_assoc]
  · have inFront : (before.flatMap Frame.encode ++
        (Binary.nat 4 (Binary.commit c).length ++ Binary.commit c)).length =
          (before.flatMap Frame.encode).length + 4 + (Binary.commit c).length := by
      simp only [List.length_append, Binary.length_nat]
      omega
    have regrouped (s : List UInt8) : before.flatMap Frame.encode ++
        (Binary.nat 4 (Binary.commit c).length ++ (Binary.commit c ++ s)) =
          before.flatMap Frame.encode ++
            (Binary.nat 4 (Binary.commit c).length ++ Binary.commit c) ++ s := by
      simp only [List.append_assoc]
    rw [regrouped] at bytes
    obtain ⟨l, mid, mid', r, parts, -, sameLength, changed, altered⟩ :=
      h.exists_splice bytes (by rw [inFront]; exact hstart)
        (by rw [inFront, sumLength]; exact hstop)
    have length : (l ++ (mid' ++ r)).length = sum.length := by
      rw [parts]
      simp only [List.length_append, sameLength]
    refine ⟨Binary.commit c, l ++ (mid' ++ r), rfl, length.trans sumLength, ?_, ?_⟩
    · rw [← sumValue]
      intro same
      have sums : l ++ (mid' ++ r) = l ++ (mid ++ r) :=
        parts ▸ Binary.nat_injective length same
      exact changed (List.append_cancel_right (List.append_cancel_left sums)).symm
    · rw [altered, regrouped]

/-- A change of up to four bytes in the body of a frame, or in its checksum, is noticed. A last
frame is then given up. -/
theorem body_changed (hcs : ∀ d ∈ before ++ c :: after, d.Readable) :
    let file := LogWriter.fileOf (before ++ c :: after)
    let start := (LogWriter.fileOf before).size
    let stop := start + 4 + (Binary.commit c).length
    Altered file damaged pos n →
    (start + 4 ≤ pos ∧ pos + n ≤ stop ∧ n ≤ 4) ∨ (stop ≤ pos ∧ pos + n ≤ stop + 4) →
      (after ≠ [] → ofFile damaged = .error ⟨.checksum, before.length, start⟩ ∧
        afterwards damaged = damaged ∧
        ∀ path, Fault.message path ⟨.checksum, before.length, start⟩ =
          "wal " ++ path ++ ": checksum mismatch in frame " ++ toString before.length ++
            " at byte " ++ toString start) ∧
      (after = [] → ofFile damaged = .ok ⟨before, start⟩ ∧
        afterwards damaged = LogWriter.fileOf before) := by
  intro file start stop altered hpos
  have hbefore : ∀ d ∈ before, d.Readable := fun d hd => hcs d (List.mem_append_left _ hd)
  have hc : c.Readable := hcs c (List.mem_append_right _ List.mem_cons_self)
  obtain ⟨payload, sum, payloadLength, sumLength, wrong, bytes⟩ := exists_wrong_sum altered hpos
  have read := Frame.read_of_wrong_sum (drop_frames bytes) (payloadLength ▸ hc.length) sumLength
    wrong
  refine ⟨fun more => ?_, fun last => ?_⟩
  · have follows : after.flatMap Frame.encode ≠ [] := by
      cases after with
      | nil => exact absurd rfl more
      | cons d after =>
        intro none
        have length := congrArg List.length none
        rw [List.flatMap_cons, List.length_append, Frame.length_encode] at length
        simp at length
    rw [if_neg follows] at read
    have noticed := ofFile_of_faulty bytes hbefore read
    refine ⟨noticed, ?_, fun path => ?_⟩
    · exact afterwards_of_error noticed
    · simp only [Fault.message, Frame.Fault.message, String.append_assoc]
      rfl
  · rw [last, List.flatMap_nil, if_pos rfl] at read
    have givenUp := ofFile_of_torn bytes hbefore read
    refine ⟨givenUp, ?_⟩
    rw [afterwards_of_ok givenUp]
    exact rest_frames bytes before

set_option maxRecDepth 10000 in
theorem body_changed_first_last :
    let first : Commit :=
      [.putParking ⟨.ofNat 1, ⟨"Rome", "00100", "Corso 1"⟩, [], .leastOccupied, 1⟩]
    let second : Commit := [.deleteParking (.ofNat 1)]
    let file := LogWriter.fileOf [first, second]
    let start := (LogWriter.fileOf [first]).size
    (∀ c ∈ [first, second], c.Readable) ∧
      Altered file (file.set! 20 0xFF) 20 1 ∧
      ofFile (file.set! 20 0xFF) = .error ⟨.checksum, 0, 0⟩ ∧
      Altered file (file.set! 167 0xFF) 167 1 ∧
      ofFile (file.set! 167 0xFF) = .ok ⟨[first], start⟩ ∧
      afterwards (file.set! 167 0xFF) = LogWriter.fileOf [first] := by
  intro first second file start
  have readable : ∀ c ∈ [first, second], c.Readable := by decide
  have commit : Altered file (file.set! 20 0xFF) 20 1 := by
    refine .set fun same => ?_
    have byte : (file.set! 20 0xFF).data.toList[20]? ≠ file.data.toList[20]? := by decide
    exact byte (by rw [same])
  have sum : Altered file (file.set! 167 0xFF) 167 1 := by
    refine .set fun same => ?_
    have byte : (file.set! 167 0xFF).data.toList[167]? ≠ file.data.toList[167]? := by
      decide +kernel
    exact byte (by rw [same])
  obtain ⟨noticed, -⟩ :=
    @body_changed [] [second] first _ 20 1 readable commit (.inl (by decide))
  obtain ⟨-, givenUp⟩ :=
    @body_changed [first] [] second _ 167 1 readable sum (.inr (by decide))
  exact ⟨readable, commit, (noticed (List.cons_ne_nil _ _)).1, sum, givenUp rfl⟩

end Replay

end Carpark
