import Carpark.Proofs.Frames

/-!
A log file that ends anywhere, as a crash leaves it. The frames that are whole are read back, what
is left of the next one is cut off, and later commits stand right behind them.
-/

namespace Carpark

/-! ### Whole frames -/

namespace LogWriter

/-- The commits from the front whose frames lie within the first `n` bytes. -/
def within : (n : Nat) → List Commit → List Commit
  | _, [] => []
  | n, c :: cs =>
    if (Frame.encode c).length ≤ n then c :: within (n - (Frame.encode c).length) cs else []

theorem size_fileOf (cs : List Commit) : (fileOf cs).size = (cs.flatMap Frame.encode).length := by
  simp [fileOf, size_eq_length]

theorem within_isPrefix (n : Nat) (cs : List Commit) : within n cs <+: cs := by
  fun_induction within n cs with
  | case1 => exact List.prefix_rfl
  | case2 n c cs _ ih => exact (List.prefix_cons_inj c).2 ih
  | case3 => exact List.nil_prefix

theorem size_within_le (n : Nat) (cs : List Commit) : (fileOf (within n cs)).size ≤ n := by
  rw [size_fileOf]
  fun_induction within n cs with
  | case1 => exact Nat.zero_le _
  | case2 n c cs fits ih =>
    rw [List.flatMap_cons, List.length_append]
    omega
  | case3 => exact Nat.zero_le _

/-- No longer list of commits from the front lies within so many bytes. -/
theorem isPrefix_within {n : Nat} {cs ds : List Commit} (h : ds <+: cs)
    (hsize : (fileOf ds).size ≤ n) : ds <+: within n cs := by
  rw [size_fileOf] at hsize
  induction ds generalizing n cs with
  | nil => exact List.nil_prefix
  | cons d ds ih =>
    obtain ⟨rest, rfl⟩ := h
    rw [List.flatMap_cons, List.length_append] at hsize
    rw [List.cons_append, within, if_pos (by omega)]
    exact (List.prefix_cons_inj d).2 (ih (List.prefix_append _ _) (by omega))

theorem toList_extract_fileOf (cs : List Commit) (n : Nat) :
    ((fileOf cs).extract 0 n).data.toList = (cs.flatMap Frame.encode).take n := by
  rw [← Nat.zero_add n, toList_extract, List.drop_zero, Nat.zero_add]
  rfl

theorem take_flatMap_encode (n : Nat) (cs : List Commit) :
    ∃ rest, (cs.flatMap Frame.encode).take n = (within n cs).flatMap Frame.encode ++ rest ∧
      (rest = [] ∨ ∃ c ∈ cs, ∃ k < (Frame.encode c).length, rest = (Frame.encode c).take k) := by
  fun_induction within n cs with
  | case1 => exact ⟨[], by simp, .inl rfl⟩
  | case2 n c cs fits ih =>
    obtain ⟨rest, htake, hrest⟩ := ih
    refine ⟨rest, ?_, hrest.imp_right ?_⟩
    · rw [List.flatMap_cons, List.take_append, List.take_of_length_le fits, htake,
        List.flatMap_cons, List.append_assoc]
    · rintro ⟨d, hd, h⟩
      exact ⟨d, List.mem_cons_of_mem _ hd, h⟩
  | case3 n c cs cut =>
    have short : n ≤ (Frame.encode c).length := Nat.le_of_lt (Nat.not_le.1 cut)
    refine ⟨(Frame.encode c).take n, ?_, .inr ⟨c, List.mem_cons_self, n, Nat.not_le.1 cut, rfl⟩⟩
    rw [List.flatMap_cons, List.take_append_of_le_length short]
    rfl

end LogWriter

/-! ### The torn frame -/

namespace Frame

variable {file : ByteArray} {pos k : Nat} {c : Commit}

theorem read_torn (h : file.data.toList.drop pos = (encode c).take k) (hk : 0 < k)
    (hcut : k < (encode c).length) (hc : c.Readable) : read file pos = .torn := by
  have size : file.size = pos + k := by
    have length := congrArg List.length h
    rw [List.length_drop, List.length_take, ← size_eq_length] at length
    omega
  -- the cut falls into the length itself, or behind it
  by_cases few : k < 4
  · rw [read, if_neg (by omega), if_pos (by omega)]
  · have most : mostBytes < 2 ^ 32 := by decide
    have bytes : file.data.toList.drop pos = Binary.nat 4 (Binary.commit c).length ++
        (Binary.commit c ++ Binary.nat 4 (Crc32.ofList (Binary.commit c)).toNat).take (k - 4) := by
      rw [h, encode, List.append_assoc, List.take_append, Binary.length_nat,
        List.take_of_length_le (by rw [Binary.length_nat]; omega)]
    have word : word file pos = (Binary.commit c).length :=
      word_eq bytes (Nat.lt_of_le_of_lt hc.length most)
    rw [length_encode] at hcut
    rw [read, if_neg (by omega), if_neg (by omega)]
    simp only [word]
    rw [if_pos (by omega)]

end Frame

namespace Replay

theorem scan_torn {file : ByteArray} {pos index k : Nat} {c : Commit}
    (h : file.data.toList.drop pos = (Frame.encode c).take k) (hcut : k < (Frame.encode c).length)
    (hc : c.Readable) : scan file pos index = .ok ⟨[], pos⟩ := by
  rcases Nat.eq_zero_or_pos k with rfl | hk
  · rw [List.take_zero, List.drop_eq_nil_iff, ← size_eq_length] at h
    rw [scan, Frame.read_end h]
  · rw [scan, Frame.read_torn h hk hcut hc]

variable {cs : List Commit}

theorem ofFile_extract (hcs : ∀ c ∈ cs, c.Readable) (n : Nat) :
    ofFile ((LogWriter.fileOf cs).extract 0 n) =
      .ok ⟨LogWriter.within n cs, (LogWriter.fileOf (LogWriter.within n cs)).size⟩ := by
  obtain ⟨rest, htake, hrest⟩ := LogWriter.take_flatMap_encode n cs
  have bytes := (LogWriter.toList_extract_fileOf cs n).trans htake
  have whole : ∀ c ∈ LogWriter.within n cs, c.Readable :=
    fun c hc => hcs c ((LogWriter.within_isPrefix n cs).subset hc)
  have tail : ((LogWriter.fileOf cs).extract 0 n).data.toList.drop
      ((LogWriter.within n cs).flatMap Frame.encode).length = rest := by
    rw [bytes, List.drop_left' rfl]
  have read (index : Nat) : scan ((LogWriter.fileOf cs).extract 0 n)
      ((LogWriter.within n cs).flatMap Frame.encode).length index =
        .ok ⟨[], ((LogWriter.within n cs).flatMap Frame.encode).length⟩ := by
    rcases hrest with rfl | ⟨c, hc, k, hk, rfl⟩
    · rw [List.drop_eq_nil_iff, ← size_eq_length] at tail
      rw [scan, Frame.read_end tail]
    · exact scan_torn tail hk (hcs c hc)
  rw [ofFile, scan_frames (by rw [List.drop_zero, bytes]) whole, Nat.zero_add, read,
    LogWriter.size_fileOf]
  simp [Except.map]

theorem rest_extract (cs : List Commit) (n : Nat) :
    rest ⟨LogWriter.within n cs, (LogWriter.fileOf (LogWriter.within n cs)).size⟩
      ((LogWriter.fileOf cs).extract 0 n) = LogWriter.fileOf (LogWriter.within n cs) := by
  obtain ⟨tail, htake, -⟩ := LogWriter.take_flatMap_encode n cs
  apply LogFile.ext_toList
  rw [rest, ← Nat.zero_add (LogWriter.fileOf _).size, toList_extract, List.drop_zero,
    LogWriter.toList_extract_fileOf, htake, LogWriter.size_fileOf, List.take_left' rfl]
  rfl

end Replay

/-! ### Going on behind the cut -/

theorem LogFile.Holds.writeBatches {f : LogFile} {cs : List Commit} (h : f.Holds cs)
    (batches : List (List Commit)) :
    (batches.foldl LogFile.writeBatch f).Holds (cs ++ batches.flatten) := by
  induction batches generalizing f cs with
  | nil => simpa using h
  | cons ds batches ih => simpa using ih (h.writeBatch ds)

namespace Replay

/-- A log that ends anywhere is read up to its last whole frame, and later appends go behind
that. -/
theorem whole_frames_survive {cs : List Commit} (hcs : ∀ c ∈ cs, c.Readable) (n : Nat) :
    let cut := (LogWriter.fileOf cs).extract 0 n
    ∃ kept r, kept <+: cs ∧ (LogWriter.fileOf kept).size ≤ n ∧
      (∀ ds, ds <+: cs → (LogWriter.fileOf ds).size ≤ n → ds <+: kept) ∧
      ofFile cut = .ok r ∧ r.commits = kept ∧ r.rest cut = LogWriter.fileOf kept ∧
      ∀ (obstructed : Bool) (batches : List (List Commit)),
        (∀ ds ∈ batches, ∀ c ∈ ds, c.Readable) →
        let later := batches.foldl LogFile.writeBatch (.opened obstructed (r.rest cut))
        ofFile later.bytes = .ok ⟨kept ++ batches.flatten, later.bytes.size⟩ := by
  intro cut
  have rest := rest_extract cs n
  refine ⟨LogWriter.within n cs, _, LogWriter.within_isPrefix n cs, LogWriter.size_within_le n cs,
    fun ds => LogWriter.isPrefix_within, ofFile_extract hcs n, rfl, rest,
    fun obstructed batches hbatches => ?_⟩
  have holds := (LogFile.Holds.opened obstructed (LogWriter.within n cs)).writeBatches batches
  have readable : ∀ c ∈ LogWriter.within n cs ++ batches.flatten, c.Readable := by
    intro c hc
    rcases List.mem_append.1 hc with hc | hc
    · exact hcs c ((LogWriter.within_isPrefix n cs).subset hc)
    · obtain ⟨ds, hds, hc⟩ := List.mem_flatten.1 hc
      exact hbatches ds hds c hc
  simp only [cut, rest, holds.bytes]
  exact ofFile_fileOf readable

theorem whole_frames_survive_checksum :
    let first : Commit :=
      [.putParking ⟨.ofNat 1, ⟨"Rome", "00100", "Corso 1"⟩, [], .leastOccupied, 1⟩]
    let second : Commit := [.deleteParking (.ofNat 1)]
    let file := LogWriter.fileOf [first, second]
    let cut := file.extract 0 (file.size - 1)
    (∀ c ∈ [first, second], c.Readable) ∧ ∃ r, ofFile cut = .ok r ∧ r.commits = [first] ∧
      ∀ obstructed,
        let later := LogFile.writeBatch (.opened obstructed (r.rest cut)) [second]
        ofFile later.bytes = .ok ⟨[first, second], later.bytes.size⟩ := by
  intro first second file cut
  have hfirst : first.Readable := by decide
  have hsecond : second.Readable := by decide
  have readable : ∀ c ∈ [first, second], c.Readable := by simp [hfirst, hsecond]
  have size : file.size = (LogWriter.fileOf [first]).size + 8 + (Binary.commit second).length := by
    simp only [file, LogWriter.size_fileOf, List.flatMap_cons, List.length_append,
      Frame.length_encode, List.flatMap_nil, List.length_nil]
    omega
  obtain ⟨kept, r, hkept, fits, longest, read, rfl, -, behind⟩ :=
    whole_frames_survive readable (file.size - 1)
  have kept : r.commits = [first] := by
    rcases (List.prefix_concat_iff : _ <+: [first] ++ [second] ↔ _).1 hkept with both | one
    · rw [both] at fits
      change file.size ≤ file.size - 1 at fits
      omega
    · have whole := longest [first] ⟨[second], rfl⟩ (by omega)
      exact List.IsPrefix.eq_of_length_le one whole.length_le
  refine ⟨readable, r, read, kept, fun obstructed => ?_⟩
  have again := behind obstructed [[second]] (by simp [hsecond])
  rw [kept] at again
  exact again

end Replay

end Carpark
