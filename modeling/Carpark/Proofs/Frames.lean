import Carpark.Log.File
import Carpark.Log.Replay
import Carpark.Proofs.Codec

/-!
The frames of a log file are read back one after another.
-/

namespace Carpark

/-- The log can hold the commit: its numbers fit, and its form is not over the limit. -/
structure Commit.Readable (c : Commit) : Prop where
  fits : c.Fits
  length : (Binary.commit c).length ≤ Frame.mostBytes

instance (c : Commit) : Decidable c.Readable :=
  decidable_of_iff (c.Fits ∧ (Binary.commit c).length ≤ Frame.mostBytes)
    ⟨fun ⟨fits, length⟩ => ⟨fits, length⟩, fun ⟨fits, length⟩ => ⟨fits, length⟩⟩

/-! ### Bytes of a file -/

theorem toList_extract (file : ByteArray) (i n : Nat) :
    (file.extract i (i + n)).data.toList = (file.data.toList.drop i).take n := by
  simp [ByteArray.data_extract, Array.toList_extract, List.extract_eq_take_drop]

theorem size_eq_length (file : ByteArray) : file.size = file.data.toList.length := by simp

namespace Frame

theorem length_encode (c : Commit) : (encode c).length = 8 + (Binary.commit c).length := by
  simp only [encode, List.length_append, Binary.length_nat]
  omega

theorem word_eq {file : ByteArray} {pos n : Nat} {rest : List UInt8}
    (h : file.data.toList.drop pos = Binary.nat 4 n ++ rest) (hn : n < 2 ^ 32) :
    word file pos = n := by
  rw [word, toList_extract, h, List.take_left' (Binary.length_nat 4 n)]
  exact Binary.toNat_nat_of_lt hn

variable {file : ByteArray} {pos : Nat} {c : Commit} {rest : List UInt8}

theorem read_encode (h : file.data.toList.drop pos = encode c ++ rest) (hc : c.Readable) :
    read file pos = .commit c (Binary.commit c).length := by
  have hle := hc.length
  have most : mostBytes < 2 ^ 32 := by decide
  have size : pos + (8 + (Binary.commit c).length + rest.length) = file.size := by
    have := congrArg List.length h
    rw [List.length_drop, List.length_append, length_encode, ← size_eq_length] at this
    omega
  have parts : file.data.toList.drop pos = Binary.nat 4 (Binary.commit c).length ++
      (Binary.commit c ++ (Binary.nat 4 (Crc32.ofList (Binary.commit c)).toNat ++ rest)) := by
    rw [h, encode]
    simp only [List.append_assoc]
  have payload : file.data.toList.drop (pos + 4) =
      Binary.commit c ++ (Binary.nat 4 (Crc32.ofList (Binary.commit c)).toNat ++ rest) := by
    rw [← List.drop_drop, parts, List.drop_left' (Binary.length_nat _ _)]
  have sum : file.data.toList.drop (pos + 4 + (Binary.commit c).length) =
      Binary.nat 4 (Crc32.ofList (Binary.commit c)).toNat ++ rest := by
    rw [← List.drop_drop, payload, List.drop_left' rfl]
  have bytes : (file.extract (pos + 4) (pos + 4 + (Binary.commit c).length)).data.toList =
      Binary.commit c := by
    rw [toList_extract, payload, List.take_left' rfl]
  have length := word_eq parts (by omega)
  have check := word_eq sum (UInt32.toNat_lt _)
  simp only [read, length, check, Crc32.ofBytes_eq_ofList, bytes, Binary.commit?_commit hc.fits]
  rw [if_neg (by omega), if_neg (by omega), if_neg (by omega), if_neg (by omega)]
  simp

theorem read_end (h : file.size ≤ pos) : read file pos = .none := by
  simp [read, h]

end Frame

namespace Replay

theorem afterwards_of_ok {file : ByteArray} {r : Replay} (h : ofFile file = .ok r) :
    afterwards file = r.rest file := by
  rw [afterwards, h]

theorem afterwards_of_error {file : ByteArray} {fault : Fault} (h : ofFile file = .error fault) :
    afterwards file = file := by
  rw [afterwards, h]

theorem scan_frames {file : ByteArray} {pos index : Nat} {cs : List Commit} {rest : List UInt8}
    (h : file.data.toList.drop pos = cs.flatMap Frame.encode ++ rest)
    (hcs : ∀ c ∈ cs, c.Readable) :
    scan file pos index =
      (scan file (pos + (cs.flatMap Frame.encode).length) (index + cs.length)).map fun r =>
        { r with commits := cs ++ r.commits } := by
  have map_id (r : Except Fault Replay) : (r.map fun r => { r with commits := r.commits }) = r := by
    cases r <;> rfl
  induction cs generalizing pos index with
  | nil => exact (map_id _).symm
  | cons c cs ih =>
    rw [List.flatMap_cons, List.append_assoc] at h
    have head := Frame.read_encode h (hcs c List.mem_cons_self)
    have tail : file.data.toList.drop (pos + 8 + (Binary.commit c).length) =
        cs.flatMap Frame.encode ++ rest := by
      have length := Frame.length_encode c
      rw [Nat.add_assoc, ← length, ← List.drop_drop, h, List.drop_left' rfl]
    rw [scan, head]
    simp only [ih tail fun c' hc' => hcs c' (List.mem_cons_of_mem _ hc')]
    rw [List.flatMap_cons, List.length_append, Frame.length_encode, List.length_cons,
      ← Nat.add_assoc, ← Nat.add_assoc, Nat.add_right_comm index, Nat.add_assoc index]
    cases scan file (pos + 8 + (Binary.commit c).length + (cs.flatMap Frame.encode).length)
      (index + (cs.length + 1)) <;> rfl

theorem ofFile_fileOf {cs : List Commit} (hcs : ∀ c ∈ cs, c.Readable) :
    ofFile (LogWriter.fileOf cs) = .ok ⟨cs, (LogWriter.fileOf cs).size⟩ := by
  have bytes : (LogWriter.fileOf cs).data.toList = cs.flatMap Frame.encode := rfl
  have size : (cs.flatMap Frame.encode).length = (LogWriter.fileOf cs).size := by
    rw [size_eq_length, bytes]
  rw [ofFile, scan_frames (by rw [bytes, List.drop_zero, List.append_nil]) hcs,
    Nat.zero_add, size, scan, Frame.read_end (Nat.le_refl _)]
  simp [Except.map]

end Replay

/-! ### Appending -/

namespace LogWriter

def total (w : LogWriter) (file : ByteArray) : List UInt8 :=
  file.data.toList ++ w.buffer.data.toList

theorem total_put (w : LogWriter) (file bytes : ByteArray) :
    (w.put file bytes).1.total (w.put file bytes).2 = w.total file ++ bytes.data.toList := by
  by_cases fits : capacity < w.buffer.size + bytes.size
  · by_cases large : capacity ≤ bytes.size <;> simp [put, total, fits, large]
  · by_cases large : capacity ≤ bytes.size
    · -- What is as large as the buffer fits only where the buffer is empty.
      have empty : w.buffer.data.toList = [] := by
        apply List.eq_nil_of_length_eq_zero
        rw [← size_eq_length]
        omega
      simp [put, total, fits, large, empty]
    · simp [put, total, fits, large]

theorem total_append (w : LogWriter) (file : ByteArray) (c : Commit) :
    (w.append file c).1.total (w.append file c).2 = w.total file ++ Frame.encode c := by
  simp only [append]
  change LogWriter.total (LogWriter.put _ _ _).1 (LogWriter.put _ _ _).2 = _
  rw [total_put, total_put, total_put]
  simp [Frame.encode]

theorem isPrefix_put (w : LogWriter) (file bytes : ByteArray) :
    file.data.toList <+: (w.put file bytes).2.data.toList := by
  by_cases fits : capacity < w.buffer.size + bytes.size <;>
    by_cases large : capacity ≤ bytes.size <;> simp [put, fits, large]

theorem isPrefix_append (w : LogWriter) (file : ByteArray) (c : Commit) :
    file.data.toList <+: (w.append file c).2.data.toList := by
  simp only [append]
  exact (isPrefix_put w file _).trans ((isPrefix_put _ _ _).trans (isPrefix_put _ _ _))

theorem total_flush (w : LogWriter) (file : ByteArray) :
    (w.flush file).1.buffer = .empty ∧ (w.flush file).2.data.toList = w.total file := by
  simp [flush, total]

end LogWriter

namespace LogFile

/-- The file holds these commits, and its writer holds nothing back. -/
structure Holds (f : LogFile) (cs : List Commit) : Prop where
  bytes : f.bytes = LogWriter.fileOf cs
  buffer : f.writer.buffer = .empty

variable {f : LogFile} {cs : List Commit}

theorem ext_toList {a b : ByteArray} (h : a.data.toList = b.data.toList) : a = b := by
  cases a with
  | mk a =>
    cases b with
    | mk b => exact congrArg ByteArray.mk (Array.toList_inj.1 h)

theorem Holds.opened (obstructed : Bool) (cs : List Commit) :
    (LogFile.opened obstructed (LogWriter.fileOf cs)).Holds cs := ⟨rfl, rfl⟩

theorem total_foldl_append (f : LogFile) (ds : List Commit) :
    (ds.foldl append f).writer.total (ds.foldl append f).bytes =
      f.writer.total f.bytes ++ ds.flatMap Frame.encode := by
  induction ds generalizing f with
  | nil => simp
  | cons d ds ih =>
    have one := LogWriter.total_append f.writer f.bytes d
    rw [List.foldl_cons, ih, List.flatMap_cons, ← List.append_assoc]
    exact congrArg (· ++ _) one

theorem isPrefix_foldl_append (f : LogFile) (ds : List Commit) :
    f.bytes.data.toList <+: (ds.foldl append f).bytes.data.toList := by
  induction ds generalizing f with
  | nil => exact List.prefix_refl _
  | cons d ds ih => exact (LogWriter.isPrefix_append f.writer f.bytes d).trans (ih (f.append d))

theorem Holds.writeBatch (h : f.Holds cs) (ds : List Commit) :
    (f.writeBatch ds).Holds (cs ++ ds) := by
  obtain ⟨buffer, bytes⟩ :=
    LogWriter.total_flush (ds.foldl LogFile.append f).writer (ds.foldl LogFile.append f).bytes
  refine ⟨ext_toList ?_, buffer⟩
  have before : f.writer.total f.bytes = cs.flatMap Frame.encode := by
    rw [LogWriter.total, h.buffer, h.bytes]
    simp [LogWriter.fileOf]
  calc (f.writeBatch ds).bytes.data.toList
      = (ds.foldl LogFile.append f).writer.total (ds.foldl LogFile.append f).bytes := bytes
    _ = cs.flatMap Frame.encode ++ ds.flatMap Frame.encode := by rw [total_foldl_append, before]
    _ = (LogWriter.fileOf (cs ++ ds)).data.toList := by simp [LogWriter.fileOf]

theorem Holds.append (h : f.Holds cs) (c : Commit) : (f.append c).flush.Holds (cs ++ [c]) :=
  h.writeBatch [c]

end LogFile

end Carpark
