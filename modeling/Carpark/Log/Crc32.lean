/-!
The checksum CRC-32 with the reflected polynomial `0xEDB88320`, over lists of bytes and over
arrays of bytes.
-/

namespace Carpark.Crc32

def shift (s : UInt32) : UInt32 := if s &&& 1 = 1 then (s >>> 1) ^^^ 0xEDB88320 else s >>> 1

def step (s : UInt32) (b : UInt8) : UInt32 :=
  shift <| shift <| shift <| shift <| shift <| shift <| shift <| shift (s ^^^ b.toUInt32)

def ofList (bytes : List UInt8) : UInt32 := ~~~ bytes.foldl step 0xFFFFFFFF

def run (bytes : ByteArray) (i : Nat) (s : UInt32) : UInt32 :=
  if h : i < bytes.size then run bytes (i + 1) (step s bytes[i]) else s
termination_by bytes.size - i

def ofBytes (bytes : ByteArray) : UInt32 := ~~~ run bytes 0 0xFFFFFFFF

theorem run_eq_foldl (bytes : ByteArray) (i : Nat) (s : UInt32) :
    run bytes i s = (bytes.data.toList.drop i).foldl step s := by
  fun_induction run bytes i s with
  | case1 i s h ih =>
    have h' : i < bytes.data.toList.length := by simpa using h
    rw [ih, List.drop_eq_getElem_cons h', List.foldl_cons]
    rfl
  | case2 i s h =>
    have h' : bytes.data.toList.length ≤ i := by simpa using Nat.not_lt.1 h
    rw [List.drop_eq_nil_of_le h', List.foldl_nil]

theorem ofBytes_eq_ofList (bytes : ByteArray) : ofBytes bytes = ofList bytes.data.toList := by
  simp [ofBytes, ofList, run_eq_foldl]

end Carpark.Crc32
