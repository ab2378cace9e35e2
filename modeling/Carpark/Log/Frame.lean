import Carpark.Log.Binary
import Carpark.Log.Crc32

/-!
Frames of the log file: the length of a commit's binary form in four bytes, that form, and its
checksum in four bytes. `Frame.read` says what stands at a position of the file.
-/

namespace Carpark

/-- A frame that holds more than this is not read. -/
def Frame.mostBytes : Nat := 64 * 1024 * 1024

inductive Frame.Fault
  | oversized
  | checksum
  | undecodable
  deriving DecidableEq, Repr

def Frame.Fault.message : Frame.Fault → String
  | .oversized => "oversized frame"
  | .checksum => "checksum mismatch"
  | .undecodable => "undecodable payload"

inductive Frame
  | none
  | torn
  | faulty (fault : Frame.Fault)
  | commit (c : Commit) (length : Nat)
  deriving DecidableEq, Repr

namespace Frame

def encode (c : Commit) : List UInt8 :=
  let payload := Binary.commit c
  Binary.nat 4 payload.length ++ payload ++ Binary.nat 4 (Crc32.ofList payload).toNat

def word (file : ByteArray) (pos : Nat) : Nat :=
  Binary.toNat (file.extract pos (pos + 4)).data.toList

/-- A fault in the last frame is put down to a crash, but for a form that has its checksum right
and still cannot be decoded. -/
def read (file : ByteArray) (pos : Nat) : Frame :=
  if file.size ≤ pos then .none
  else if file.size < pos + 4 then .torn
  else
    let length := word file pos
    let stop := pos + 8 + length
    if file.size < stop then .torn
    else if mostBytes < length then if stop = file.size then .torn else .faulty .oversized
    else
      let payload := file.extract (pos + 4) (pos + 4 + length)
      if word file (pos + 4 + length) ≠ (Crc32.ofBytes payload).toNat then
        if stop = file.size then .torn else .faulty .checksum
      else
        match Binary.commit? payload.data.toList with
        | some c => .commit c length
        | Option.none => .faulty .undecodable

theorem le_size_of_read {file : ByteArray} {pos length : Nat} {c : Commit}
    (h : read file pos = .commit c length) : pos + 8 + length ≤ file.size := by
  unfold read at h
  split at h
  · cases h
  split at h
  · cases h
  dsimp only at h
  split at h
  · cases h
  next hle =>
    split at h
    · split at h <;> cases h
    split at h
    · split at h <;> cases h
    split at h
    · cases h; exact Nat.not_lt.1 hle
    · cases h

end Frame

end Carpark
