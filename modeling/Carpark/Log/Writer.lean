import Carpark.Log.Frame

/-!
Appending to a log file through a buffer, and replacing the file as a whole.
-/

namespace Carpark

/-- What one writer holds. Its bytes are not in the file before they are flushed. -/
structure LogWriter where
  buffer : ByteArray
  appends : Nat

namespace LogWriter

def capacity : Nat := 8 * 1024

def fresh : LogWriter := ⟨.empty, 0⟩

/-- Bytes that do not fit send the buffer to the file first, and what is as large as the buffer
goes straight to the file. -/
def put (w : LogWriter) (file bytes : ByteArray) : LogWriter × ByteArray :=
  let (w, file) :=
    if capacity < w.buffer.size + bytes.size then ({ w with buffer := .empty }, file ++ w.buffer)
    else (w, file)
  if capacity ≤ bytes.size then (w, file ++ bytes)
  else ({ w with buffer := w.buffer ++ bytes }, file)

def append (w : LogWriter) (file : ByteArray) (c : Commit) : LogWriter × ByteArray :=
  let payload := Binary.commit c
  let (w, file) := w.put file ⟨(Binary.nat 4 payload.length).toArray⟩
  let (w, file) := w.put file ⟨payload.toArray⟩
  let (w, file) := w.put file ⟨(Binary.nat 4 (Crc32.ofList payload).toNat).toArray⟩
  ({ w with appends := w.appends + 1 }, file)

def flush (w : LogWriter) (file : ByteArray) : LogWriter × ByteArray :=
  ({ w with buffer := .empty }, file ++ w.buffer)

def fileOf (commits : List Commit) : ByteArray := ⟨(commits.flatMap Frame.encode).toArray⟩

end LogWriter

end Carpark
