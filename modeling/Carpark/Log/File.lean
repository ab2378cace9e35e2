import Carpark.Log.Writer

/-!
A log file in use, and the commands that its one writer carries out. Commands come through a
queue. Appends that stand together in it are written as one batch and flushed once; `execute`
carries out a command alone, with a flush of its own.
-/

namespace Carpark

structure LogFile where
  bytes : ByteArray
  writer : LogWriter
  /-- Something stands where a new version of the file is written first. -/
  obstructed : Bool

inductive LogCommand
  | append (c : Commit)
  | replace (commits : List Commit)
  | count
  deriving DecidableEq, Repr

inductive LogAnswer
  | done
  | refused (reason : String)
  | counted (n : Nat)
  deriving DecidableEq, Repr

namespace LogFile

def opened (obstructed : Bool) (bytes : ByteArray) : LogFile := ⟨bytes, .fresh, obstructed⟩

def append (f : LogFile) (c : Commit) : LogFile :=
  let (writer, bytes) := f.writer.append f.bytes c
  { f with writer, bytes }

def flush (f : LogFile) : LogFile :=
  let (writer, bytes) := f.writer.flush f.bytes
  { f with writer, bytes }

def obstructionMessage : String := "Is a directory (os error 21)"

/-- The new file is complete before it takes the place of the old one. -/
def replace (f : LogFile) (commits : List Commit) : LogAnswer × LogFile :=
  if f.obstructed then (.refused obstructionMessage, f)
  else (.done, .opened f.obstructed (LogWriter.fileOf commits))

def execute (f : LogFile) : LogCommand → LogAnswer × LogFile
  | .append c => (.done, (f.append c).flush)
  | .replace commits => f.replace commits
  | .count => (.counted f.writer.appends, f)

/-! ### Batches -/

def writeBatch (f : LogFile) (commits : List Commit) : LogFile := (commits.foldl append f).flush

def batch : List LogCommand → List Commit × List LogCommand
  | .append c :: rest => let (cs, rest) := batch rest; (c :: cs, rest)
  | rest => ([], rest)

theorem length_batch_le (queue : List LogCommand) : (batch queue).2.length ≤ queue.length := by
  fun_induction batch queue with
  | case1 c rest cs rest' h ih => simp only [h, List.length_cons] at ih ⊢; omega
  | case2 => exact Nat.le_refl _

def serve (f : LogFile) : List LogCommand → List LogAnswer × LogFile
  | [] => ([], f)
  | .append c :: rest =>
    let taken := batch rest
    let (answers, f) := (f.writeBatch (c :: taken.1)).serve taken.2
    ((c :: taken.1).map (fun _ => .done) ++ answers, f)
  | command :: rest =>
    let (answer, f) := f.execute command
    let (answers, f) := f.serve rest
    (answer :: answers, f)
termination_by queue => queue.length
decreasing_by
  · exact Nat.lt_succ_of_le (length_batch_le rest)
  · simp

end LogFile

end Carpark
