import Carpark.Journal
import Carpark.Log.Frame

/-!
Reading a log file from its start. A torn last frame is given up and cut off; any other fault
stops the reading, and the file stays as it is.
-/

namespace Carpark

structure Replay where
  commits : List Commit
  kept : Nat
  deriving DecidableEq, Repr

namespace Replay

structure Fault where
  cause : Frame.Fault
  frame : Nat
  byte : Nat
  deriving DecidableEq, Repr

def Fault.message (path : String) (f : Fault) : String :=
  "wal " ++ path ++ ": " ++ f.cause.message ++ " in frame " ++ toString f.frame ++ " at byte " ++
    toString f.byte

def scan (file : ByteArray) (pos index : Nat) : Except Fault Replay :=
  match _h : Frame.read file pos with
  | .none | .torn => .ok ⟨[], pos⟩
  | .faulty cause => .error ⟨cause, index, pos⟩
  | .commit c length =>
    (scan file (pos + 8 + length) (index + 1)).map fun r => { r with commits := c :: r.commits }
termination_by file.size - pos
decreasing_by
  have := Frame.le_size_of_read _h
  omega

def ofFile (file : ByteArray) : Except Fault Replay := scan file 0 0

/-- The file after a replay: what could be read of it. -/
def rest (r : Replay) (file : ByteArray) : ByteArray := file.extract 0 r.kept

/-- The file after it has been read. One that cannot be read is left as it is. -/
def afterwards (file : ByteArray) : ByteArray :=
  match ofFile file with
  | .ok r => r.rest file
  | .error _ => file

def lines (path : String) (r : Replay) (size : Nat) : List LogLine :=
  if r.kept < size then
    [.warn ("wal " ++ path ++ ": discarded torn tail of " ++ toString (size - r.kept) ++
      " bytes after " ++ toString r.commits.length ++ " commits")]
  else []

end Replay

end Carpark
