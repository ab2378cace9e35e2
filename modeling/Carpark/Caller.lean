import Carpark.Time
import Carpark.Ulid

/-!
Who asks for an operation, and when.
-/

namespace Carpark

inductive Caller
  | client (id : Ulid)
  | admin (id : Ulid)
  | anonymous
  | system
  deriving DecidableEq, Repr

namespace Caller

def client? : Caller → Option Ulid
  | .client id | .admin id => some id
  | .anonymous | .system => none

def isPrivileged : Caller → Bool
  | .admin _ | .system => true
  | .client _ | .anonymous => false

end Caller

structure Context where
  caller : Caller
  now : Ms
  deriving DecidableEq, Repr

end Carpark
