import Carpark.Caller
import Carpark.Failure

/-!
Who may do what.
-/

namespace Carpark

def Context.requirePrivileged (ctx : Context) : Except Failure Unit :=
  if ctx.caller.isPrivileged then .ok ()
  else .error (.forbidden "registry changes require an admin")

namespace Reservation

def requireOwner (r : Reservation) (caller : Caller) : Except Failure Unit :=
  if caller.isPrivileged || (r.client.isSome && r.client = caller.client?) then .ok ()
  else .error (.notOwner r.id)

/-- A code that is given must be right. Only the owner ends a client's stay. -/
def authorizeExit (r : Reservation) (caller : Caller) (code : Option String) :
    Except Failure Unit :=
  if code.isSome && code ≠ r.code then .error (.codeMismatch r.id)
  else if r.client.isSome then r.requireOwner caller
  else if code.isSome || caller.isPrivileged then .ok ()
  else .error (.codeMismatch r.id)

def isVisibleTo (r : Reservation) (caller : Caller) : Bool :=
  caller.isPrivileged || (r.client.isSome && r.client = caller.client?)

end Reservation

def requireVersion (entity : Entity) (id : Ulid) (expected actual : Version) :
    Except Failure Unit :=
  if expected = actual then .ok ()
  else .error (.versionMismatch entity id (some expected) (some actual))

end Carpark
