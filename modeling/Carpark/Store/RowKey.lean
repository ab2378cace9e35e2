import Carpark.Parking
import Carpark.Text.Quoted

/-!
The things a commit can be refused over, and the refusals.
-/

namespace Carpark

inductive RowKey
  | parking (id : Ulid)
  | sector (id : Ulid)
  | reservation (id : Ulid)
  | address (key : String)
  deriving DecidableEq, Repr

namespace RowKey

/-- The order in which a commit takes its locks: by kind, then by identifier or address. -/
def le : RowKey → RowKey → Bool
  | .parking a, .parking b | .sector a, .sector b | .reservation a, .reservation b => a.val ≤ b.val
  | .address a, .address b => a ≤ b
  | .parking _, _ => true
  | .sector _, .reservation _ | .sector _, .address _ | .reservation _, .address _ => true
  | _, _ => false

def text : RowKey → String
  | .parking id => "Parking(Ulid(" ++ toString id.val ++ "))"
  | .sector id => "Sector(Ulid(" ++ toString id.val ++ "))"
  | .reservation id => "Reservation(Ulid(" ++ toString id.val ++ "))"
  | .address key => "Address(" ++ Text.quoted key ++ ")"

end RowKey

def Version.describe : Option Version → String
  | some v => "Some(" ++ toString v ++ ")"
  | none => "None"

inductive CommitError
  | versionMismatch (key : RowKey) (expected actual : Option Version)
  | addressTaken (key : String)
  | log (reason : String)
  deriving DecidableEq, Repr

def CommitError.message : CommitError → String
  | .versionMismatch key expected actual =>
    "version mismatch on " ++ key.text ++ ": expected " ++ Version.describe expected ++
      ", found " ++ Version.describe actual
  | .addressTaken key => "address already registered: " ++ key
  | .log reason => "WAL error: " ++ reason

end Carpark
