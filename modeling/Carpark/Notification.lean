import Carpark.Journal
import Carpark.Time
import Carpark.Ulid

/-!
What a client is told about its reservations, and the services that deliver it.
-/

namespace Carpark

inductive Notification
  | reservationCreated (reservation sector : Ulid) (start stop : Ms)
  | reservationCancelled (reservation : Ulid)
  | reservationExpired (reservation : Ulid)
  | forcedExit (reservation sector : Ulid) (time : Ms)
  deriving DecidableEq, Repr

namespace Notification

def typeName : Notification → String
  | .reservationCreated .. => "reservation_created"
  | .reservationCancelled _ => "reservation_cancelled"
  | .reservationExpired _ => "reservation_expired"
  | .forcedExit .. => "forced_exit"

def members : Notification → List (String × String)
  | .reservationCreated r s b e =>
    [("reservation_id", quote r), ("sector_id", quote s), ("begin", toString b),
      ("end", toString e)]
  | .reservationCancelled r | .reservationExpired r => [("reservation_id", quote r)]
  | .forcedExit r s t =>
    [("reservation_id", quote r), ("sector_id", quote s), ("at", toString t)]
where
  quote (u : Ulid) : String := "\"" ++ u.text ++ "\""

def json (n : Notification) : String :=
  let all := ("type", "\"" ++ n.typeName ++ "\"") :: n.members
  "\x7b" ++ ",".intercalate (all.map fun m => "\"" ++ m.1 ++ "\":" ++ m.2) ++ "\x7d"

end Notification

/-- A delivery service. It may refuse a notification, and it may write to the log. -/
structure Notifier where
  refusal : Ulid → Notification → Option String
  lines : Ulid → Notification → List LogLine

namespace Notifier

def silent : Notifier := ⟨fun _ _ => none, fun _ _ => []⟩

def logLine (client : Ulid) (n : Notification) : LogLine :=
  { level := .info, message := "notify " ++ n.json, fields := [("client_id", client.text)] }

def toLog : Notifier := ⟨fun _ _ => none, fun client n => [logLine client n]⟩

def refusalMessage (reason : String) : String := "notification failed: " ++ reason

end Notifier

end Carpark
