/-!
Lines of the service log, and their text.
-/

namespace Carpark

inductive Level
  | info
  | warn
  | error
  deriving DecidableEq, Repr

def Level.name : Level → String
  | .info => "INFO"
  | .warn => "WARN"
  | .error => "ERROR"

structure LogLine where
  level : Level
  message : String
  fields : List (String × String) := []
  deriving DecidableEq, Repr

namespace LogLine

def info (message : String) : LogLine := { level := .info, message }

def warn (message : String) : LogLine := { level := .warn, message }

def error (message : String) : LogLine := { level := .error, message }

instance : ToString LogLine := ⟨fun l =>
  " ".intercalate ([l.level.name, l.message] ++ l.fields.map fun f => f.1 ++ "=" ++ f.2)⟩

end LogLine

end Carpark
