import Carpark.Text.Blank
import Carpark.Text.Lowercase

/-!
How a car without a booking is given a sector.
-/

namespace Carpark

inductive Policy
  | leastOccupied
  | mostOccupied
  | leastOccupiedWeighted
  deriving DecidableEq, Repr

namespace Policy

def all : List Policy := [.leastOccupied, .mostOccupied, .leastOccupiedWeighted]

def name : Policy → String
  | .leastOccupied => "least_occupied"
  | .mostOccupied => "most_occupied"
  | .leastOccupiedWeighted => "least_occupied_weighted"

def normal (s : String) : String :=
  String.ofList ((Text.asciiLowercase (Text.trim s)).toList.map fun c => if c = '-' then '_' else c)

def parse (s : String) : Except String Policy :=
  match all.find? (·.name = normal s) with
  | some p => .ok p
  | none => .error (normal s)

def unknownMessage (normalText : String) : String := "unknown allocation policy: " ++ normalText

theorem mem_all (p : Policy) : p ∈ all := by cases p <;> decide

end Policy

end Carpark
