import Carpark.Text.Blank
import Carpark.Text.Lowercase

/-!
Postal addresses, and the key by which two of them count as one place.
-/

namespace Carpark

structure Address where
  city : String
  zip : String
  street : String
  deriving DecidableEq, Repr

namespace Address

def normal (s : String) : String := Text.lowercase (Text.trim s)

def key (a : Address) : String := normal a.city ++ "|" ++ normal a.zip ++ "|" ++ normal a.street

instance : ToString Address := ⟨fun a => a.street ++ ", " ++ a.zip ++ " " ++ a.city⟩

end Address

end Carpark
