/-!
Sets of characters given by ranges of code points, both ends included.
-/

namespace Carpark.Text

abbrev Ranges := List (Nat × Nat)

def Ranges.has (r : Ranges) (c : Char) : Bool := r.any fun e => e.1 ≤ c.toNat && c.toNat ≤ e.2

end Carpark.Text
