import Carpark.Parking

/-!
The choice of a sector for a car without a booking.
-/

namespace Carpark

/-- Strictly better: of two equals neither beats the other. The ratios of occupied places to
weight are compared crosswise, which keeps them exact. -/
def Policy.beats : Policy → Sector → Sector → Bool
  | .leastOccupied, a, b => a.occupied < b.occupied
  | .mostOccupied, a, b => b.occupied < a.occupied
  | .leastOccupiedWeighted, a, b => a.occupied * b.weight < b.occupied * a.weight

def Sector.canTake (now : Ms) (s : Sector) : Bool := s.isActiveAt now && 0 < s.availablePlaces

/-- Only sectors that can take a car compete, and among the best the first one wins. -/
def Policy.choose (p : Policy) (now : Ms) (sectors : List Sector) : Option Sector :=
  (sectors.filter (·.canTake now)).foldl
    (fun best s =>
      match best with
      | none => some s
      | some b => if p.beats s b then some s else some b)
    none

end Carpark
