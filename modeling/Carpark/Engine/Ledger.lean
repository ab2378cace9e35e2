import Carpark.Allocation
import Carpark.Failure

/-!
The ledger of places: how a sector's row changes as cars come and go.
-/

namespace Carpark.Sector

def takePlace (s : Sector) (now : Ms) : Except Failure Sector :=
  if s.canTake now then .ok { s with availablePlaces := s.availablePlaces - 1 }
  else .error (.capacityExhausted s.id)

/-- A full ledger means that it disagrees with the gate log: that is reported, not covered up. -/
def freePlace (s : Sector) : Except Failure Sector :=
  if s.maxPlaces ≤ s.availablePlaces then .error (.capacityOverflow s.id)
  else .ok { s with availablePlaces := s.availablePlaces + 1 }

end Carpark.Sector
