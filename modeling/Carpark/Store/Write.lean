import Carpark.Reservation

/-!
Changes to the tables, and the commits that bundle them.
-/

namespace Carpark

inductive Write
  | putParking (row : Parking)
  | deleteParking (id : Ulid)
  | putSector (row : Sector)
  | deleteSector (id : Ulid)
  | putReservation (row : Reservation)
  | appendEvent (event : GateEvent)
  deriving DecidableEq, Repr

abbrev Commit := List Write

def Write.isEvent : Write → Bool
  | .appendEvent _ => true
  | _ => false

def Commit.ordered (c : Commit) : Commit := c.filter Write.isEvent ++ c.filter (!·.isEvent)

end Carpark
