import Carpark.Address
import Carpark.Policy
import Carpark.Time
import Carpark.Ulid

/-!
Parkings and their sectors.
-/

namespace Carpark

abbrev Version := Nat

/-- `sectors` is in the order of creation, which is also the order in which ties are settled. -/
structure Parking where
  id : Ulid
  address : Address
  sectors : List Ulid
  policy : Policy
  version : Version
  deriving DecidableEq, Repr

inductive SectorKind
  | covered
  | uncovered
  | underground
  deriving DecidableEq, Repr

structure Sector where
  id : Ulid
  parking : Ulid
  name : String
  kind : SectorKind
  maxPlaces : Nat
  availablePlaces : Nat
  weight : Nat
  active : Bool
  /-- The instant, to come or past, from which the sector takes no more cars. -/
  deactivation : Option Ms
  version : Version
  deriving DecidableEq, Repr

namespace Sector

def occupied (s : Sector) : Nat := s.maxPlaces - s.availablePlaces

/-- The flag alone does not tell: it is cleared only some time after the deactivation. -/
def isActiveAt (s : Sector) (now : Ms) : Bool := s.active && s.deactivation.all (now < ·)

/-- Two capital letters, a dash and two digits, such as `AB-01`. -/
def isValidName (name : String) : Bool :=
  match name.toList with
  | [a, b, dash, d, e] => a.isUpper && b.isUpper && dash == '-' && d.isDigit && e.isDigit
  | _ => false

end Sector

end Carpark
