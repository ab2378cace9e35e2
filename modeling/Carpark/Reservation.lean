import Carpark.Parking

/-!
Reservations and the gate log. Whether a car is inside is never stored: it is read off the
status and the last gate event.
-/

namespace Carpark

inductive Status
  | created
  | cancelled
  | expired
  | ended
  deriving DecidableEq, Repr

namespace Status

/-- A terminal status is never left. -/
def isTerminal (s : Status) : Bool := s ≠ .created

instance : ToString Status := ⟨fun
  | .created => "CREATED"
  | .cancelled => "CANCELLED"
  | .expired => "EXPIRED"
  | .ended => "ENDED"⟩

end Status

structure Reservation where
  id : Ulid
  /-- Nobody for an anonymous stay, which is left with the allocation code alone. -/
  client : Option Ulid
  parking : Ulid
  sector : Ulid
  window : Span
  status : Status
  /-- False for a stay without a booking, which is recorded when the car drives in. -/
  booked : Bool
  code : Option String
  version : Version
  deriving DecidableEq, Repr

inductive GateKind
  | entry
  | exit
  deriving DecidableEq, Repr

structure GateEvent where
  id : Ulid
  reservation : Ulid
  time : Ms
  kind : GateKind
  /-- An exit that was assumed after an overstay, not seen at the gate. -/
  forced : Bool
  deriving DecidableEq, Repr

def isInside (events : List GateEvent) : Bool := events.getLast?.any (·.kind = .entry)

def hasEntered (events : List GateEvent) : Bool := events.any (·.kind = .entry)

def Reservation.isOccupying (r : Reservation) (events : List GateEvent) : Bool :=
  r.status = .created && isInside events

end Carpark
