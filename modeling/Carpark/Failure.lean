import Carpark.Reservation
import Carpark.Store.RowKey

/-!
Why an operation fails, in kinds that a caller can tell apart and in words.
-/

namespace Carpark

inductive Entity
  | parking
  | sector
  | reservation
  deriving DecidableEq, Repr

def Entity.name : Entity → String
  | .parking => "parking"
  | .sector => "sector"
  | .reservation => "reservation"

inductive FailureKind
  | notFound
  | conflict
  | statusViolation
  | timeViolation
  | ownershipViolation
  | validation
  | internal
  deriving DecidableEq, Repr

def FailureKind.name : FailureKind → String
  | .notFound => "not_found"
  | .conflict => "conflict"
  | .statusViolation => "status_violation"
  | .timeViolation => "time_violation"
  | .ownershipViolation => "ownership_violation"
  | .validation => "validation"
  | .internal => "internal"

structure Violation where
  field : String
  message : String
  deriving DecidableEq, Repr

inductive Failure
  | notFound (entity : Entity) (id : Ulid)
  | addressTaken (key : String)
  | sectorNameTaken (name : String)
  | sectorAlreadyActive (sector : Ulid)
  | sectorAlreadyInactive (sector : Ulid)
  | sectorInactive (sector : Ulid)
  | sectorFrozen (sector : Ulid)
  | occupancyAboveMaxPlaces (sector : Ulid) (occupied : Nat)
  | hasReservationHistory (entity : Entity) (id : Ulid)
  | capacityExhausted (sector : Ulid)
  | cannotEnterParking (parking : Ulid)
  | versionMismatch (entity : Entity) (id : Ulid) (expected actual : Option Version)
  | invalidStatus (reservation : Ulid) (status : Status) (action : String)
  | alreadyEntered (reservation : Ulid)
  | alreadyOccupying (reservation : Ulid)
  | notOccupying (reservation : Ulid)
  | invalidTimeframe
  | durationExceeded (most : Ms)
  | beginInPast
  | reservationNotStarted (reservation : Ulid)
  | reservationExpired (reservation : Ulid)
  | deactivationInPast
  | notOwner (reservation : Ulid)
  | codeMismatch (reservation : Ulid)
  | forbidden (reason : String)
  | invalid (violations : List Violation)
  | limitExceeded (reason : String)
  | capacityOverflow (sector : Ulid)
  | log (reason : String)
  deriving DecidableEq, Repr

namespace Failure

def kind : Failure → FailureKind
  | .notFound .. => .notFound
  | .addressTaken _ | .sectorNameTaken _ | .sectorAlreadyActive _ | .sectorAlreadyInactive _
  | .sectorInactive _ | .sectorFrozen _ | .occupancyAboveMaxPlaces .. | .hasReservationHistory ..
  | .capacityExhausted _ | .cannotEnterParking _ | .versionMismatch .. => .conflict
  | .invalidStatus .. | .alreadyEntered _ | .alreadyOccupying _ | .notOccupying _ =>
    .statusViolation
  | .invalidTimeframe | .durationExceeded _ | .beginInPast | .reservationNotStarted _
  | .reservationExpired _ | .deactivationInPast => .timeViolation
  | .notOwner _ | .codeMismatch _ | .forbidden _ => .ownershipViolation
  | .invalid _ | .limitExceeded _ => .validation
  | .capacityOverflow _ | .log _ => .internal

def violations : Failure → List Violation
  | .invalid vs => vs
  | _ => []

def message : Failure → String
  | .notFound entity id => entity.name ++ " not found: " ++ id.text
  | .addressTaken key => "a parking already exists at " ++ key
  | .sectorNameTaken name => "sector name " ++ name ++ " already used in this parking"
  | .sectorAlreadyActive id => "sector " ++ id.text ++ " is already active"
  | .sectorAlreadyInactive id => "sector " ++ id.text ++ " is already inactive"
  | .sectorInactive id => "sector " ++ id.text ++ " is not accepting reservations"
  | .sectorFrozen id => "cannot change type or max places of active sector " ++ id.text
  | .occupancyAboveMaxPlaces id occupied =>
    "sector " ++ id.text ++ " has " ++ toString occupied ++
      " occupied places, above the new maximum"
  | .hasReservationHistory entity id =>
    "cannot delete " ++ entity.name ++ " " ++ id.text ++ ": it has reservation history"
  | .capacityExhausted id => "no free places in sector " ++ id.text
  | .cannotEnterParking id => "no sector of parking " ++ id.text ++ " can take a car"
  | .versionMismatch entity id expected actual =>
    entity.name ++ " " ++ id.text ++ " was modified concurrently (expected version " ++
      Version.describe expected ++ ", found " ++ Version.describe actual ++ ")"
  | .invalidStatus id status action =>
    "cannot " ++ action ++ " reservation " ++ id.text ++ " in status " ++ toString status
  | .alreadyEntered id => "reservation " ++ id.text ++ " has already been used to enter"
  | .alreadyOccupying id => "reservation " ++ id.text ++ " is already inside the parking"
  | .notOccupying id => "reservation " ++ id.text ++ " is not inside the parking"
  | .invalidTimeframe => "reservation must begin before it ends"
  | .durationExceeded most => "reservation longer than " ++ toString most ++ " ms"
  | .beginInPast => "reservation cannot begin in the past"
  | .reservationNotStarted id => "reservation " ++ id.text ++ " has not started yet"
  | .reservationExpired id => "reservation " ++ id.text ++ " has expired"
  | .deactivationInPast => "deactivation time cannot be in the past"
  | .notOwner id => "reservation " ++ id.text ++ " belongs to another client"
  | .codeMismatch id => "wrong allocation code for reservation " ++ id.text
  | .forbidden reason => "forbidden: " ++ reason
  | .invalid vs =>
    "invalid request:" ++ String.join (vs.map fun v => " " ++ v.field ++ ": " ++ v.message ++ ";")
  | .limitExceeded reason => "limit exceeded: " ++ reason
  | .capacityOverflow id => "sector " ++ id.text ++ " would exceed its max places on release"
  | .log reason => "WAL error: " ++ reason

/-- A race for a sector or a reservation that is still there was lost: trying again may help. -/
def isRowContention : Failure → Bool
  | .versionMismatch .sector _ _ (some _) | .versionMismatch .reservation _ _ (some _) => true
  | _ => false

def ofCommit : CommitError → Failure
  | .versionMismatch (.parking id) expected actual => .versionMismatch .parking id expected actual
  | .versionMismatch (.sector id) expected actual => .versionMismatch .sector id expected actual
  | .versionMismatch (.reservation id) expected actual =>
    .versionMismatch .reservation id expected actual
  | .versionMismatch (.address key) _ _ => .addressTaken key
  | .addressTaken key => .addressTaken key
  | .log reason => .log reason

end Failure

end Carpark
