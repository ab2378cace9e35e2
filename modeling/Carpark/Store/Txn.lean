import Carpark.Store.Tables

/-!
Transactions: staged changes, each with the row version it was computed from. A transaction
takes effect only if all of those versions are still the current ones and each address that it
claims is free or already its own.
-/

namespace Carpark

inductive Change
  | insertParking (row : Parking)
  | updateParking (row : Parking)
  | deleteParking (row : Parking)
  | insertSector (row : Sector)
  | updateSector (row : Sector)
  | deleteSector (row : Sector)
  | insertReservation (row : Reservation)
  | updateReservation (row : Reservation)
  | appendEvent (event : GateEvent)
  | claimAddress (key : String) (owner : Ulid)
  deriving DecidableEq, Repr

namespace Change

def expects? : Change → Option (RowKey × Option Version)
  | .insertParking p => some (.parking p.id, none)
  | .updateParking p | .deleteParking p => some (.parking p.id, some p.version)
  | .insertSector s => some (.sector s.id, none)
  | .updateSector s | .deleteSector s => some (.sector s.id, some s.version)
  | .insertReservation r => some (.reservation r.id, none)
  | .updateReservation r => some (.reservation r.id, some r.version)
  | .appendEvent _ | .claimAddress .. => none

def write? : Change → Option Write
  | .insertParking p => some (.putParking { p with version := 1 })
  | .updateParking p => some (.putParking { p with version := p.version + 1 })
  | .deleteParking p => some (.deleteParking p.id)
  | .insertSector s => some (.putSector { s with version := 1 })
  | .updateSector s => some (.putSector { s with version := s.version + 1 })
  | .deleteSector s => some (.deleteSector s.id)
  | .insertReservation r => some (.putReservation { r with version := 1 })
  | .updateReservation r => some (.putReservation { r with version := r.version + 1 })
  | .appendEvent e => some (.appendEvent e)
  | .claimAddress .. => none

def claims? : Change → Option (String × Ulid)
  | .claimAddress key owner => some (key, owner)
  | _ => none

end Change

abbrev Txn := List Change

namespace Txn

def expects (t : Txn) : List (RowKey × Option Version) := t.filterMap Change.expects?

def claims (t : Txn) : List (String × Ulid) := t.filterMap Change.claims?

def writes (t : Txn) : Commit := t.filterMap Change.write?

def isEmpty (t : Txn) : Bool := t.writes.isEmpty

def lockKeys (t : Txn) : List RowKey :=
  let keys := t.expects.map Prod.fst ++ t.claims.map fun c => RowKey.address c.1
  (keys.mergeSort RowKey.le).eraseDups

end Txn

namespace Tables

def staleRow? (t : Tables) (txn : Txn) : Option CommitError :=
  txn.expects.findSome? fun (key, expected) =>
    if t.version? key = expected then none
    else some (.versionMismatch key expected (t.version? key))

def takenAddress? (t : Tables) (txn : Txn) : Option CommitError :=
  txn.claims.findSome? fun (key, owner) =>
    if (t.addresses.get? key).all (· = owner) then none else some (.addressTaken key)

def refusal? (t : Tables) (txn : Txn) : Option CommitError :=
  (t.staleRow? txn).or (t.takenAddress? txn)

end Tables

end Carpark
