import Carpark.Store.RowKey
import Carpark.Store.Table
import Carpark.Store.Write

/-!
The tables, their indexes, and how a commit changes them. A commit is applied one table write at
a time: its gate events first, then its rows in order, so whoever sees a row at a version also
sees the events that came with it.
-/

namespace Carpark

structure Tables where
  parkings : Table Ulid Parking
  sectors : Table Ulid Sector
  reservations : Table Ulid Reservation
  events : Table Ulid (List GateEvent)
  addresses : Table String Ulid
  bySector : Table Ulid (List Ulid)
  byClient : Table Ulid (List Ulid)

namespace Tables

def empty : Tables := ⟨.empty, .empty, .empty, .empty, .empty, .empty, .empty⟩

/-! ### Reading -/

def eventsOf (t : Tables) (reservation : Ulid) : List GateEvent := t.events.getList reservation

def sectorsOf (t : Tables) (p : Parking) : List Sector := p.sectors.filterMap t.sectors.get?

def reservationsOfSector (t : Tables) (sector : Ulid) : List Reservation :=
  (t.bySector.getList sector).filterMap t.reservations.get?

def reservationsOfClient (t : Tables) (client : Ulid) : List Reservation :=
  (t.byClient.getList client).filterMap t.reservations.get?

def hasHistory (t : Tables) (sector : Ulid) : Bool := !(t.bySector.getList sector).isEmpty

def version? (t : Tables) : RowKey → Option Version
  | .parking id => (t.parkings.get? id).map (·.version)
  | .sector id => (t.sectors.get? id).map (·.version)
  | .reservation id => (t.reservations.get? id).map (·.version)
  | .address _ => none

/-! ### Writing -/

def addEvent (t : Tables) (e : GateEvent) : Tables :=
  { t with events := t.events.push e.reservation e }

def putParking (t : Tables) (p : Parking) : Tables :=
  let key := p.address.key
  let addresses :=
    match t.parkings.get? p.id with
    | some old => if old.address.key = key then t.addresses else t.addresses.erase old.address.key
    | none => t.addresses
  { t with addresses := addresses.insert key p.id, parkings := t.parkings.insert p.id p }

def deleteParking (t : Tables) (id : Ulid) : Tables :=
  match t.parkings.get? id with
  | some old =>
    { t with parkings := t.parkings.erase id, addresses := t.addresses.erase old.address.key }
  | none => t

def putSector (t : Tables) (s : Sector) : Tables := { t with sectors := t.sectors.insert s.id s }

def deleteSector (t : Tables) (id : Ulid) : Tables :=
  { t with sectors := t.sectors.erase id, bySector := t.bySector.erase id }

def putReservation (t : Tables) (r : Reservation) : Tables :=
  let t' := { t with reservations := t.reservations.insert r.id r }
  if (t.reservations.get? r.id).isSome then t'
  else
    { t' with
      bySector := t.bySector.push r.sector r.id
      byClient := match r.client with
        | some c => t.byClient.push c r.id
        | none => t.byClient }

def write (t : Tables) : Write → Tables
  | .putParking p => t.putParking p
  | .deleteParking id => t.deleteParking id
  | .putSector s => t.putSector s
  | .deleteSector id => t.deleteSector id
  | .putReservation r => t.putReservation r
  | .appendEvent e => t.addEvent e

def apply (t : Tables) (c : Commit) : Tables := c.ordered.foldl write t

def ofCommits (cs : List Commit) : Tables := cs.foldl apply empty

/-! ### The shortest log -/

def snapshot (t : Tables) : List Commit :=
  (t.parkings.values.map fun p => .putParking p :: (t.sectorsOf p).map .putSector) ++
    t.reservations.values.map fun r => .putReservation r :: (t.eventsOf r.id).map .appendEvent

end Tables

end Carpark
