import Carpark.Failure
import Carpark.Store.Txn

/-!
Computations that read the tables, one row or index entry at a time, and draw new identifiers.
They change nothing. Between two reads the tables may have changed.
-/

namespace Carpark

inductive Query
  | parking (id : Ulid)
  | sector (id : Ulid)
  | reservation (id : Ulid)
  | events (reservation : Ulid)
  | ofSector (sector : Ulid)
  | ofClient (client : Ulid)
  | parkings
  | sectors
  | reservations

@[reducible] def Query.Answer : Query → Type
  | .parking _ => Option Parking
  | .sector _ => Option Sector
  | .reservation _ => Option Reservation
  | .events _ => List GateEvent
  | .ofSector _ | .ofClient _ => List Ulid
  | .parkings => List Parking
  | .sectors => List Sector
  | .reservations => List Reservation

def Tables.answer (t : Tables) : (q : Query) → q.Answer
  | .parking id => t.parkings.get? id
  | .sector id => t.sectors.get? id
  | .reservation id => t.reservations.get? id
  | .events id => t.eventsOf id
  | .ofSector id => t.bySector.getList id
  | .ofClient id => t.byClient.getList id
  | .parkings => t.parkings.values
  | .sectors => t.sectors.values
  | .reservations => t.reservations.values

inductive Reading (α : Type) : Type
  | done (a : α)
  | ask (q : Query) (k : q.Answer → Reading α)
  | draw (k : Ulid → Reading α)

namespace Reading

variable {α β : Type}

def bind (f : α → Reading β) : Reading α → Reading β
  | .done a => f a
  | .ask q k => .ask q fun r => (k r).bind f
  | .draw k => .draw fun u => (k u).bind f

instance : Monad Reading where
  pure := .done
  bind x f := x.bind f

def get (q : Query) : Reading q.Answer := .ask q .done

/-- The result where the tables stand still and the identifiers from number `n` on are drawn,
with the number of the next one. -/
def eval (t : Tables) (ids : Nat → Ulid) : Reading α → Nat → α × Nat
  | .done a, n => (a, n)
  | .ask q k, n => (k (t.answer q)).eval t ids n
  | .draw k, n => (k (ids n)).eval t ids (n + 1)

end Reading

abbrev Lookup := ExceptT Failure Reading

namespace Lookup

def ask (q : Query) : Lookup q.Answer := ExceptT.lift (.get q)

def draw : Lookup Ulid := ExceptT.lift (.draw .done)

def parking (id : Ulid) : Lookup Parking := do
  match ← ask (.parking id) with
  | some p => return p
  | none => throw (.notFound .parking id)

def sector (id : Ulid) : Lookup Sector := do
  match ← ask (.sector id) with
  | some s => return s
  | none => throw (.notFound .sector id)

def reservation (id : Ulid) : Lookup Reservation := do
  match ← ask (.reservation id) with
  | some r => return r
  | none => throw (.notFound .reservation id)

def events (reservation : Ulid) : Lookup (List GateEvent) := ask (.events reservation)

def rows {α : Type} (get : Ulid → Lookup (Option α)) : List Ulid → Lookup (List α)
  | [] => return []
  | id :: ids => do
    let row ← get id
    return row.toList ++ (← rows get ids)

def sectorsOf (p : Parking) : Lookup (List Sector) := rows (fun id => ask (.sector id)) p.sectors

def reservationsOfSector (sector : Ulid) : Lookup (List Reservation) := do
  rows (fun id => ask (.reservation id)) (← ask (.ofSector sector))

def reservationsOfClient (client : Ulid) : Lookup (List Reservation) := do
  rows (fun id => ask (.reservation id)) (← ask (.ofClient client))

def hasHistory (sector : Ulid) : Lookup Bool := do return !(← ask (.ofSector sector)).isEmpty

end Lookup

/-- What an attempt comes to: the changes it stages, and its answer if they are committed. -/
structure Plan (α : Type) where
  txn : Txn
  answer : α

end Carpark
