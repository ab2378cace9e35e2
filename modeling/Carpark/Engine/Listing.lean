import Carpark.Engine.Access
import Carpark.Engine.Reading
import Carpark.Engine.Termination
import Carpark.Page

/-!
What can be asked of an engine without changing anything.
-/

namespace Carpark.Listing

variable (ctx : Context)

def parkings (page : Page) : Lookup (Paged Parking) := do
  return page.slice (← Lookup.ask .parkings)

def sectors (parking : Ulid) (page : Page) : Lookup (Paged Sector) := do
  let p ← Lookup.parking parking
  return page.slice (← Lookup.sectorsOf p)

def reservation (id : Ulid) : Lookup Reservation := do
  let r ← Lookup.reservation id
  if r.isVisibleTo ctx.caller then return r else throw (.notOwner id)

def visible : Lookup (List Reservation) := do
  if ctx.caller.isPrivileged then Lookup.ask .reservations
  else match ctx.caller.client? with
    | some client =>
      return (← Lookup.reservationsOfClient client).mergeSort fun a b => a.id.val ≤ b.id.val
    | none => return []

def reservations (page : Page) : Lookup (Paged Reservation) := do
  return page.slice (← visible ctx)

def events (id : Ulid) : Lookup (List GateEvent) := do
  let _ ← reservation ctx id
  Lookup.events id

def isOccupying (id : Ulid) : Lookup Bool := do
  let r ← Lookup.reservation id
  return r.isOccupying (← Lookup.events id)

def countOccupying : List Reservation → Lookup Nat
  | [] => return 0
  | r :: rest => do
    let inside := r.isOccupying (← Lookup.events r.id)
    return inside.toNat + (← countOccupying rest)

/-- The cars inside a sector, counted from the gate log and not from the ledger. -/
def occupancy (sector : Ulid) : Lookup Nat := do
  let _ ← Lookup.sector sector
  countOccupying (← Lookup.reservationsOfSector sector)

/-! ### What a sweep looks for -/

def selectReservations (fits : Reservation → List GateEvent → Bool) : Reading (List Ulid) := do
  go (← Reading.get .reservations)
where
  go : List Reservation → Reading (List Ulid)
    | [] => return []
    | r :: rest => do
      let chosen := fits r (← Reading.get (.events r.id))
      let more ← go rest
      return if chosen then r.id :: more else more

def expirable (now : Ms) : Reading (List Ulid) :=
  selectReservations fun r es => r.isExpirable es now

def overstayed (grace now : Ms) : Reading (List Ulid) :=
  selectReservations fun r es => r.isOverstayed es grace now

def finished (now : Ms) : Reading (List Ulid) := selectReservations fun r es => r.isFinished es now

/-- Sectors whose flag says active though their deactivation has passed. -/
def lapsed (now : Ms) : Reading (List Ulid) := do
  return (← Reading.get .sectors).filterMap fun s =>
    if s.active && s.deactivation.any (· ≤ now) then some s.id else none

end Carpark.Listing
