import Carpark.Engine.Access
import Carpark.Engine.Program
import Carpark.Engine.Validation

/-!
Operations on parkings and sectors. They are for operators, and each names the version of the row
it means to change; they are not tried again after a lost race.
-/

namespace Carpark.Registry

variable (ctx : Context)

def requireFreeName (p : Parking) (name : String) (besides : Option Ulid) : Lookup Unit := do
  if (← Lookup.sectorsOf p).any fun s => s.name = name && some s.id ≠ besides then
    throw (.sectorNameTaken name)

/-! ### Attempts -/

def createAttempt (settings : Settings) (address : Address) (policy : Option Policy) :
    Lookup (Plan Parking) := do
  ctx.requirePrivileged
  requireValid address.violations
  let id ← Lookup.draw
  let p : Parking := {
    id, address, sectors := [], policy := policy.getD settings.defaultPolicy, version := 1 }
  return ⟨[.claimAddress address.key id, .insertParking p], p⟩

def updateAttempt (id : Ulid) (version : Version) (address : Address) (policy : Policy) :
    Lookup (Plan Parking) := do
  ctx.requirePrivileged
  requireValid address.violations
  let p ← Lookup.parking id
  requireVersion .parking id version p.version
  let p := { p with address, policy }
  return ⟨[.claimAddress address.key id, .updateParking p], { p with version := p.version + 1 }⟩

def deleteAttempt (id : Ulid) (version : Version) : Lookup (Plan Unit) := do
  ctx.requirePrivileged
  let p ← Lookup.parking id
  requireVersion .parking id version p.version
  let sectors ← Lookup.sectorsOf p
  if ← used sectors then throw (.hasReservationHistory .parking id)
  return ⟨sectors.map .deleteSector ++ [.deleteParking p], ()⟩
where
  used : List Sector → Lookup Bool
    | [] => return false
    | s :: rest => do if ← Lookup.hasHistory s.id then return true else used rest

/-- The version of the parking's row guards the names of its sectors. -/
def addSectorAttempt (parking : Ulid) (spec : SectorSpec) : Lookup (Plan Sector) := do
  ctx.requirePrivileged
  requireValid spec.violations
  let p ← Lookup.parking parking
  if Limits.sectorsPerParking ≤ p.sectors.length then
    throw (.limitExceeded "too many sectors in parking")
  requireFreeName p spec.name none
  let id ← Lookup.draw
  let s : Sector := {
    id, parking, name := spec.name, kind := spec.kind, maxPlaces := spec.maxPlaces
    availablePlaces := spec.maxPlaces, weight := spec.weight, active := true
    deactivation := none, version := 1 }
  return ⟨[.updateParking { p with sectors := p.sectors ++ [id] }, .insertSector s], s⟩

/-- Kind and size are fixed while the sector is active. A new size keeps the cars inside and may
not fall below their number. -/
def updateSectorAttempt (id : Ulid) (version : Version) (spec : SectorSpec) :
    Lookup (Plan Sector) := do
  ctx.requirePrivileged
  requireValid spec.violations
  let s ← Lookup.sector id
  requireVersion .sector id version s.version
  if (spec.kind ≠ s.kind || spec.maxPlaces ≠ s.maxPlaces) && s.isActiveAt ctx.now then
    throw (.sectorFrozen id)
  if spec.maxPlaces < s.occupied then throw (.occupancyAboveMaxPlaces id s.occupied)
  let guard ← if spec.name = s.name then pure [] else do
    let p ← Lookup.parking s.parking
    requireFreeName p spec.name (some id)
    pure [Change.updateParking p]
  let s' := { s with
    name := spec.name, kind := spec.kind, maxPlaces := spec.maxPlaces
    availablePlaces := spec.maxPlaces - s.occupied, weight := spec.weight }
  return ⟨guard ++ [.updateSector s'], { s' with version := s.version + 1 }⟩

def activateAttempt (id : Ulid) (version : Version) : Lookup (Plan Sector) := do
  ctx.requirePrivileged
  let s ← Lookup.sector id
  requireVersion .sector id version s.version
  if s.isActiveAt ctx.now then throw (.sectorAlreadyActive id)
  let s' := { s with active := true, deactivation := none }
  return ⟨[.updateSector s'], { s' with version := s.version + 1 }⟩

/-- From the instant `time` on no car is let in. A later sweep clears the flag. -/
def deactivateAttempt (id : Ulid) (version : Version) (time : Ms) : Lookup (Plan Sector) := do
  ctx.requirePrivileged
  let s ← Lookup.sector id
  requireVersion .sector id version s.version
  if time < ctx.now then throw .deactivationInPast
  if Limits.latest < time then throw (.limitExceeded "timestamp out of range")
  if !s.isActiveAt ctx.now then throw (.sectorAlreadyInactive id)
  let s' := { s with active := ctx.now < time, deactivation := some time }
  return ⟨[.updateSector s'], { s' with version := s.version + 1 }⟩

def deleteSectorAttempt (id : Ulid) (version : Version) : Lookup (Plan Unit) := do
  ctx.requirePrivileged
  let s ← Lookup.sector id
  requireVersion .sector id version s.version
  if ← Lookup.hasHistory id then throw (.hasReservationHistory .sector id)
  let p ← Lookup.parking s.parking
  return ⟨[.updateParking { p with sectors := p.sectors.filter (· ≠ id) }, .deleteSector s], ()⟩

def finalizeAttempt (id : Ulid) : Lookup (Plan Bool) := do
  ctx.requirePrivileged
  match ← Lookup.ask (.sector id) with
  | none => return ⟨[], false⟩
  | some s =>
    if s.active && s.deactivation.any (· ≤ ctx.now) then
      return ⟨[.updateSector { s with active := false }], true⟩
    else return ⟨[], false⟩

/-! ### Operations -/

def once {α : Type} (op : OpName) (a : Lookup (Plan α)) (line : α → Option String) :
    Program (Except Failure α) := do
  let result ← Program.attempt a
  Program.observe op result
  if let .ok answer := result then
    if let some message := line answer then Program.info message
  return result

def createParking (settings : Settings) (address : Address) (policy : Option Policy) :
    Program (Except Failure Parking) :=
  once .createParking (createAttempt ctx settings address policy) fun p =>
    some ("parking " ++ p.id.text ++ " created at " ++ toString p.address)

def updateParking (id : Ulid) (version : Version) (address : Address) (policy : Policy) :
    Program (Except Failure Parking) :=
  once .updateParking (updateAttempt ctx id version address policy) fun _ => none

def deleteParking (id : Ulid) (version : Version) : Program (Except Failure Unit) :=
  once .deleteParking (deleteAttempt ctx id version) fun _ =>
    some ("parking " ++ id.text ++ " deleted")

def addSector (parking : Ulid) (spec : SectorSpec) : Program (Except Failure Sector) :=
  once .addSector (addSectorAttempt ctx parking spec) fun s =>
    some ("sector " ++ s.name ++ " (" ++ s.id.text ++ ") added to parking " ++ parking.text)

def updateSector (id : Ulid) (version : Version) (spec : SectorSpec) :
    Program (Except Failure Sector) :=
  once .updateSector (updateSectorAttempt ctx id version spec) fun _ => none

def activateSector (id : Ulid) (version : Version) : Program (Except Failure Sector) :=
  once .activateSector (activateAttempt ctx id version) fun _ =>
    some ("sector " ++ id.text ++ " activated")

def deactivateSector (id : Ulid) (version : Version) (time : Ms) :
    Program (Except Failure Sector) :=
  once .deactivateSector (deactivateAttempt ctx id version time) fun _ =>
    some ("sector " ++ id.text ++ " deactivates at " ++ toString time)

def deleteSector (id : Ulid) (version : Version) : Program (Except Failure Unit) :=
  once .deleteSector (deleteSectorAttempt ctx id version) fun _ =>
    some ("sector " ++ id.text ++ " deleted")

def finalizeDeactivation (id : Ulid) : Program (Except Failure Bool) :=
  Program.attempt (finalizeAttempt ctx id)

end Carpark.Registry
