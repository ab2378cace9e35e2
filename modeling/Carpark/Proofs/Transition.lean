import Carpark.Engine.Request

/-!
What an attempt at an operation stages, and what has to hold of the tables for a commit of it to
take effect there. `Transition` has a case for each way in which an operation can write.
-/

namespace Carpark

def Lookup.txn {α : Type} (a : Lookup (Plan α)) : Lookup Txn := do return (← a).txn

/-- The changes that one attempt stages; there are none where an operation only reads. -/
def Operation.staging (settings : Settings) (ctx : Context) : Operation → Lookup Txn
  | .createParking address policy => (Registry.createAttempt ctx settings address policy).txn
  | .updateParking id version address policy =>
    (Registry.updateAttempt ctx id version address policy).txn
  | .deleteParking id version => (Registry.deleteAttempt ctx id version).txn
  | .addSector parking spec => (Registry.addSectorAttempt ctx parking spec).txn
  | .updateSector id version spec => (Registry.updateSectorAttempt ctx id version spec).txn
  | .activateSector id version => (Registry.activateAttempt ctx id version).txn
  | .deactivateSector id version time => (Registry.deactivateAttempt ctx id version time).txn
  | .deleteSector id version => (Registry.deleteSectorAttempt ctx id version).txn
  | .finalizeDeactivation sector => (Registry.finalizeAttempt ctx sector).txn
  | .book sector start stop => do
    let (client, window) ← Booking.request settings ctx start stop
    (Booking.makeAttempt ctx client sector window).txn
  | .cancel id => (Booking.cancelAttempt ctx id).txn
  | .enter id => (Gate.enterAttempt ctx id).txn
  | .driveIn parking anonymous =>
    (Gate.driveInAttempt settings ctx parking (if anonymous then none else ctx.caller.client?)).txn
  | .exit id code ending => (Gate.exitAttempt ctx id code ending).txn
  | .expire id => do ctx.requirePrivileged; (Termination.expireAttempt ctx id).txn
  | .forceExit id => do ctx.requirePrivileged; (Termination.forceExitAttempt settings ctx id).txn
  | .close id => do ctx.requirePrivileged; (Termination.closeAttempt ctx id).txn
  | .reservation id => do let _ ← Listing.reservation ctx id; return []
  | .reservations page => do let _ ← Listing.reservations ctx page; return []
  | .events id => do let _ ← Listing.events ctx id; return []

/-! ### Acceptance -/

/-- The row is as the change expects it, or the address is free for its owner. -/
def Change.suits (t : Tables) : Change → Prop
  | .insertParking p => t.parkings.get? p.id = none
  | .updateParking p | .deleteParking p =>
    ∃ p', t.parkings.get? p.id = some p' ∧ p'.version = p.version
  | .insertSector s => t.sectors.get? s.id = none
  | .updateSector s | .deleteSector s =>
    ∃ s', t.sectors.get? s.id = some s' ∧ s'.version = s.version
  | .insertReservation r => t.reservations.get? r.id = none
  | .updateReservation r => ∃ r', t.reservations.get? r.id = some r' ∧ r'.version = r.version
  | .appendEvent _ => True
  | .claimAddress key owner => ∀ o, t.addresses.get? key = some o → o = owner

namespace Tables

theorem staleRow?_eq_none {t : Tables} {txn : Txn} :
    t.staleRow? txn = none ↔
      ∀ c ∈ txn, ∀ k v, c.expects? = some (k, v) → t.version? k = v := by
  simp only [staleRow?, Txn.expects, List.findSome?_eq_none_iff, List.mem_filterMap]
  constructor
  · intro h c hc k v hkv
    have := h (k, v) ⟨c, hc, hkv⟩
    by_cases hv : t.version? k = v
    · exact hv
    · simp [hv] at this
  · rintro h ⟨k, v⟩ ⟨c, hc, hkv⟩
    simp [h c hc k v hkv]

theorem takenAddress?_eq_none {t : Tables} {txn : Txn} :
    t.takenAddress? txn = none ↔
      ∀ c ∈ txn, ∀ k o, c.claims? = some (k, o) → ∀ o', t.addresses.get? k = some o' → o' = o := by
  simp only [takenAddress?, Txn.claims, List.findSome?_eq_none_iff, List.mem_filterMap]
  constructor
  · intro h c hc k o hko o' ho'
    have := h (k, o) ⟨c, hc, hko⟩
    by_cases ho : o' = o
    · exact ho
    · simp [ho', ho] at this
  · rintro h ⟨k, o⟩ ⟨c, hc, hko⟩
    have := h c hc k o hko
    cases hk : t.addresses.get? k with
    | none => rfl
    | some o' => simp [this o' hk]

theorem refusal?_eq_none {t : Tables} {txn : Txn} :
    t.refusal? txn = none ↔ ∀ c ∈ txn, c.suits t := by
  have single (c : Change) : c.suits t ↔
      (∀ k v, c.expects? = some (k, v) → t.version? k = v) ∧
        ∀ k o, c.claims? = some (k, o) → ∀ o', t.addresses.get? k = some o' → o' = o := by
    cases c <;> simp [Change.suits, Change.expects?, Change.claims?, version?]
  simp only [refusal?, Option.or_eq_none_iff, staleRow?_eq_none, takenAddress?_eq_none, single]
  constructor
  · rintro ⟨hrow, hclaim⟩ c hc
    exact ⟨hrow c hc, hclaim c hc⟩
  · intro h
    exact ⟨fun c hc => (h c hc).1, fun c hc => (h c hc).2⟩

end Tables

/-! ### Transitions -/

def Registry.isTaken (ss : List Sector) (name : String) (besides : Option Ulid) : Bool :=
  ss.any fun s => s.name = name && some s.id ≠ besides

namespace Sector

def ofSpec (id parking : Ulid) (spec : SectorSpec) : Sector := {
  id, parking, name := spec.name, kind := spec.kind, maxPlaces := spec.maxPlaces
  availablePlaces := spec.maxPlaces, weight := spec.weight, active := true
  deactivation := none, version := 1 }

def change (s : Sector) (spec : SectorSpec) : Sector := { s with
  name := spec.name, kind := spec.kind, maxPlaces := spec.maxPlaces
  availablePlaces := spec.maxPlaces - s.occupied, weight := spec.weight }

def isFrozen (s : Sector) (spec : SectorSpec) (now : Ms) : Bool :=
  (spec.kind ≠ s.kind || spec.maxPlaces ≠ s.maxPlaces) && s.isActiveAt now

end Sector

def Reservation.driveIn (settings : Settings) (now : Ms) (id parking sector : Ulid)
    (client : Option Ulid) (code : String) : Reservation := {
  id, client, parking, sector, window := ⟨now, now + settings.maxReservation⟩
  status := .created, booked := false, code := some code, version := 1 }

/-- The operation, having drawn these identifiers, may stage these changes on `t`. A drive-in may
take any free sector of the parking. -/
inductive Transition (settings : Settings) (ctx : Context) (t : Tables) :
    Operation → List Ulid → Txn → Prop
  | createParking {address : Address} {policy : Option Policy} {id : Ulid} :
    ctx.requirePrivileged = .ok () → requireValid address.violations = .ok () →
    Transition settings ctx t (.createParking address policy) [id]
      [.claimAddress address.key id, .insertParking {
        id, address, sectors := [], policy := policy.getD settings.defaultPolicy, version := 1 }]
  | updateParking {id : Ulid} {version : Version} {address : Address} {policy : Policy}
      {p : Parking} :
    ctx.requirePrivileged = .ok () → requireValid address.violations = .ok () →
    t.parkings.get? id = some p → requireVersion .parking id version p.version = .ok () →
    Transition settings ctx t (.updateParking id version address policy) []
      [.claimAddress address.key id, .updateParking { p with address, policy }]
  | deleteParking {id : Ulid} {version : Version} {p : Parking} :
    ctx.requirePrivileged = .ok () →
    t.parkings.get? id = some p → requireVersion .parking id version p.version = .ok () →
    (∀ s ∈ t.sectorsOf p, t.hasHistory s.id = false) →
    Transition settings ctx t (.deleteParking id version) []
      ((t.sectorsOf p).map .deleteSector ++ [.deleteParking p])
  | addSector {parking id : Ulid} {spec : SectorSpec} {p : Parking} :
    ctx.requirePrivileged = .ok () → requireValid spec.violations = .ok () →
    t.parkings.get? parking = some p → p.sectors.length < Limits.sectorsPerParking →
    Registry.isTaken (t.sectorsOf p) spec.name none = false →
    Transition settings ctx t (.addSector parking spec) [id]
      [.updateParking { p with sectors := p.sectors ++ [id] },
        .insertSector (.ofSpec id parking spec)]
  | updateSector {id : Ulid} {version : Version} {spec : SectorSpec} {s : Sector} :
    ctx.requirePrivileged = .ok () → requireValid spec.violations = .ok () →
    t.sectors.get? id = some s → requireVersion .sector id version s.version = .ok () →
    s.isFrozen spec ctx.now = false → s.occupied ≤ spec.maxPlaces → spec.name = s.name →
    Transition settings ctx t (.updateSector id version spec) [] [.updateSector (s.change spec)]
  | renameSector {id : Ulid} {version : Version} {spec : SectorSpec} {s : Sector} {p : Parking} :
    ctx.requirePrivileged = .ok () → requireValid spec.violations = .ok () →
    t.sectors.get? id = some s → requireVersion .sector id version s.version = .ok () →
    s.isFrozen spec ctx.now = false → s.occupied ≤ spec.maxPlaces → spec.name ≠ s.name →
    t.parkings.get? s.parking = some p →
    Registry.isTaken (t.sectorsOf p) spec.name (some id) = false →
    Transition settings ctx t (.updateSector id version spec) []
      [.updateParking p, .updateSector (s.change spec)]
  | activateSector {id : Ulid} {version : Version} {s : Sector} :
    ctx.requirePrivileged = .ok () →
    t.sectors.get? id = some s → requireVersion .sector id version s.version = .ok () →
    s.isActiveAt ctx.now = false →
    Transition settings ctx t (.activateSector id version) []
      [.updateSector { s with active := true, deactivation := none }]
  | deactivateSector {id : Ulid} {version : Version} {time : Ms} {s : Sector} :
    ctx.requirePrivileged = .ok () →
    t.sectors.get? id = some s → requireVersion .sector id version s.version = .ok () →
    ctx.now ≤ time → time ≤ Limits.latest → s.isActiveAt ctx.now = true →
    Transition settings ctx t (.deactivateSector id version time) []
      [.updateSector { s with active := ctx.now < time, deactivation := some time }]
  | deleteSector {id : Ulid} {version : Version} {s : Sector} {p : Parking} :
    ctx.requirePrivileged = .ok () →
    t.sectors.get? id = some s → requireVersion .sector id version s.version = .ok () →
    t.hasHistory id = false → t.parkings.get? s.parking = some p →
    Transition settings ctx t (.deleteSector id version) []
      [.updateParking { p with sectors := p.sectors.filter (· ≠ id) }, .deleteSector s]
  | finalize {id : Ulid} {s : Sector} :
    ctx.requirePrivileged = .ok () → t.sectors.get? id = some s →
    (s.active && s.deactivation.any (· ≤ ctx.now)) = true →
    Transition settings ctx t (.finalizeDeactivation id) []
      [.updateSector { s with active := false }]
  | book {sector client id : Ulid} {start stop : Ms} {window : Span} {s : Sector} :
    Booking.request settings ctx start stop = .ok (client, window) →
    t.sectors.get? sector = some s → Booking.admits s ctx.now window = true →
    Booking.overlapping window (t.reservationsOfSector sector) < s.maxPlaces →
    Transition settings ctx t (.book sector start stop) [id]
      [.updateSector s, .insertReservation {
        id, client := some client, parking := s.parking, sector, window, status := .created
        booked := true, code := none, version := 1 }]
  | cancel {id : Ulid} {r : Reservation} :
    t.reservations.get? id = some r → r.requireOwner ctx.caller = .ok () → r.status = .created →
    hasEntered (t.eventsOf id) = false →
    Transition settings ctx t (.cancel id) [] [.updateReservation { r with status := .cancelled }]
  | enter {id u v : Ulid} {r : Reservation} {s taken : Sector} :
    t.reservations.get? id = some r → r.requireOwner ctx.caller = .ok () → r.status = .created →
    r.isOccupying (t.eventsOf id) = false → r.window.start ≤ ctx.now →
    ctx.now ≤ r.window.stop → t.sectors.get? r.sector = some s →
    s.takePlace ctx.now = .ok taken →
    Transition settings ctx t (.enter id) [u, v]
      [.updateSector taken, .updateReservation { r with code := some u.code }, .appendEvent {
        id := v, reservation := id, time := ctx.now, kind := .entry, forced := false }]
  | driveIn {parking u v w : Ulid} {anonymous : Bool} {p : Parking} {s taken : Sector} :
    t.parkings.get? parking = some p → s.id ∈ p.sectors → t.sectors.get? s.id = some s →
    s.takePlace ctx.now = .ok taken →
    Transition settings ctx t (.driveIn parking anonymous) [u, v, w]
      [.updateSector taken,
        .insertReservation (.driveIn settings ctx.now v parking s.id
          (if anonymous then none else ctx.caller.client?) u.code),
        .appendEvent {
          id := w, reservation := v, time := ctx.now, kind := .entry, forced := false }]
  | exit {id u : Ulid} {code : Option String} {ending : Bool} {r : Reservation}
      {s freed : Sector} :
    t.reservations.get? id = some r → r.authorizeExit ctx.caller code = .ok () →
    r.status = .created → r.isOccupying (t.eventsOf id) = true →
    t.sectors.get? r.sector = some s → s.freePlace = .ok freed →
    Transition settings ctx t (.exit id code ending) [u]
      [.updateSector freed,
        .updateReservation { r with status := if ending || !r.booked then .ended else r.status },
        .appendEvent {
          id := u, reservation := id, time := ctx.now, kind := .exit, forced := false }]
  | expire {id : Ulid} {r : Reservation} :
    ctx.requirePrivileged = .ok () → t.reservations.get? id = some r →
    r.isExpirable (t.eventsOf id) ctx.now = true →
    Transition settings ctx t (.expire id) [] [.updateReservation { r with status := .expired }]
  | forceExit {id u : Ulid} {r : Reservation} {s freed : Sector} :
    ctx.requirePrivileged = .ok () → t.reservations.get? id = some r →
    r.isOverstayed (t.eventsOf id) settings.grace ctx.now = true →
    t.sectors.get? r.sector = some s → s.freePlace = .ok freed →
    Transition settings ctx t (.forceExit id) [u]
      [.updateSector freed, .updateReservation { r with status := .ended }, .appendEvent {
        id := u, reservation := id, time := ctx.now, kind := .exit, forced := true }]
  | close {id : Ulid} {r : Reservation} :
    ctx.requirePrivileged = .ok () → t.reservations.get? id = some r →
    r.isFinished (t.eventsOf id) ctx.now = true →
    Transition settings ctx t (.close id) [] [.updateReservation { r with status := .ended }]

end Carpark
