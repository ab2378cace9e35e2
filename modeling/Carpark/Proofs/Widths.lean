import Carpark.Config
import Carpark.Proofs.Alone
import Carpark.Proofs.Codec
import Carpark.Proofs.LaterSteps
import Carpark.Proofs.Lifecycle

/-!
Where times fit into 64 bits. Whatever the variables say, the settings do, and so do the windows
that are booked. A time and two settings may add up to more.
-/

namespace Carpark

open Binary Lookup

/-! ### Settings -/

theorem Variables.clamp64_fits (n : Int) : FitsInt (clamp64 n) := by
  simp only [clamp64, FitsInt]
  omega

theorem Config.maxReservation_fits (vars : Variables) :
    FitsInt (ofVariables vars).settings.maxReservation := by
  change FitsInt (Variables.positive _ _ _).1
  rw [Variables.positive]
  split
  · decide
  · exact Variables.clamp64_fits _

theorem Config.grace_nonneg (vars : Variables) : 0 ≤ (ofVariables vars).settings.grace := by
  change 0 ≤ vars.grace.1
  rw [Variables.grace]
  split
  next => exact Int.le_of_lt (by decide : 0 < ({} : Settings).grace)
  next h => exact Int.not_lt.1 h

/-! ### Windows -/

def Span.Bookable (w : Span) (most : Ms) : Prop :=
  Limits.earliest ≤ w.start ∧ w.start < w.stop ∧ w.stop ≤ w.start + most ∧ w.stop ≤ Limits.latest

theorem Span.bookable_of_ofRequest {start stop now most : Ms} {window : Span}
    (h : ofRequest start stop now most = .ok window) : window.Bookable most := by
  obtain ⟨order, length⟩ := of_ofRequest h
  simp only [ofRequest] at h
  split at h
  · cases h
  next range =>
  split at h
  · cases h
  split at h
  · cases h
  split at h
  · cases h
  cases h
  obtain ⟨earliest, latest⟩ := not_or.1 range
  exact ⟨Int.not_lt.1 earliest, order, length, Int.not_lt.1 latest⟩

theorem Booking.bookable_of_request {settings : Settings} {ctx : Context} {start stop : Ms}
    {client : Ulid} {window : Span} (h : request settings ctx start stop = .ok (client, window)) :
    window.Bookable settings.maxReservation :=
  Span.bookable_of_ofRequest (ofRequest_of_request h)

theorem Transition.window_of_insert {settings : Settings} {ctx : Context} {t : Tables}
    {op : Operation} {ids : List Ulid} {txn : Txn} (h : Transition settings ctx t op ids txn)
    {r : Reservation} (hr : .insertReservation r ∈ txn) :
    r.window.Bookable settings.maxReservation ∨
      r.window = ⟨ctx.now, ctx.now + settings.maxReservation⟩ := by
  cases h with
  | book asked =>
    simp only [List.mem_cons, Change.insertReservation.injEq, reduceCtorEq, List.not_mem_nil,
      or_false, false_or] at hr
    rw [hr]
    exact .inl (Booking.bookable_of_request asked)
  | driveIn =>
    simp only [List.mem_cons, Change.insertReservation.injEq, reduceCtorEq, List.not_mem_nil,
      or_false, false_or] at hr
    rw [hr]
    exact .inr rfl
  | _ => simp at hr

/-- The operation makes the reservation at this time, on an engine that came about from an empty
log. -/
def Reservation.Made (settings : Settings) (now : Ms) (op : Operation) (r : Reservation) : Prop :=
  ∃ (e : Engine) (cs : List Commit) (caller : Caller), e.Reachable cs ∧ e.settings = settings ∧
    e.tables.reservations.get? r.id = none ∧
    (e.run (op.program settings ⟨caller, now⟩)).engine.tables.reservations.get? r.id = some r

theorem Reservation.Made.window {settings : Settings} {now : Ms} {op : Operation}
    {r : Reservation} (h : r.Made settings now op) :
    r.window.Bookable settings.maxReservation ∨
      r.window = ⟨now, now + settings.maxReservation⟩ := by
  obtain ⟨e, cs, caller, reachable, rfl, absent, present⟩ := h
  rcases e.run_operation reachable.linked e.settings ⟨caller, now⟩ op with same | ran
  · rw [same, absent] at present
    cases present
  · obtain ⟨ids, txn, transition, suits, tables⟩ := ran
    rw [tables] at present
    obtain ⟨b, inserted, rfl⟩ := transition.inserts reachable.linked suits present absent
    exact (transition.window_of_insert inserted : _)

theorem Reservation.Made.order {settings : Settings} {now : Ms} {op : Operation} {r : Reservation}
    (h : r.Made settings now op) (hmost : 0 < settings.maxReservation) :
    r.window.start < r.window.stop ∧ r.window.stop ≤ r.window.start + settings.maxReservation := by
  rcases h.window with ⟨-, order, length, -⟩ | window
  · exact ⟨order, length⟩
  · rw [window]
    exact ⟨Int.lt_add_of_pos_right _ hmost, Int.le_refl _⟩

theorem Reservation.Made.range {settings : Settings} {now : Ms} {op : Operation} {r : Reservation}
    (h : r.Made settings now op) (hmost : 0 < settings.maxReservation)
    (earliest : Limits.earliest ≤ now) (latest : now ≤ Limits.latest) :
    Limits.earliest ≤ r.window.stop ∧
      r.window.stop ≤ Limits.latest + settings.maxReservation := by
  have longer (time : Ms) : time ≤ time + settings.maxReservation :=
    Int.le_add_of_nonneg_right (Int.le_of_lt hmost)
  rcases h.window with ⟨begins, order, -, ends⟩ | window
  · exact ⟨Int.le_trans begins (Int.le_of_lt order), Int.le_trans ends (longer _)⟩
  · rw [window]
    exact ⟨Int.le_trans earliest (longer _), Int.add_le_add_right latest _⟩

/-! ### Drive-ins -/

theorem Gate.sees_driveIn_alone {settings : Settings} {ctx : Context} {t : Tables}
    {parking u v w : Ulid} {anonymous : Bool} {p : Parking} {s taken : Sector}
    (hp : t.parkings.get? parking = some p)
    (chosen : p.policy.choose ctx.now (t.sectorsOf p) = some s)
    (htaken : s.takePlace ctx.now = .ok taken) :
    Sees id Eq ((Operation.driveIn parking anonymous).staging settings ctx) t [u, v, w]
      [.updateSector taken,
        .insertReservation (.driveIn settings ctx.now v parking s.id
          (if anonymous then none else ctx.caller.client?) u.code),
        .appendEvent {
          id := w, reservation := v, time := ctx.now, kind := .entry, forced := false }] t := by
  apply sees_txn_of
  simp only [Gate.driveInAttempt, sees_parking_bind, sees_sectorsOf_bind]
  refine ⟨p, t, ⟨rfl, hp⟩, t.sectorsOf p, t, seesRows_alone _ t _, ?_⟩
  simp only [chosen, sees_lift_bind, sees_draw_bind, sees_pure]
  exact ⟨taken, htaken, u, _, rfl, v, _, rfl, w, [], rfl, rfl, rfl, trivial⟩

theorem Engine.driveIn_alone {e : Engine} {settings : Settings} {ctx : Context} {parking : Ulid}
    {anonymous : Bool} {p : Parking} {s : Sector} (hp : e.tables.parkings.get? parking = some p)
    (hs : e.tables.sectors.get? s.id = some s)
    (chosen : p.policy.choose ctx.now (e.tables.sectorsOf p) = some s)
    (free : s.canTake ctx.now = true)
    (unused : e.tables.reservations.get? (e.supply (e.drawn + 1)) = none) :
    let r := Reservation.driveIn settings ctx.now (e.supply (e.drawn + 1)) parking s.id
      (if anonymous then none else ctx.caller.client?) (e.supply e.drawn).code
    let o := e.run ((Operation.driveIn parking anonymous).program settings ctx)
    o.engine.tables.reservations.get? r.id = some r := by
  intro r o
  let taken : Sector := { s with availablePlaces := s.availablePlaces - 1 }
  let event : GateEvent := {
    id := e.supply (e.drawn + 2), reservation := r.id, time := ctx.now, kind := .entry
    forced := false }
  let txn : Txn := [.updateSector taken, .insertReservation r, .appendEvent event]
  have staged : ((Operation.driveIn parking anonymous).staging settings ctx).run.eval e.tables
      e.supply e.drawn = (.ok txn, e.drawn + 3) := by
    have sees := @Gate.sees_driveIn_alone settings ctx e.tables parking (e.supply e.drawn) r.id
      event.id anonymous p s taken hp chosen (if_pos free)
    refine Reading.eval_of_sees sees e.supply e.drawn fun i u hu => ?_
    match i, hu with
    | 0, rfl | 1, rfl | 2, rfl => rfl
  have accepted : e.tables.refusal? txn = none := by
    refine Tables.refusal?_eq_none.2 (List.forall_mem_cons.2 ⟨⟨s, hs, rfl⟩, ?_⟩)
    exact List.forall_mem_cons.2 ⟨unused, List.forall_mem_singleton.2 trivial⟩
  obtain ⟨-, tables, -⟩ :=
    (Program.Tries.operation ctx (.driveIn parking anonymous) e []).of_accepted staged rfl accepted
  have writes : txn.writes = [.putSector { taken with version := s.version + 1 },
    .putReservation r, .appendEvent event] := rfl
  rw [show o.engine.tables = _ from tables, writes, Tables.apply_gate]
  simp

def Parking.small : Parking := {
  id := .ofNat 0, address := ⟨"Rome", "00100", "Corso 1"⟩, sectors := [.ofNat 1]
  policy := .leastOccupied, version := 2 }

def Sector.vacant : Sector := .ofSpec (.ofNat 1) (.ofNat 0) ⟨"AB-01", .covered, 2, 1⟩

set_option maxRecDepth 10000 in
theorem Engine.exists_vacant (settings : Settings) :
    ∃ (e : Engine) (cs : List Commit), e.Reachable cs ∧ e.settings = settings ∧
      e.tables.parkings.get? (.ofNat 0) = some .small ∧
      e.tables.sectors.get? (.ofNat 1) = some .vacant ∧
      e.tables.reservations.entries = [] := by
  let admin : Context := ⟨.system, 0⟩
  let create : Operation := .createParking ⟨"Rome", "00100", "Corso 1"⟩ none
  let add : Operation := .addSector (.ofNat 0) ⟨"AB-01", .covered, 2, 1⟩
  obtain ⟨e, cs, reachable, readable, rows⟩ : ∃ (e : Engine) (cs : List Commit),
      e.Reachable cs ∧ (∀ c ∈ cs, c.Readable) ∧
      (Tables.ofCommits cs).parkings.get? (.ofNat 0) = some .small ∧
      (Tables.ofCommits cs).sectors.get? (.ofNat 1) = some .vacant ∧
      (Tables.ofCommits cs).reservations.entries = [] :=
    ⟨_, _, ((Reachable.fresh {} .silent .ofNat false).asked (.operation admin create)).asked
      (.operation admin add), by decide, by decide, by decide, by decide⟩
  -- The log does not say what the settings were, so it can be opened with others.
  have opened := reachable.sound.reopens readable false
  exact ⟨_, cs, reachable.reopened opened settings .silent .ofNat, rfl, rows⟩

theorem Reservation.exists_driveIn (settings : Settings) (now : Ms) :
    ∃ op r, Made settings now op r ∧ r.window = ⟨now, now + settings.maxReservation⟩ := by
  obtain ⟨e, cs, reachable, same, hp, hs, none⟩ := Engine.exists_vacant settings
  have unused (id : Ulid) : e.tables.reservations.get? id = Option.none := by
    simp [Table.get?, none, Table.lookup]
  have free : Sector.vacant.canTake now = true := rfl
  have chosen : Parking.small.policy.choose now (e.tables.sectorsOf .small) = some .vacant := by
    have sectors : e.tables.sectorsOf .small = [.vacant] := by
      simp [Tables.sectorsOf, Parking.small, hs]
    simp [sectors, Policy.choose, free]
  exact ⟨.driveIn (.ofNat 0) true, _, ⟨e, cs, .anonymous, reachable, same, unused _,
    @Engine.driveIn_alone e settings ⟨.anonymous, now⟩ _ true _ _ hp hs chosen free
      (unused _)⟩, rfl⟩

/-! ### Sums -/

theorem Binary.FitsInt.of_le {m n : Int} (h : FitsInt n) (nonneg : 0 ≤ m) (le : m ≤ n) :
    FitsInt m :=
  ⟨Int.le_trans (by decide) nonneg, Int.lt_of_le_of_lt le h.2⟩

theorem Limits.earliest_nonneg : 0 ≤ earliest := by decide

theorem Limits.earliest_le_latest : earliest ≤ latest := by decide

/-- The times after which cars have overstayed fit 64 bits exactly if that of a car does which
drives in at the last time at which one may book. -/
theorem Config.sums_fit_iff (vars : Variables) :
    let c := (ofVariables vars).settings
    (∀ now, Limits.earliest ≤ now → now ≤ Limits.latest → FitsInt (now + c.maxReservation) →
      ∀ op (r : Reservation), r.Made c now op →
        r.window.start < r.window.stop ∧ FitsInt (r.window.stop - r.window.start)) ∧
    ((∀ now, Limits.earliest ≤ now → now ≤ Limits.latest → FitsInt (now + c.maxReservation)) ↔
      FitsInt (Limits.latest + c.maxReservation)) ∧
    ((∀ now, Limits.earliest ≤ now → now ≤ Limits.latest → ∀ op (r : Reservation),
      r.Made c now op → FitsInt (r.window.stop + c.grace)) ↔
      FitsInt (Limits.latest + c.maxReservation + c.grace)) := by
  intro c
  have positive : 0 < c.maxReservation := maxReservation_pos vars
  have fits : FitsInt c.maxReservation := maxReservation_fits vars
  have grace : 0 ≤ c.grace := grace_nonneg vars
  have begin := Limits.earliest_nonneg
  refine ⟨fun now _ _ _ op r made => ?_, ⟨fun all => ?_, fun bound now earliest latest => ?_⟩,
    fun all => ?_, fun bound now earliest latest op r made => ?_⟩
  · obtain ⟨order, length⟩ := made.order positive
    exact ⟨order, fits.of_le (Int.sub_nonneg_of_le (Int.le_of_lt order))
      (Int.sub_left_le_of_le_add length)⟩
  · exact all _ Limits.earliest_le_latest (Int.le_refl _)
  · exact bound.of_le (Int.add_nonneg (Int.le_trans begin earliest) (Int.le_of_lt positive))
      (Int.add_le_add_right latest _)
  · obtain ⟨op, r, made, window⟩ := Reservation.exists_driveIn c Limits.latest
    have sum := all _ Limits.earliest_le_latest (Int.le_refl _) op r made
    rwa [window] at sum
  · obtain ⟨least, most⟩ := made.range positive earliest latest
    exact bound.of_le (Int.add_nonneg (Int.le_trans begin least) grace)
      (Int.add_le_add_right most _)

theorem Config.sums_fit_iff_defaults :
    let c := (Config.ofVariables ⟨fun _ => none⟩).settings
    FitsInt (Limits.latest + c.maxReservation + c.grace) ∧
      ∃ op, ∃ r : Reservation, r.Made c Limits.latest op ∧ r.window.start < r.window.stop ∧
        FitsInt (r.window.stop + c.grace) := by
  intro c
  have bound : FitsInt (Limits.latest + c.maxReservation + c.grace) := by decide
  obtain ⟨windows, -, stays⟩ := Config.sums_fit_iff ⟨fun _ => none⟩
  obtain ⟨op, r, made, -⟩ := Reservation.exists_driveIn c Limits.latest
  exact ⟨bound, op, r, made,
    (windows _ Limits.earliest_le_latest (Int.le_refl _) (by decide) op r made).1,
    stays.2 bound _ Limits.earliest_le_latest (Int.le_refl _) op r made⟩

/-- The longest stay is as long as can be read, and the window of a car that drives in ends at a
time that does not fit. -/
theorem Config.sums_overflow :
    let vars : Variables := ⟨fun key =>
      if key = "PARKD_MAX_RESERVATION_MINUTES" then some "9223372036854775807" else none⟩
    let c := (Config.ofVariables vars).settings
    c.maxReservation = 9223372036854775807 ∧
      ∃ op, ∃ r : Reservation, r.Made c Limits.earliest op ∧
        r.window = ⟨Limits.earliest, Limits.earliest + c.maxReservation⟩ ∧
        ¬ FitsInt r.window.stop ∧ r.window.stop.bmod (2 ^ 64) < r.window.start := by
  intro vars c
  have most : c.maxReservation = 9223372036854775807 := by decide
  obtain ⟨op, r, made, window⟩ := Reservation.exists_driveIn c Limits.earliest
  refine ⟨most, op, r, made, window, ?_⟩
  rw [window, most]
  decide

end Carpark
