import Carpark.Proofs.Due
import Carpark.Proofs.Reachable

/-!
What is to come of the rows by some instant, whatever sweeps there are until then. It can be read
off the tables at any time: no step of a sweep at an earlier instant changes the forecast, and where
nothing is due the rows are as forecast.
-/

namespace Carpark

/-! ### The forecast -/

namespace Reservation

def forecast (settings : Settings) (now : Ms) (es : List GateEvent) (r : Reservation) :
    Reservation :=
  (SweepPhase.all.find? (r.isDue settings now es)).elim r r.endedBy

variable {settings : Settings} {now : Ms} {r : Reservation} {es : List GateEvent}
  {phase : SweepPhase}

theorem forecast_of_isDue (h : r.isDue settings now es phase = true) :
    r.forecast settings now es = r.endedBy phase := by
  cases found : SweepPhase.all.find? (r.isDue settings now es) with
  | none =>
    have here : phase ∈ SweepPhase.all := by cases phase <;> decide
    exact absurd h (List.find?_eq_none.1 found phase here)
  | some p =>
    obtain rfl := isDue_unique (List.find?_some found) h
    rw [forecast, found]
    rfl

theorem forecast_of_not_isDue (h : ∀ phase, r.isDue settings now es phase = false) :
    r.forecast settings now es = r := by
  rw [forecast, List.find?_eq_none.2 fun p _ => by simp [h p]]
  rfl

theorem forecast_endedBy (r : Reservation) (phase : SweepPhase) (es : List GateEvent) :
    (r.endedBy phase).forecast settings now es = r.endedBy phase :=
  forecast_of_not_isDue fun _ => isDue_of_terminal (r.endedBy_terminal phase)

end Reservation

def Sector.forecast (now : Ms) (overstayed : Nat) (s : Sector) : Sector := { s with
  availablePlaces := s.availablePlaces + overstayed
  active := s.active && !s.isLapsed now
  version := s.version + overstayed + (s.isLapsed now).toNat }

namespace Sector

theorem forecast_freed (now : Ms) (overstayed : Nat) (s : Sector) :
    s.freed.forecast now overstayed = s.forecast now (overstayed + 1) := by
  simp [forecast, freed, isLapsed, Nat.add_comm, Nat.add_left_comm]

theorem forecast_closed {now : Ms} {s : Sector} (h : s.isLapsed now = true) (overstayed : Nat) :
    s.closed.forecast now overstayed = s.forecast now overstayed := by
  have done : s.closed.isLapsed now = false := rfl
  simp only [forecast, h, done]
  simp [closed, Nat.add_right_comm]

end Sector

@[ext]
structure Rows where
  parkings : Table Ulid Parking
  sectors : Ulid → Option Sector
  reservations : Ulid → Option Reservation
  addresses : Table String Ulid
  bySector : Table Ulid (List Ulid)
  byClient : Table Ulid (List Ulid)

namespace Tables

def overstayed (settings : Settings) (now : Ms) (t : Tables) (sector : Ulid) : Nat :=
  t.reservations.values.countP fun r =>
    r.sector = sector && r.isOverstayed (t.eventsOf r.id) settings.grace now

def rows (t : Tables) : Rows where
  parkings := t.parkings
  sectors := t.sectors.get?
  reservations := t.reservations.get?
  addresses := t.addresses
  bySector := t.bySector
  byClient := t.byClient

/-- What a sweep at that instant makes of the tables. -/
def forecast (settings : Settings) (now : Ms) (t : Tables) : Rows where
  parkings := t.parkings
  sectors k := (t.sectors.get? k).map (·.forecast now (t.overstayed settings now k))
  reservations k := (t.reservations.get? k).map (·.forecast settings now (t.eventsOf k))
  addresses := t.addresses
  bySector := t.bySector
  byClient := t.byClient

variable {settings : Settings} {now : Ms} {t t' : Tables} {phase : SweepPhase} {id : Ulid}

/-! ### One reservation ends -/

namespace Ends

variable {r : Reservation}

theorem forecast_reservations (h : Ends settings now phase r t t') :
    (t'.forecast settings now).reservations = (t.forecast settings now).reservations := by
  funext k
  simp only [forecast, h.reservations, Table.get?_insert]
  by_cases hk : k = r.id
  · subst hk
    simp [h.row, Reservation.forecast_of_isDue h.due, Reservation.forecast_endedBy]
  · simp [hk, h.events k hk]

theorem overstayed (h : Ends settings now phase r t t') (ht : t.Linked) (k : Ulid) :
    t'.overstayed settings now k + (phase = .forceEnded && r.sector = k).toNat =
      t.overstayed settings now k := by
  have count := t.reservations.countP_insert r.id (r.endedBy phase)
    (fun r => r.sector = k && r.isOverstayed (t.eventsOf r.id) settings.grace now)
    (fun r => r.sector = k && r.isOverstayed (t'.eventsOf r.id) settings.grace now)
    fun id b hid hb => by rw [ht.reservation_id hb, h.events id hid]
  have before : r.isOverstayed (t.eventsOf r.id) settings.grace now =
      decide (phase = .forceEnded) := by
    rw [Bool.eq_iff_iff, decide_eq_true_eq]
    constructor
    · intro overdue
      have due' : r.isDue settings now (t.eventsOf r.id) .forceEnded = true := overdue
      exact Reservation.isDue_unique h.due due'
    · rintro rfl
      exact h.due
  have after : (r.endedBy phase).isDue settings now (t'.eventsOf r.id) .forceEnded = false :=
    Reservation.isDue_of_terminal (r.endedBy_terminal phase)
  rw [Reservation.isDue] at after
  have same : (r.endedBy phase).id = r.id := rfl
  simp only [h.row, Option.elim_some, before, same, after, Bool.and_false, Bool.toNat_false,
    Nat.add_zero, ← h.reservations] at count
  rw [Bool.and_comm]
  exact count

end Ends

theorem putReservation_of_row {r b : Reservation} (h : t.reservations.get? r.id = some b) :
    t.putReservation r = { t with reservations := t.reservations.insert r.id r } := by
  simp [putReservation, h]

namespace SweepStep

theorem forecast {earlier : Ms} (h : SweepStep settings earlier t phase id t') (ht : t.Linked)
    (hle : earlier ≤ now) : t'.forecast settings now = t.forecast settings now := by
  cases h with
  | @ends phase r hphase hr due =>
    have ends := Ends.putReservation hr (Reservation.isDue_mono hle due)
    have counts (k : Ulid) := ends.overstayed ht k
    simp only [hphase, decide_false, Bool.false_and, Bool.toNat_false, Nat.add_zero] at counts
    have put := putReservation_of_row (r := r.endedBy phase) hr
    refine Rows.ext ?_ (funext fun k => ?_) ends.forecast_reservations ?_ ?_ ?_
    · simp [Tables.forecast]
    · simp only [Tables.forecast, sectors_putReservation, counts]
    all_goals simp [Tables.forecast, put]
  | @evicts r s u hr due hs hsector =>
    have due : r.isDue settings now (t.eventsOf r.id) .forceEnded = true :=
      Reservation.isDue_mono hle due
    have exit : (GateEvent.forcedExit u r.id earlier).reservation = r.id := rfl
    have ends := Ends.gate s.freed hr exit due
    have put := putReservation_of_row (t := t.putSector s.freed) (r := r.endedBy .forceEnded) hr
    refine Rows.ext ?_ (funext fun k => ?_) ends.forecast_reservations ?_ ?_ ?_
    · simp [Tables.forecast]
    · -- the place that is free now is not counted among those to be freed
      have count := ends.overstayed ht k
      simp only [Tables.forecast, ← count, parkings_addEvent, sectors_addEvent,
        sectors_putReservation, sectors_putSector, Table.get?_insert]
      by_cases hk : k = s.id
      · simp [hk, hs, hsector, Sector.forecast_freed]
      · simp [hk, hsector, Ne.symm hk]
    all_goals simp [Tables.forecast, put]
  | @closes s hs lapsed =>
    have counts : (t.putSector s.closed).overstayed settings now = t.overstayed settings now := rfl
    refine Rows.ext rfl (funext fun k => ?_) rfl rfl rfl rfl
    simp only [Tables.forecast, counts, sectors_putSector, Table.get?_insert]
    by_cases hk : k = s.id
    · simp [hk, hs, Sector.forecast_closed (Sector.isLapsed_mono hle lapsed)]
    · simp [hk]

end SweepStep

end Tables

/-! ### Where nothing is due -/

namespace Tables

variable {settings : Settings} {now : Ms} {t t' : Tables}

section idle

variable (idle : ∀ phase, t.due settings now phase = [])

include idle

theorem isDue_of_idle {id : Ulid} {r : Reservation} (hr : t.reservations.get? id = some r)
    (phase : SweepPhase) : r.isDue settings now (t.eventsOf id) phase = false := by
  by_cases hphase : phase = .deactivated
  · subst hphase
    rfl
  · rw [← Bool.not_eq_true]
    intro due
    have found := (mem_due hphase).2 ⟨r, hr, due⟩
    simp [idle] at found

theorem isLapsed_of_idle {id : Ulid} {s : Sector} (hs : t.sectors.get? id = some s) :
    s.isLapsed now = false := by
  rw [← Bool.not_eq_true]
  intro lapsed
  have found : id ∈ t.due settings now .deactivated := mem_due_deactivated.2 ⟨s, hs, lapsed⟩
  simp [idle] at found

theorem overstayed_of_idle (ht : t.Linked) (sector : Ulid) :
    t.overstayed settings now sector = 0 := by
  refine Table.countP_eq_zero_of fun id r hr => ?_
  have inTime : r.isOverstayed (t.eventsOf id) settings.grace now = false :=
    isDue_of_idle idle hr .forceEnded
  rw [ht.reservation_id hr, inTime, Bool.and_false]

theorem forecast_of_idle (ht : t.Linked) : t.forecast settings now = t.rows := by
  refine Rows.ext rfl (funext fun k => ?_) (funext fun k => ?_) rfl rfl rfl
  · cases hs : t.sectors.get? k with
    | none => simp [forecast, rows, hs]
    | some s =>
      simp [forecast, rows, hs, overstayed_of_idle idle ht, Sector.forecast,
        isLapsed_of_idle idle hs]
  · cases hr : t.reservations.get? k with
    | none => simp [forecast, rows, hr]
    | some r => simp [forecast, rows, hr, Reservation.forecast_of_not_isDue (isDue_of_idle idle hr)]

end idle

theorem eq_of_rows (h : t'.rows = t.rows) : t' = { t with events := t'.events } := by
  rw [rows, rows, Rows.mk.injEq] at h
  obtain ⟨parkings, sectors, reservations, addresses, bySector, byClient⟩ := h
  have sectors : t'.sectors = t.sectors := Table.ext fun k => congrFun sectors k
  have reservations : t'.reservations = t.reservations := Table.ext fun k => congrFun reservations k
  cases t
  cases t'
  simp_all

end Tables

/-! ### One sweep -/

theorem Operation.exists_phase {op : Operation} (h : op.isUpkeep = true) :
    ∃ phase id, op = SweepPhase.operation id phase := by
  cases op with
  | expire id => exact ⟨.expired, id, rfl⟩
  | forceExit id => exact ⟨.forceEnded, id, rfl⟩
  | close id => exact ⟨.closed, id, rfl⟩
  | finalizeDeactivation id => exact ⟨.deactivated, id, rfl⟩
  | _ => cases h

namespace Engine

variable {e : Engine} {cs : List Commit} {now later : Ms}

theorem Sound.invariant_sweep {P : Tables → Prop} (hs : e.Sound cs) (he : P e.tables)
    (kept : ∀ {t t' phase id}, t.Linked → t.SweepStep e.settings now phase id t' → P t → P t') :
    P (e.run (Request.program e.settings (.sweep now))).engine.tables := by
  refine hs.invariant (x := (e, cs)) (Program.Steps.request e.settings (.sweep now) e cs) he ?_
  rintro t _ op ids txn linked ⟨rfl, upkeep⟩ transition - before
  obtain ⟨phase, id, rfl⟩ := Operation.exists_phase upkeep
  exact kept linked (transition.sweepStep linked) before

/-- A sweep does nothing but what was to come anyway. -/
theorem Sound.forecast_sweep (hs : e.Sound cs) (hle : now ≤ later) :
    (e.run (Request.program e.settings (.sweep now))).engine.tables.forecast e.settings later =
      e.tables.forecast e.settings later := by
  let P (t : Tables) : Prop := t.forecast e.settings later = e.tables.forecast e.settings later
  refine hs.invariant_sweep (P := P) rfl fun linked step same => ?_
  exact (step.forecast linked hle).trans same

end Engine

end Carpark
