import Carpark.Proofs.GateLog
import Carpark.Proofs.Lifecycle

/-!
What a request can make of a reservation that is there. It is moved on once at most, and one that
has ended is never moved again.
-/

namespace Carpark

open Relation

def Request.now? : Request → Option Ms
  | .operation ctx _ => some ctx.now
  | .sweep now => some now
  | _ => none

theorem exists_entry_of_isInside {es : List GateEvent} (h : isInside es = true) :
    ∃ e ∈ es, e.kind = .entry := by
  obtain ⟨e, he, entry⟩ := (Option.any_eq_true _ _).1 h
  exact ⟨e, List.mem_of_getLast? he, by simpa using entry⟩

/-- How a reservation `r` with the gate log `es` may go on when it is this time. -/
structure Reservation.Advances (now : Option Ms) (r : Reservation) (es : List GateEvent)
    (r' : Reservation) (es' : List GateEvent) : Prop where
  fixed : r'.id = r.id ∧ r'.client = r.client ∧ r'.parking = r.parking ∧ r'.sector = r.sector ∧
    r'.window = r.window ∧ r'.booked = r.booked
  events : es' = es ∨ ∃ e, es' = es ++ [e]
  version : r' = r ∧ es' = es ∨
    r'.version = r.version + 1 ∧ ({ r' with version := r.version } ≠ r ∨ es' ≠ es)
  cancelled : r.status = .created → r'.status = .cancelled → es' = []
  expired : r.status = .created → r'.status = .expired →
    es' = [] ∧ ∃ t, now = some t ∧ r.window.stop < t
  ended : r.status = .created → r'.status = .ended → ∃ e ∈ es, e.kind = .entry
  terminal : r.status ≠ .created → r' = r ∧ es' = es

namespace Reservation

variable {settings : Settings} {now : Ms} {op : Operation} {r r' : Reservation}
  {es es' : List GateEvent}

theorem Advances.same (now : Option Ms) (r : Reservation) (es : List GateEvent) :
    r.Advances now es r es where
  fixed := ⟨rfl, rfl, rfl, rfl, rfl, rfl⟩
  events := .inl rfl
  version := .inl ⟨rfl, rfl⟩
  cancelled created cancelled := by cases created.symm.trans cancelled
  expired created expired := by cases created.symm.trans expired
  ended created ended := by cases created.symm.trans ended
  terminal _ := ⟨rfl, rfl⟩

namespace Moves

theorem terminal (h : r.Moves settings now es op r' es') (hop : op.isUpkeep = true) :
    r'.status ≠ .created := by
  cases h with
  | cancels | enters | leaves => cases hop
  | expires | evicts | closes => exact nofun

theorem events (h : r.Moves settings now es op r' es') : es' = es ∨ ∃ e, es' = es ++ [e] := by
  cases h with
  | cancels | expires | closes => exact .inl rfl
  | enters | leaves | evicts => exact .inr ⟨_, rfl⟩

theorem changes (h : r.Moves settings now es op r' es') :
    { r' with version := r.version } ≠ r ∨ es' ≠ es := by
  have created := h.created
  have status (s : Status) (hs : s ≠ .created) :
      { r with status := s, version := r.version } ≠ r := fun same =>
    hs (by rw [← created, ← congrArg Reservation.status same])
  cases h with
  | cancels | expires | closes => exact .inl (status _ nofun)
  | enters | leaves | evicts => exact .inr (by simp)

theorem unused_of_cancelled (h : r.Moves settings now es op r' es') (ho : r.Orderly es)
    (hs : r'.status = .cancelled) : es' = [] := by
  cases h with
  | cancels created unused => exact (ho.booked_of_unused created unused).1
  | enters created => cases created.symm.trans hs
  | leaves inside => grind [isOccupying_iff]
  | expires | evicts | closes => cases hs

theorem unused_of_expired (h : r.Moves settings now es op r' es') (ho : r.Orderly es)
    (hs : r'.status = .expired) : es' = [] ∧ r.window.stop < now := by
  cases h with
  | expires due =>
    obtain ⟨⟨created, late⟩, unused⟩ := isExpirable_iff.1 due
    exact ⟨(ho.booked_of_unused created unused).1, late⟩
  | enters created => cases created.symm.trans hs
  | leaves inside => grind [isOccupying_iff]
  | cancels | evicts | closes => cases hs

theorem used_of_ended (h : r.Moves settings now es op r' es') (hs : r'.status = .ended) :
    ∃ e ∈ es, e.kind = .entry := by
  cases h with
  | cancels | expires => cases hs
  | enters created => cases created.symm.trans hs
  | leaves inside => exact exists_entry_of_isInside (isOccupying_iff.1 inside).2
  | evicts due => exact exists_entry_of_isInside (isOccupying_iff.1 (isOverstayed_iff.1 due).1).2
  | closes due => simpa [hasEntered] using (isFinished_iff.1 due).1.2

theorem advance (h : r.Moves settings now es op r' es') (ho : r.Orderly es) :
    r.Advances (some now) es r' es' := by
  obtain ⟨id, client, parking, sector, window, booked, version⟩ := h.fixed
  exact {
    fixed := ⟨id, client, parking, sector, window, booked⟩
    events := h.events
    version := .inr ⟨version, h.changes⟩
    cancelled := fun _ => h.unused_of_cancelled ho
    expired := fun _ hs => (h.unused_of_expired ho hs).imp_right fun late => ⟨now, rfl, late⟩
    ended := fun _ => h.used_of_ended
    terminal := fun hr => absurd h.created hr }

end Moves

end Reservation

/-! ### Requests -/

/-- From the tables `t` to the tables `t'` the reservation `r` is moved on once, or not at all. -/
inductive Tables.Carries (settings : Settings) (clock : Option Ms) (t t' : Tables) (id : Ulid)
    (r : Reservation) : Prop
  | stays : t'.reservations.get? id = some r → t'.eventsOf id = t.eventsOf id →
    Carries settings clock t t' id r
  | moves {now : Ms} {op : Operation} {r' : Reservation} :
    clock = some now → t'.reservations.get? id = some r' →
    r.Moves settings now (t.eventsOf id) op r' (t'.eventsOf id) → Carries settings clock t t' id r

namespace Engine

variable {may : Engine → Request → Prop} {opens : List Commit → List Commit → Prop}
  {e e' : Engine} {cs cs' : List Commit} {id : Ulid} {r : Reservation}

theorem Sound.swept (hs : e.Sound cs) (now : Ms)
    (hr : e.tables.reservations.get? id = some r) :
    e.tables.Carries e.settings (some now)
      (e.run (Request.program e.settings (.sweep now))).engine.tables id r := by
  -- in the middle of the sweep the row is as it was, or has been moved on to an end
  let P (t : Tables) : Prop :=
    (t.reservations.get? id = some r ∧ t.eventsOf id = e.tables.eventsOf id) ∨
      ∃ op r', t.reservations.get? id = some r' ∧ r'.status ≠ .created ∧
        r.Moves e.settings now (e.tables.eventsOf id) op r' (t.eventsOf id)
  have steps := Program.Steps.request e.settings (.sweep now) e cs
  have swept : P (e.run (Request.program e.settings (.sweep now))).engine.tables := by
    refine hs.invariant (x := (e, cs)) steps (.inl ⟨hr, rfl⟩) ?_
    rintro t _ op ids txn linked ⟨rfl, upkeep⟩ transition hok before
    cases transition.turns linked hok id with
    | stays same events =>
      simp only [P, same, events]
      exact before
    | begins new =>
      rcases before with ⟨hr, -⟩ | ⟨_, _, hr, -⟩ <;> cases new.symm.trans hr
    | moves hb hr' moves =>
      rcases before with ⟨hr, events⟩ | ⟨_, _, hr, terminal, -⟩ <;> cases hb.symm.trans hr
      · rw [events] at moves
        exact .inr ⟨op, _, hr', moves.terminal upkeep, moves⟩
      · exact absurd moves.created terminal
  rcases swept with ⟨hr, events⟩ | ⟨op, r', hr', -, moves⟩
  · exact .stays hr events
  · exact .moves rfl hr' moves

theorem Sound.carries (hs : e.Sound cs) (q : Request)
    (hr : e.tables.reservations.get? id = some r) :
    e.tables.Carries e.settings q.now? (e.run (q.program e.settings)).engine.tables id r := by
  rcases hs.tables_request q with
    same | ⟨ctx, op, ids, txn, rfl, transition, hok, tables⟩ | ⟨now, rfl⟩
  · exact .stays (same ▸ hr) (congrArg (·.eventsOf id) same)
  · have turns := transition.turns hs.linked hok id
    rw [← tables] at turns
    cases turns with
    | stays same events => exact .stays (same.trans hr) events
    | begins new => cases new.symm.trans hr
    | moves hb hr' moves =>
      cases hr.symm.trans hb
      exact .moves rfl hr' moves
  · exact hs.swept now hr

/-! ### For ever -/

/-- What holds of a reservation and its gate log, and is kept by each of its moves, holds for ever,
unless the log is opened without the reservation. -/
theorem Leads.keeps {P : Reservation → List GateEvent → Prop}
    (h : Leads may opens e cs e' cs') (he : e.Reachable cs)
    (hr : e.tables.reservations.get? id = some r) (begun : P r (e.tables.eventsOf id))
    (kept : ∀ {settings now op r es r' es'}, Reservation.Moves settings now r es op r' es' →
      P r es → P r' es') :
    (∃ r', e'.tables.reservations.get? id = some r' ∧ P r' (e'.tables.eventsOf id)) ∨
      Drops may opens e cs e' cs' id := by
  induction h with
  | here => exact .inl ⟨r, hr, begun⟩
  | asked q before allowed ih =>
    refine ih.imp (fun ⟨a, ha, holds⟩ => ?_) (·.asked allowed)
    cases (before.reachable he).sound.carries q ha with
    | stays ha' events => exact ⟨a, ha', events ▸ holds⟩
    | moves _ ha' moves => exact ⟨_, ha', kept moves holds⟩
  | reopened settings notifier supply before opened allowed ih =>
    rcases ih with ⟨a, ha, holds⟩ | drops
    · rcases (before.reachable he).sound.reopens_cases opened with
        ⟨-, same⟩ | ⟨lost, rfl, large, less⟩
      · exact .inl ⟨a, same.reservations ▸ ha, same.events ▸ holds⟩
      · by_cases its : id = lost.id
        · exact .inr ⟨_, _, lost, _, settings, notifier, supply, before, its.symm, large, opened,
            allowed, .here⟩
        · have events := less.events id
          rw [if_neg its] at events
          exact .inl ⟨a, less.get?_reservation.2 ⟨its, ha⟩, events.symm ▸ holds⟩
    · exact .inr (drops.reopened opened allowed settings notifier supply)

theorem Leads.keeps_booking (h : Leads may opens e cs e' cs') (he : e.Reachable cs)
    (hr : e.tables.reservations.get? id = some r) :
    (∃ r', e'.tables.reservations.get? id = some r' ∧ r'.client = r.client ∧
      r'.sector = r.sector ∧ r'.window = r.window) ∨ Drops may opens e cs e' cs' id := by
  refine h.keeps (P := fun r' _ => r'.client = r.client ∧ r'.sector = r.sector ∧
    r'.window = r.window) he hr ⟨rfl, rfl, rfl⟩ fun moves ⟨client, sector, window⟩ => ?_
  obtain ⟨-, client', -, sector', window', -⟩ := moves.fixed
  exact ⟨client'.trans client, sector'.trans sector, window'.trans window⟩

theorem Leads.keeps_terminal (h : e.Onward cs e' cs') (he : e.Reachable cs)
    (hr : e.tables.reservations.get? id = some r) (terminal : r.status ≠ .created) :
    e'.tables.reservations.get? id = some r ∧ e'.tables.eventsOf id = e.tables.eventsOf id := by
  have kept := h.keeps (P := fun r' es => r' = r ∧ es = e.tables.eventsOf id) he hr ⟨rfl, rfl⟩
    fun moves same => absurd moves.created (same.1 ▸ terminal)
  obtain ⟨r', hr', rfl, events⟩ := kept.resolve_right Drops.of_onward
  exact ⟨hr', events⟩

/-- A request moves a reservation on by one step at most, and one that has ended never changes. -/
theorem Reachable.advances (he : e.Reachable cs)
    (hr : e.tables.reservations.get? id = some r) :
    (∀ q : Request,
      let t := (e.run (q.program e.settings)).engine.tables
      ∃ r', t.reservations.get? id = some r' ∧
        r.Advances q.now? (e.tables.eventsOf id) r' (t.eventsOf id)) ∧
    (r.status ≠ .created → ∀ e' cs', e.Onward cs e' cs' →
      e'.tables.reservations.get? id = some r ∧
        e'.tables.eventsOf id = e.tables.eventsOf id) := by
  refine ⟨fun q => ?_, fun terminal e' cs' onward => onward.keeps_terminal he hr terminal⟩
  intro t
  cases he.sound.carries q hr with
  | stays hr' events =>
    refine ⟨r, hr', ?_⟩
    rw [events]
    exact .same _ _ _
  | moves clock hr' moves =>
    rw [clock]
    exact ⟨_, hr', moves.advance (he.orderly id r hr)⟩

def oneExit : Request := .operation ⟨.system, 10⟩ (.exit (.ofNat 4) none true)

set_option maxRecDepth 10000 in
theorem advances_oneExit :
    let left := (oneCar.run (oneExit.program oneCar.settings)).engine
    ∃ cs r r', oneCar.Reachable cs ∧ oneCar.tables.reservations.get? (.ofNat 4) = some r ∧
      r.status = .created ∧ left.tables.reservations.get? (.ofNat 4) = some r' ∧
      r'.status = .ended ∧ r'.version = 2 ∧
      r.Advances (some 10) (oneCar.tables.eventsOf (.ofNat 4)) r'
        (left.tables.eventsOf (.ofNat 4)) ∧
      ∃ cs', left.Reachable cs' ∧ ∀ e' cs'', left.Onward cs' e' cs'' →
        e'.tables.reservations.get? (.ofNat 4) = some r' ∧
          e'.tables.eventsOf (.ofNat 4) = left.tables.eventsOf (.ofNat 4) := by
  intro left
  obtain ⟨cs, reachable⟩ : ∃ cs, oneCar.Reachable cs := (Reachable.fresh _ _ _ _).serve _
  let r := Reservation.driveIn {} 0 (.ofNat 4) (.ofNat 1) (.ofNat 2) none (Ulid.ofNat 3).code
  have hr : oneCar.tables.reservations.get? (.ofNat 4) = some r := by decide
  have hr' : left.tables.reservations.get? (.ofNat 4) =
      some { r with status := .ended, version := 2 } := by decide
  obtain ⟨r', row, advance⟩ := (Reachable.advances reachable hr).1 oneExit
  cases hr'.symm.trans row
  have again := reachable.asked oneExit
  exact ⟨cs, r, _, reachable, hr, rfl, hr', rfl, rfl, advance, _, again,
    (Reachable.advances again hr').2 nofun⟩

end Engine

end Carpark
