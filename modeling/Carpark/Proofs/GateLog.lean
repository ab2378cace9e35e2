import Carpark.Proofs.Occupancy
import Carpark.Proofs.Reachable

/-!
The ledger of every reachable engine and its gate log. They agree but for places that are lost with
a reservation when the log is opened anew, and an operator who asks for the occupancy of a sector is
told what the gate log says.
-/

namespace Carpark

/-! ### Reading the gate log -/

theorem Listing.sees_countOccupying (t : Tables) (rs : List Reservation) :
    Lookup.Sees id Eq (countOccupying rs) t [] (rs.countP fun r => r.isOccupying (t.eventsOf r.id))
      t := by
  induction rs with
  | nil => exact Lookup.sees_pure.2 ⟨rfl, rfl, rfl⟩
  | cons r rs ih =>
    simp only [countOccupying, Lookup.sees_events_bind]
    refine ⟨t, rfl, Lookup.sees_bind.2 ⟨_, t, [], [], rfl, ih, Lookup.sees_pure.2 ⟨?_, rfl, rfl⟩⟩⟩
    rw [List.countP_cons]
    cases h : r.isOccupying (t.eventsOf r.id) <;> simp [h, Nat.add_comm]

theorem Tables.countP_reservationsOfSector {t : Tables} (ht : t.Indexed) (k : Ulid) :
    (t.reservationsOfSector k).countP (fun r => r.isOccupying (t.eventsOf r.id)) = t.inside k := by
  rw [(ht.reservationsOfSector_perm k).countP_eq, List.countP_filter, inside]
  refine List.countP_congr fun r _ => ?_
  simp [occupies, Bool.and_comm]

theorem Listing.sees_occupancy {t : Tables} (ht : t.Indexed) {k : Ulid} {s : Sector}
    (hs : t.sectors.get? k = some s) :
    Lookup.Sees id Eq (occupancy k) t [] (t.inside k) t := by
  simp only [occupancy, Lookup.sees_sector_bind, Lookup.sees_reservationsOfSector_bind]
  refine ⟨s, t, ⟨rfl, hs⟩, t, rfl, _, t, Lookup.seesRows_alone _ t _, ?_⟩
  rw [← Tables.countP_reservationsOfSector ht]
  exact sees_countOccupying t _

/-! ### What becomes of the balance -/

namespace Tables

variable {t t' : Tables} {lost : Ulid → Nat}

theorem Alike.balanced (h : t.Alike t') (hb : t.Balanced lost) : t'.Balanced lost :=
  hb.of_subset (fun _ _ hs => h.sectors ▸ hs) (inside_eq_of_same h.reservations.symm h.events.symm)

theorem Forgets.inside {r : Reservation} (h : t.Forgets r t') (ht : t.Linked) (k : Ulid) :
    t'.inside k + (t.occupies k r).toNat = t.inside k := by
  have others : t'.inside k = (t.reservations.erase r.id).values.countP (t.occupies k) := by
    rw [Tables.inside, h.reservations]
    refine List.countP_congr fun a ha => ?_
    obtain ⟨id, ha⟩ := Table.mem_values.1 ha
    rw [Table.get?_erase] at ha
    split at ha
    next => cases ha
    next other =>
      rw [← ht.reservation_id ha] at other
      rw [occupies, occupies, h.events, if_neg other]
  rw [others, Tables.inside, (Table.values_perm_erase h.row).countP_eq, List.countP_cons]
  cases t.occupies k r <;> rfl

theorem Forgets.balanced {r : Reservation} (h : t.Forgets r t') (ht : t.Linked)
    (hb : t.Balanced lost) : t'.Balanced fun k => lost k + (t.occupies k r).toNat := by
  intro k s hs
  have before := hb k s (h.sectors ▸ hs)
  have counted := h.inside ht k
  dsimp only
  omega

end Tables

theorem Transition.sector_of_upkeep {settings : Settings} {ctx : Context} {t : Tables}
    {op : Operation} {ids : List Ulid} {txn : Txn} (h : Transition settings ctx t op ids txn)
    (upkeep : op.isUpkeep) {k : Ulid} (none : (t.apply txn.writes).sectors.get? k = none) :
    t.sectors.get? k = .none := by
  have others {s : Sector} (h : (t.sectors.insert s.id s).get? k = .none) :
      t.sectors.get? k = .none := by
    rw [Table.get?_insert] at h
    split at h
    next => cases h
    next => exact h
  cases h with
  | expire | close => exact t.sectors_putReservation _ ▸ none
  | forceExit =>
    change (t.apply [.putSector _, .putReservation _, .appendEvent _]).sectors.get? k =
      .none at none
    rw [Tables.apply_gate, Tables.sectors_addEvent, Tables.sectors_putReservation] at none
    exact others none
  | finalize => exact others none
  | _ => cases upkeep

/-! ### Reachable engines -/

namespace Engine

variable {settings : Settings} {e : Engine} {cs : List Commit} {lost : Ulid → Nat}

theorem Sound.balanced (hs : e.Sound cs) (q : Request) (hb : e.tables.Balanced lost)
    (absent : ∀ k, e.tables.sectors.get? k = none → lost k = 0) :
    (e.run (q.program e.settings)).engine.tables.Balanced lost := by
  rcases hs.tables_request q with same | ⟨_, _, _, _, rfl, transition, hok, tables⟩ | ⟨now, rfl⟩
  · exact same ▸ hb
  · rw [tables]
    exact transition.balanced hs.linked hb absent hok
  · let P (t : Tables) : Prop := t.Balanced lost ∧ ∀ k, t.sectors.get? k = none → lost k = 0
    refine (hs.invariant (x := (e, cs)) (P := P)
      (Program.Steps.request e.settings (.sweep now) e cs) ⟨hb, absent⟩ ?_).1
    rintro t _ op ids txn linked ⟨-, upkeep⟩ transition hok ⟨hb, absent⟩
    exact ⟨transition.balanced linked hb absent hok, fun k none =>
      absent k (transition.sector_of_upkeep upkeep none)⟩

/-- The places of each sector that are lost: taken by a car whose reservation was not read again. -/
inductive Loses : Engine → List Commit → (Ulid → Nat) → Prop
  | begun (settings : Settings) (notifier : Notifier) (supply : Nat → Ulid) (obstructed : Bool) :
    Loses (fresh settings notifier supply obstructed) [] fun _ => 0
  | asked {e : Engine} {cs : List Commit} {lost : Ulid → Nat} (q : Request) : Loses e cs lost →
    Loses (e.run (q.program e.settings)).engine (e.logged cs (q.program e.settings))
      ((e.run (q.program e.settings)).engine.tables.remaining lost)
  | whole {e : Engine} {cs : List Commit} {lost : Ulid → Nat} {store : Store}
      (settings : Settings) (notifier : Notifier) (supply : Nat → Ulid) : Loses e cs lost →
    e.Reopens cs store cs → Loses (.ofStore settings notifier supply store) cs lost
  | cut {e : Engine} {kept : List Commit} {lost : Ulid → Nat} {store : Store} {r : Reservation}
      (settings : Settings) (notifier : Notifier) (supply : Nat → Ulid) :
    Loses e (kept ++ [e.tables.reservationCommit r]) lost →
    e.Reopens (kept ++ [e.tables.reservationCommit r]) store kept →
    Loses (.ofStore settings notifier supply store) kept
      fun k => lost k + (e.tables.occupies k r).toNat

theorem Loses.reachable (h : e.Loses cs lost) : e.Reachable cs := by
  induction h with
  | begun => exact .fresh _ _ _ _
  | asked q _ ih => exact ih.asked q
  | whole _ _ _ _ opened ih => exact ih.reopened opened _ _ _
  | cut _ _ _ _ opened ih => exact ih.reopened opened _ _ _

theorem Reachable.loses (h : e.Reachable cs) : ∃ lost, e.Loses cs lost := by
  induction h using Reachable.induct with
  | begun => exact ⟨_, .begun _ _ _ _⟩
  | asked q _ ih =>
    obtain ⟨lost, ih⟩ := ih
    exact ⟨_, ih.asked q⟩
  | reopened _ _ _ before opened ih =>
    obtain ⟨lost, ih⟩ := ih
    rcases before.sound.reopens_cases opened with ⟨rfl, -⟩ | ⟨r, rfl, -, -⟩
    · exact ⟨_, ih.whole _ _ _ opened⟩
    · exact ⟨_, ih.cut _ _ _ opened⟩

theorem Loses.balanced (h : e.Loses cs lost) :
    e.tables.Balanced lost ∧ ∀ k, e.tables.sectors.get? k = none → lost k = 0 := by
  induction h with
  | begun => exact ⟨Tables.balanced_empty _, fun _ _ => rfl⟩
  | asked q before ih =>
    refine ⟨(before.reachable.sound.balanced q ih.1 ih.2).remaining, fun k none => ?_⟩
    rw [Tables.remaining, none, Option.elim_none]
  | whole _ _ _ before opened ih =>
    have alike := before.reachable.sound.alike_of_reopens opened
    exact ⟨alike.balanced ih.1, alike.sectors ▸ ih.2⟩
  | @cut e kept lost store r _ _ _ before opened ih =>
    have sound := before.reachable.sound
    rcases sound.reopens_cases opened with ⟨same, -⟩ | ⟨r', last, -, forgets⟩
    · simp at same
    · -- the commit that is missing says which reservation it is
      cases (List.append_inj' last rfl).2
      refine ⟨forgets.balanced sound.linked ih.1, fun k none => ?_⟩
      have none : e.tables.sectors.get? k = .none := forgets.sectors ▸ none
      have counted := forgets.inside sound.linked k
      rw [Tables.inside_eq_zero sound.linked none] at counted
      exact Nat.add_eq_zero_iff.2 ⟨ih.2 k none, (Nat.add_eq_zero_iff.1 counted).2⟩

theorem Leads.loses {settings : Settings} {notifier : Notifier} {supply : Nat → Ulid}
    {obstructed : Bool} (h : (fresh settings notifier supply obstructed).Onward [] e cs) :
    e.Loses cs fun _ => 0 := by
  induction h with
  | here => exact .begun _ _ _ _
  | asked q _ _ ih =>
    have none (t : Tables) : (t.remaining fun _ => 0) = fun _ => 0 := by
      funext k
      rw [Tables.remaining]
      cases t.sectors.get? k <;> rfl
    rw [← none (Engine.run _ _).engine.tables]
    exact ih.asked q
  | reopened _ _ _ _ opened whole ih =>
    cases whole
    exact ih.whole _ _ _ opened

theorem Reachable.balanced (h : e.Reachable cs) : ∃ lost, e.tables.Balanced lost := by
  obtain ⟨lost, loses⟩ := h.loses
  exact ⟨lost, loses.balanced.1⟩

theorem answer_occupancy {k : Ulid} {s : Sector} (ht : e.tables.Indexed)
    (hs : e.tables.sectors.get? k = some s) :
    (e.run (Request.program settings (.occupancy k))).answer =
      .ok (.number (e.tables.inside k)) := by
  have eval := Reading.eval_of_sees (Listing.sees_occupancy ht hs) e.supply e.drawn (by simp)
  rw [Request.program, Program.answering, run_bind_answer, Program.ofLookup, run_ofReading, eval]
  rfl

/-- Each place of a sector is free, has a car on it or is lost, and none is lost while all of the
log is read again. The occupancy agrees with the ledger exactly if none is lost. -/
theorem Reachable.places_accounted (h : e.Reachable cs) :
    (∃ lost, e.Loses cs lost) ∧
      (∀ settings notifier supply obstructed,
        (Engine.fresh settings notifier supply obstructed).Onward [] e cs → e.Loses cs fun _ => 0) ∧
      ∀ lost, e.Loses cs lost → ∀ k s, e.tables.sectors.get? k = some s →
        s.availablePlaces ≤ s.maxPlaces ∧
        e.tables.inside k + lost k = s.maxPlaces - s.availablePlaces ∧
        (e.run (Request.program e.settings (.occupancy k))).answer =
          .ok (.number (e.tables.inside k)) ∧
        e.tables.inside k ≤ s.maxPlaces ∧ (e.tables.inside k = s.occupied ↔ lost k = 0) := by
  refine ⟨h.loses, fun _ _ _ _ whole => whole.loses, fun lost loses k s hs => ?_⟩
  have balance := loses.balanced.1 k s hs
  have occupied : s.occupied = s.maxPlaces - s.availablePlaces := rfl
  exact ⟨by omega, by omega, answer_occupancy h.linked.toIndexed hs, by omega, by omega⟩

/-- A car without a booking has just driven into a new sector of two places. -/
def oneCar : Engine :=
  (fresh {} .silent (fun n => .ofNat (n + 1)) false).serve [
    .operation ⟨.system, 0⟩ (.createParking ⟨"Rome", "00100", "Corso 1"⟩ none),
    .operation ⟨.system, 0⟩ (.addSector (.ofNat 1) ⟨"AB-01", .covered, 2, 1⟩),
    .operation ⟨.anonymous, 0⟩ (.driveIn (.ofNat 1) true)]

set_option maxRecDepth 10000 in
theorem places_accounted_oneCar :
    ∃ cs lost s, oneCar.Loses cs lost ∧ oneCar.tables.sectors.get? (.ofNat 2) = some s ∧
      s.maxPlaces = 2 ∧ s.availablePlaces = 1 ∧ oneCar.tables.inside (.ofNat 2) = 1 ∧
      lost (.ofNat 2) = 0 ∧
      (oneCar.run (Request.program oneCar.settings (.occupancy (.ofNat 2)))).answer =
        .ok (.number s.occupied) := by
  obtain ⟨cs, reachable⟩ : ∃ cs, oneCar.Reachable cs := (Reachable.fresh _ _ _ _).serve _
  have hs : oneCar.tables.sectors.get? (.ofNat 2) = some
      { Sector.ofSpec (.ofNat 2) (.ofNat 1) ⟨"AB-01", .covered, 2, 1⟩ with
        availablePlaces := 1, version := 2 } := by decide
  obtain ⟨⟨lost, loses⟩, -, places⟩ := Reachable.places_accounted reachable
  obtain ⟨-, -, answer, -, same⟩ := places lost loses _ _ hs
  have inside : oneCar.tables.inside (.ofNat 2) = 1 := by decide
  rw [inside] at answer
  exact ⟨cs, lost, _, loses, hs, rfl, rfl, inside, same.1 inside, answer⟩

end Engine

end Carpark
