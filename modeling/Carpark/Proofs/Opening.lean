import Carpark.Proofs.Departure

/-!
A booking is admitted only where its sector is open and not due to close before the window ends.
As long as nobody switches the sector, who comes within the window finds it open, but for the one
instant at which it closes just when the window ends.
-/

namespace Carpark

def Operation.switches (sector : Ulid) : Operation → Bool
  | .activateSector id _ | .deactivateSector id _ _ | .finalizeDeactivation id => id = sector
  | _ => false

/-! ### Open sectors -/

namespace Sector

def StaysOpen (s : Sector) (stop : Ms) : Prop :=
  s.active = true ∧ ∀ time, s.deactivation = some time → stop ≤ time

variable {s s' : Sector} {stop now : Ms}

theorem StaysOpen.of_same (h : s.StaysOpen stop)
    (same : s'.active = s.active ∧ s'.deactivation = s.deactivation) : s'.StaysOpen stop := by
  rw [StaysOpen, same.1, same.2]
  exact h

theorem StaysOpen.of_admits {window : Span} (h : Booking.admits s now window = true) :
    s.StaysOpen window.stop := by
  simp only [Booking.admits, isActiveAt, Bool.and_eq_true, Option.all_eq_true,
    decide_eq_true_eq] at h
  exact ⟨h.1.1, h.2⟩

theorem StaysOpen.isActiveAt_iff (h : s.StaysOpen stop) (hle : now ≤ stop) :
    s.isActiveAt now = true ↔ s.deactivation ≠ some now := by
  simp only [isActiveAt, h.1, Bool.true_and, Option.all_eq_true, decide_eq_true_eq]
  constructor
  · intro before same
    exact Int.lt_irrefl _ (before now same)
  · intro differs time due
    have late := h.2 time due
    rcases Int.lt_or_eq_of_le (Int.le_trans hle late) with before | rfl
    · exact before
    · exact absurd due differs

end Sector

/-! ### Transitions -/

theorem Txn.change_of_putSector {txn : Txn} {s' : Sector} (h : .putSector s' ∈ txn.writes) :
    (∃ s, .insertSector s ∈ txn ∧ s' = { s with version := 1 }) ∨
      ∃ s, .updateSector s ∈ txn ∧ s' = { s with version := s.version + 1 } := by
  obtain ⟨c, hc, written⟩ := List.mem_filterMap.1 h
  cases c with
  | insertSector s => exact .inl ⟨s, hc, by simpa [Change.write?, eq_comm] using written⟩
  | updateSector s => exact .inr ⟨s, hc, by simpa [Change.write?, eq_comm] using written⟩
  | _ => simp [Change.write?] at written

namespace Transition

variable {settings : Settings} {ctx : Context} {t : Tables} {op : Operation} {ids : List Ulid}
  {txn : Txn} {k : Ulid} {s s' : Sector}

theorem opening_of_updateSector (h : Transition settings ctx t op ids txn) (ht : t.Linked)
    (hs' : .updateSector s' ∈ txn) (spared : op.switches s'.id = false) :
    ∃ s, t.sectors.get? s'.id = some s ∧ s'.active = s.active ∧
      s'.deactivation = s.deactivation := by
  have row {id : Ulid} {b : Sector} (hb : t.sectors.get? id = some b) (hid : s'.id = b.id)
      (active : s'.active = b.active) (deactivation : s'.deactivation = b.deactivation) :
      ∃ s, t.sectors.get? s'.id = some s ∧ s'.active = s.active ∧
        s'.deactivation = s.deactivation :=
    ⟨b, by rw [hid, ht.sector_id hb, hb], active, deactivation⟩
  cases h with
  | updateSector _ _ hb | renameSector _ _ hb | book _ hb =>
    simp only [List.mem_cons, Change.updateSector.injEq, reduceCtorEq, List.not_mem_nil, or_false,
      false_or] at hs'
    subst hs'
    exact row hb rfl rfl rfl
  | activateSector _ hb | deactivateSector _ hb | finalize _ hb =>
    simp only [List.mem_singleton, Change.updateSector.injEq] at hs'
    subst hs'
    simp [Operation.switches, ht.sector_id hb] at spared
  | enter _ _ _ _ _ _ hb taken | driveIn _ _ hb taken =>
    obtain ⟨-, rfl⟩ := Sector.takePlace_eq_ok.1 taken
    simp only [List.mem_cons, Change.updateSector.injEq, reduceCtorEq, List.not_mem_nil,
      or_false] at hs'
    subst hs'
    exact row hb rfl rfl rfl
  | exit _ _ _ _ hb freed | forceExit _ _ _ hb freed =>
    obtain ⟨-, rfl⟩ := Sector.freePlace_eq_ok.1 freed
    simp only [List.mem_cons, Change.updateSector.injEq, reduceCtorEq, List.not_mem_nil,
      or_false] at hs'
    subst hs'
    exact row hb rfl rfl rfl
  | _ => simp at hs'

theorem opening_of_insertSector (h : Transition settings ctx t op ids txn)
    (hs' : .insertSector s' ∈ txn) : s'.active = true ∧ s'.deactivation = none := by
  cases h with
  | addSector =>
    simp only [List.mem_cons, Change.insertSector.injEq, reduceCtorEq, List.not_mem_nil, or_false,
      false_or] at hs'
    subst hs'
    exact ⟨rfl, rfl⟩
  | _ => simp at hs'

/-- The sector is new and open, or is switched as it was. -/
theorem opening (h : Transition settings ctx t op ids txn) (ht : t.Linked)
    (spared : op.switches k = false) (hs' : (t.apply txn.writes).sectors.get? k = some s') :
    s'.active = true ∧ s'.deactivation = none ∨
      ∃ s, t.sectors.get? k = some s ∧ s'.active = s.active ∧
        s'.deactivation = s.deactivation := by
  rcases Tables.sectors_of_apply hs' with same | ⟨rfl, put⟩
  · exact .inr ⟨s', same, rfl, rfl⟩
  · rcases Txn.change_of_putSector put with ⟨b, hb, rfl⟩ | ⟨b, hb, rfl⟩
    · have new := h.opening_of_insertSector hb
      exact .inl new
    · have row := h.opening_of_updateSector ht hb spared
      exact .inr row

end Transition

/-! ### Sectors that are spared -/

/-- If the sector is there, it stays open until then. -/
def Tables.StaysOpen (t : Tables) (sector : Ulid) (stop : Ms) : Prop :=
  ∀ s, t.sectors.get? sector = some s → s.StaysOpen stop

theorem Transition.staysOpen {settings : Settings} {ctx : Context} {t : Tables} {op : Operation}
    {ids : List Ulid} {txn : Txn} {sector : Ulid} {stop : Ms}
    (h : Transition settings ctx t op ids txn) (ht : t.Linked)
    (spared : op.switches sector = false) (isOpen : t.StaysOpen sector stop) :
    (t.apply txn.writes).StaysOpen sector stop := by
  intro s' hs'
  rcases h.opening ht spared hs' with ⟨active, none⟩ | ⟨s, hs, same⟩
  · exact ⟨active, by simp [none]⟩
  · exact (isOpen s hs).of_same same

/-- The request switches the sector neither on nor off, and closes it not by sweeping either. -/
def Request.Spares (e : Engine) (sector : Ulid) (q : Request) : Prop :=
  match q with
  | .operation _ op => op.switches sector = false ∨
    (e.run (q.program e.settings)).engine.tables = e.tables
  | .sweep now => ∀ s, e.tables.sectors.get? sector = some s → s.isLapsed now = false
  | _ => True

namespace Engine

variable {opens : List Commit → List Commit → Prop} {e e' : Engine} {cs cs' : List Commit}
  {sector : Ulid} {stop : Ms}

theorem Sound.staysOpen_sweep (hs : e.Sound cs) {now : Ms} (isOpen : e.tables.StaysOpen sector stop)
    (spared : Request.Spares e sector (.sweep now)) :
    (e.run (Request.program e.settings (.sweep now))).engine.tables.StaysOpen sector stop := by
  let P (t : Tables) : Prop := t.StaysOpen sector stop ∧
    ∀ s, t.sectors.get? sector = some s → s.isLapsed now = false
  have steps := Program.Steps.request e.settings (.sweep now) e cs
  refine (hs.invariant (x := (e, cs)) (P := P) steps ⟨isOpen, spared⟩ ?_).1
  rintro t _ op ids txn linked ⟨rfl, upkeep⟩ transition - ⟨isOpen, ahead⟩
  have other : op.switches sector = false := by
    cases transition with
    | expire | forceExit | close => rfl
    | @finalize id s _ row lapsed =>
      refine decide_eq_false fun same => ?_
      exact Bool.false_ne_true ((ahead s (same ▸ row)).symm.trans lapsed)
    | _ => cases upkeep
  refine ⟨transition.staysOpen linked other isOpen, fun s' row' => ?_⟩
  rcases transition.opening linked other row' with ⟨-, none⟩ | ⟨s, row, active, deactivation⟩
  · simp [Sector.isLapsed, none]
  · rw [Sector.isLapsed, active, deactivation]
    exact ahead s row

theorem Sound.staysOpen (hs : e.Sound cs) (q : Request) (isOpen : e.tables.StaysOpen sector stop)
    (spared : q.Spares e sector) :
    (e.run (q.program e.settings)).engine.tables.StaysOpen sector stop := by
  rcases hs.tables_request q with same | ⟨_, _, _, _, rfl, transition, -, tables⟩ | ⟨now, rfl⟩
  · exact same ▸ isOpen
  · rcases spared with other | same
    · rw [tables]
      exact transition.staysOpen hs.linked other isOpen
    · exact same ▸ isOpen
  · exact hs.staysOpen_sweep isOpen spared

/-- The engines that come about while a sector is spared. -/
abbrev Sparing (sector : Ulid) (opens : List Commit → List Commit → Prop) (e : Engine)
    (cs : List Commit) : Engine → List Commit → Prop :=
  Leads (fun e q => q.Spares e sector) opens e cs

theorem Leads.staysOpen (h : Sparing sector opens e cs e' cs') (he : e.Reachable cs)
    (isOpen : e.tables.StaysOpen sector stop) : e'.tables.StaysOpen sector stop := by
  induction h with
  | here => exact isOpen
  | asked q later spared ih => exact (later.reachable he).sound.staysOpen q ih spared
  | @reopened _ _ _ store _ _ _ later opened _ ih =>
    have same := (later.reachable he).sound.sectors_of_reopens opened
    change store.tables.StaysOpen sector stop
    rwa [Tables.StaysOpen, same]

end Engine

/-! ### Bookings that are made -/

theorem Lookup.sees_of_eval {α : Type} {a : Lookup α} {x : α} {t : Tables} {ids : Nat → Ulid}
    {n n' : Nat} (h : a.run.eval t ids n = (.ok x, n')) :
    Lookup.Sees (fun t => t) Eq a t (Reading.drawn ids n n') x t := by
  have sees : Reading.Sees (fun t => t) Eq a.run t _ (a.run.eval t ids n).1 t :=
    Reading.sees_eval rfl ids a.run n
  rwa [h] at sees

namespace Engine

variable {e : Engine} {cs : List Commit} {r : Reservation}

theorem run_book {settings : Settings} {ctx : Context} {start stop : Ms} {client : Ulid}
    {window : Span} (asked : Booking.request settings ctx start stop = .ok (client, window))
    (e : Engine) (sector : Ulid) :
    let o := e.run (Program.retrying settings .makeReservation
      (Booking.makeAttempt ctx client sector window))
    let o' := e.run ((Operation.book sector start stop).program settings ctx)
    o'.answer = o.answer.map .reservation ∧ o'.engine = o.engine := by
  obtain ⟨f, make, silent⟩ : ∃ f, Booking.make settings ctx sector start stop =
      Program.retrying settings .makeReservation (Booking.makeAttempt ctx client sector window) >>=
        f ∧ ∀ r, Program.Silent (f r) r := by
    refine ⟨_, by rw [Booking.make, asked], fun r => ?_⟩
    cases r with
    | error _ => exact .bind (.count _) (.pure _)
    | ok _ => exact .bind (.count _) (.bind (.line _) (.bind (.inform _ _) (.pure _)))
  rw [Operation.program, make]
  exact run_bind_answering e _ (g := fun r => r) silent _

theorem Reachable.booked (h : e.Reachable cs) {ctx : Context} {sector : Ulid}
    {start stop : Ms}
    (booked : (e.run ((Operation.book sector start stop).program e.settings ctx)).answer =
      .ok (.reservation r)) :
    let t := (e.run ((Operation.book sector start stop).program e.settings ctx)).engine.tables
    r.sector = sector ∧ t.StaysOpen sector r.window.stop ∧
      ∃ r', t.reservations.get? r.id = some r' ∧ r'.client = r.client ∧ r'.sector = r.sector ∧
        r'.window = r.window := by
  intro t
  cases asked : Booking.request e.settings ctx start stop with
  | error f =>
    rw [Operation.program, Booking.make, asked] at booked
    cases booked
  | ok who =>
    obtain ⟨client, window⟩ := who
    obtain ⟨answer, engine⟩ := run_book asked e sector
    rw [booked] at answer
    rw [show t = _ from congrArg Engine.tables engine]
    cases made : (e.run (Program.retrying e.settings .makeReservation
        (Booking.makeAttempt ctx client sector window))).answer with
    | error f =>
      rw [made] at answer
      cases answer
    | ok r' =>
      rw [made] at answer
      cases answer
      obtain ⟨n, n', plan, staged, rfl, tables⟩ := exists_plan_of_retrying made
      have sees := Lookup.sees_of_eval staged
      simp only [Booking.makeAttempt, Lookup.sees_sector_bind, Lookup.sees_guard,
        Lookup.sees_reservationsOfSector_bind, Lookup.sees_draw_bind, Lookup.sees_pure] at sees
      obtain ⟨s, _, ⟨rfl, hs⟩, admits, _, -, _, _, -, -, u, _, -, rfl, -, -⟩ := sees
      have hid := h.linked.sector_id hs
      have isOpen : s.StaysOpen window.stop := .of_admits (by simpa using admits)
      rw [tables rfl]
      refine ⟨rfl, fun s' hs' => ?_, _, ?_, rfl, rfl, rfl⟩
      · change ((e.tables.putSector _).putReservation _).sectors.get? sector = _ at hs'
        obtain rfl : { s with version := s.version + 1 } = s' := by simpa [hid] using hs'
        exact isOpen.of_same ⟨rfl, rfl⟩
      · change ((e.tables.putSector _).putReservation _).reservations.get? u = _
        simp

end Engine

/-! ### At the entry -/

namespace Gate

variable {ctx : Context} {t : Tables} {id : Ulid} {r : Reservation} {s : Sector}

theorem eval_enterAttempt (hr : t.reservations.get? id = some r)
    (owner : r.requireOwner ctx.caller = .ok ()) (created : r.status = .created)
    (outside : r.isOccupying (t.eventsOf id) = false) (covers : r.window.covers ctx.now = true)
    (hs : t.sectors.get? r.sector = some s) (ids : Nat → Ulid) (n : Nat) :
    (enterAttempt ctx id).run.eval t ids n =
      match s.takePlace ctx.now with
      | .error f => (.error f, n)
      | .ok taken =>
        (.ok ⟨[.updateSector taken, .updateReservation { r with code := some (ids n).code },
            .appendEvent ⟨ids (n + 1), id, ctx.now, .entry, false⟩],
          ⟨id, (ids n).code, s.parking, s.id, s.name, ctx.now⟩⟩, n + 2) := by
  simp only [Span.covers, Bool.and_eq_true, decide_eq_true_eq] at covers
  rw [enterAttempt, Lookup.eval_bind_of (Lookup.eval_reservation hr), owner,
    if_neg (by simp [created])]
  change (if r.isOccupying (t.eventsOf id) then _ else _ : Lookup _).run.eval t ids n = _
  rw [outside, if_neg (by simp), if_neg (Int.not_lt.2 covers.1), if_neg (Int.not_lt.2 covers.2)]
  have found : (Lookup.sector r.sector).run.eval t ids n = (.ok s, n) :=
    Reading.eval_of_sees (Lookup.sees_sector.2 ⟨⟨rfl, hs⟩, rfl⟩) ids n (by simp)
  rw [Lookup.eval_bind_of found]
  cases s.takePlace ctx.now <;> rfl

end Gate

namespace Engine

variable {e e' : Engine} {cs cs' : List Commit} {r : Reservation} {s : Sector}

theorem Reachable.enters (h : e.Reachable cs) (hr : e.tables.reservations.get? r.id = some r)
    {ctx : Context} (owner : r.requireOwner ctx.caller = .ok ()) (created : r.status = .created)
    (outside : r.isOccupying (e.tables.eventsOf r.id) = false)
    (covers : r.window.covers ctx.now = true) (hs : e.tables.sectors.get? r.sector = some s) :
    let answer := (e.run ((Operation.enter r.id).program e.settings ctx)).answer
    (s.canTake ctx.now = true →
      ∃ code, answer = .ok (.ticket ⟨r.id, code, s.parking, s.id, s.name, ctx.now⟩)) ∧
    (s.canTake ctx.now = false → answer = .error (.capacityExhausted s.id)) := by
  intro answer
  have staged := Gate.eval_enterAttempt hr owner created outside covers hs e.supply e.drawn
  obtain ⟨answered, -⟩ := run_enter e.settings ctx e r.id
  have hid := h.linked.sector_id hs
  constructor
  · intro free
    rw [Sector.takePlace, if_pos free] at staged
    have accepted : e.tables.refusal? [
        .updateSector { s with availablePlaces := s.availablePlaces - 1 },
        .updateReservation { r with code := some (e.supply e.drawn).code },
        .appendEvent ⟨e.supply (e.drawn + 1), r.id, ctx.now, .entry, false⟩] = none := by
      refine Tables.refusal?_eq_none.2 ?_
      simp [Change.suits, hid, hs, hr]
    obtain ⟨entered, -⟩ := run_retrying e.settings .enterWithReservation staged
      (congrArg Prod.fst (Store.commit_of_accepted rfl accepted []).1)
    rw [entered] at answered
    exact ⟨_, answered⟩
  · intro full
    rw [Sector.takePlace, if_neg (by simp [full])] at staged
    rw [run_retrying_error e.settings .enterWithReservation staged rfl] at answered
    exact answered

/-- Within the window of a booking the sector is open, unless it is due to close at that very
instant. The owner is let in exactly if it is open and has a place, unless the log was opened
without the booking. -/
theorem Reachable.booked_enters (h : e.Reachable cs) {ctx : Context} {sector : Ulid}
    {start stop : Ms} {opens : List Commit → List Commit → Prop}
    (booked : (e.run ((Operation.book sector start stop).program e.settings ctx)).answer =
      .ok (.reservation r))
    (later : Sparing sector opens
      (e.run ((Operation.book sector start stop).program e.settings ctx)).engine
      (e.logged cs ((Operation.book sector start stop).program e.settings ctx)) e' cs') :
    (∀ s, e'.tables.sectors.get? sector = some s → ∀ now, r.window.covers now = true →
      (s.isActiveAt now = true ↔ s.deactivation ≠ some now) ∧
      (s.deactivation = some now → now = r.window.stop)) ∧
    ((∃ s r', e'.tables.sectors.get? sector = some s ∧
      e'.tables.reservations.get? r.id = some r' ∧ r'.client = r.client ∧ r'.sector = sector ∧
      r'.window = r.window ∧ ∀ ctx' : Context, r.window.covers ctx'.now = true →
        r'.requireOwner ctx'.caller = .ok () → r'.status = .created →
          r'.isOccupying (e'.tables.eventsOf r.id) = false →
          let answer := (e'.run ((Operation.enter r.id).program e'.settings ctx')).answer
          (s.deactivation ≠ some ctx'.now → 0 < s.availablePlaces →
            ∃ code, answer = .ok (.ticket ⟨r.id, code, s.parking, sector, s.name, ctx'.now⟩)) ∧
          (s.deactivation = some ctx'.now ∨ s.availablePlaces = 0 →
            answer = .error (.capacityExhausted sector))) ∨
      Drops (fun e q => q.Spares e sector) opens
        (e.run ((Operation.book sector start stop).program e.settings ctx)).engine
        (e.logged cs ((Operation.book sector start stop).program e.settings ctx)) e' cs' r.id ∧
        opens ≠ Eq) := by
  obtain ⟨rfl, isOpen, r₀, hr₀, client₀, place₀, window₀⟩ := h.booked booked
  have begun := h.asked (.operation ctx (.book r.sector start stop))
  have reachable := later.reachable begun
  have within {now : Ms} (covers : r.window.covers now = true) : now ≤ r.window.stop := by
    simp only [Span.covers, Bool.and_eq_true, decide_eq_true_eq] at covers
    exact covers.2
  have remains := later.staysOpen begun isOpen
  refine ⟨fun s hs now covers => ⟨(remains s hs).isActiveAt_iff (within covers), fun due =>
    Int.le_antisymm (within covers) ((remains s hs).2 _ due)⟩, ?_⟩
  rcases later.keeps_booking begun hr₀ with ⟨r', hr', client, place, window⟩ | drops
  · rw [client₀] at client
    rw [place₀] at place
    rw [window₀] at window
    obtain ⟨s, hs, -⟩ := reachable.linked.placed hr'
    rw [place] at hs
    have hid := reachable.linked.reservation_id hr'
    have sid := reachable.linked.sector_id hs
    refine .inl ⟨s, r', hs, hr', client, place, window, fun ctx' covers owner created outside => ?_⟩
    have active := (remains s hs).isActiveAt_iff (within covers)
    rw [← hid] at hr' outside
    rw [← window] at covers
    obtain ⟨enters, full⟩ := reachable.enters hr' owner created outside covers (place ▸ hs)
    rw [hid, sid] at enters
    rw [hid, sid] at full
    refine ⟨fun ahead free => enters ?_, fun none => full ?_⟩
    · simp [Sector.canTake, active.2 ahead, free]
    · rw [Sector.canTake, Bool.and_eq_false_iff]
      rcases none with due | none
      · exact .inl (Bool.eq_false_iff.2 fun isActive => active.1 isActive due)
      · exact .inr (by simp [none])
  · refine .inr ⟨drops, ?_⟩
    rintro rfl
    exact Drops.of_onward drops

def closingSector : Engine :=
  (fresh {} .silent (fun n => .ofNat (n + 1)) false).serve [
    .operation ⟨.system, 0⟩ (.createParking ⟨"Rome", "00100", "Corso 1"⟩ none),
    .operation ⟨.system, 0⟩ (.addSector (.ofNat 1) ⟨"AB-01", .covered, 2, 1⟩),
    .operation ⟨.system, 0⟩ (.deactivateSector (.ofNat 2) 1 (Limits.earliest + hour))]

def closingBooked : Engine :=
  closingSector.serve [
    .operation ⟨.client (.ofNat 7), 0⟩
      (.book (.ofNat 2) Limits.earliest (Limits.earliest + hour)),
    .operation ⟨.anonymous, Limits.earliest⟩ (.driveIn (.ofNat 1) true)]

set_option maxRecDepth 10000 in
theorem booked_enters_closingSector :
    let e := closingBooked.serve [.sweep (Limits.earliest + minute)]
    let enter (now : Ms) :=
      (e.run ((Operation.enter (.ofNat 3)).program e.settings ⟨.client (.ofNat 7), now⟩)).answer
    (∃ code, enter (Limits.earliest + minute) = .ok (.ticket
      ⟨.ofNat 3, code, .ofNat 1, .ofNat 2, "AB-01", Limits.earliest + minute⟩)) ∧
      enter (Limits.earliest + hour) = .error (.capacityExhausted (.ofNat 2)) := by
  intro e enter
  obtain ⟨cs, reachable⟩ : ∃ cs, closingSector.Reachable cs := (Reachable.fresh _ _ _ _).serve _
  let r : Reservation := ⟨.ofNat 3, some (.ofNat 7), .ofNat 1, .ofNat 2,
    ⟨Limits.earliest, Limits.earliest + hour⟩, .created, true, none, 1⟩
  let s : Sector := ⟨.ofNat 2, .ofNat 1, "AB-01", .covered, 2, 1, 1, true,
    some (Limits.earliest + hour), 4⟩
  have sector : closingBooked.tables.sectors.get? (.ofNat 2) = some s := by decide
  have early : Request.Spares closingBooked (.ofNat 2) (.sweep (Limits.earliest + minute)) := by
    intro s' hs'
    cases hs'.symm.trans sector
    decide
  have booked : (closingSector.run ((Operation.book (.ofNat 2) Limits.earliest
      (Limits.earliest + hour)).program closingSector.settings ⟨.client (.ofNat 7), 0⟩)).answer =
        .ok (.reservation r) := by rfl
  obtain ⟨s', r', hs', hr', -, -, -, enters⟩ := (Reachable.booked_enters reachable booked
    ((Leads.here.asked (.operation ⟨.anonymous, Limits.earliest⟩ (.driveIn (.ofNat 1) true))
      (.inl rfl)).asked (.sweep (Limits.earliest + minute)) early)).2.resolve_right
        fun lost => lost.2 rfl
  have sector' : e.tables.sectors.get? (.ofNat 2) = some s := by decide
  have row : e.tables.reservations.get? (.ofNat 3) = some r := by decide
  have outside : r.isOccupying (e.tables.eventsOf (.ofNat 3)) = false := by decide
  cases hs'.symm.trans sector'
  cases hr'.symm.trans row
  have ahead := enters ⟨.client (.ofNat 7), Limits.earliest + minute⟩ (by decide) rfl rfl outside
  have closing := enters ⟨.client (.ofNat 7), Limits.earliest + hour⟩ (by decide) rfl rfl outside
  exact ⟨ahead.1 (by decide) (by decide), closing.2 (.inl rfl)⟩

set_option maxRecDepth 10000 in
/-- The booking lasts until the sector closes, and its owner is not let in at the last instant. -/
theorem closed_at_last_instant :
    ∃ (e : Engine) (cs : List Commit) (ctx ctx' : Context) (r : Reservation) (s : Sector),
      e.Reachable cs ∧
      let o := e.run ((Operation.book s.id Limits.earliest (Limits.earliest + hour)).program
        e.settings ctx)
      let t := o.engine.tables
      o.answer = .ok (.reservation r) ∧ r.window.covers ctx'.now = true ∧
        t.reservations.get? r.id = some r ∧ r.IsOwn ctx'.caller ∧ r.status = .created ∧
        r.isOccupying (t.eventsOf r.id) = false ∧ t.sectors.get? s.id = some s ∧
        0 < s.availablePlaces ∧ s.isActiveAt ctx'.now = false ∧
        (o.engine.run ((Operation.enter r.id).program o.engine.settings ctx')).answer =
          .error (.capacityExhausted s.id) := by
  obtain ⟨cs, reachable⟩ : ∃ cs, closingSector.Reachable cs := (Reachable.fresh _ _ _ _).serve _
  exact ⟨closingSector, cs, ⟨.client (.ofNat 7), 0⟩,
    ⟨.client (.ofNat 7), Limits.earliest + hour⟩,
    ⟨.ofNat 3, some (.ofNat 7), .ofNat 1, .ofNat 2, ⟨Limits.earliest, Limits.earliest + hour⟩,
      .created, true, none, 1⟩,
    ⟨.ofNat 2, .ofNat 1, "AB-01", .covered, 2, 2, 1, true, some (Limits.earliest + hour), 3⟩,
    reachable, by rfl, by decide, by decide, ⟨rfl, rfl⟩, rfl, by decide, by decide, by decide,
    by decide, by rfl⟩

end Engine

end Carpark
