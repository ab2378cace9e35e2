import Carpark.Proofs.Agreement
import Carpark.Proofs.History
import Carpark.Proofs.LaterSteps

/-!
What callers without privileges can bring about and get to see: their own reservations, and stays
without an owner whose code they know.
-/

namespace Carpark

/-! ### Authorization -/

theorem Context.privileged_of_requirePrivileged {ctx : Context} {u : Unit}
    (h : ctx.requirePrivileged = .ok u) : ctx.caller.isPrivileged = true := by
  simp only [requirePrivileged] at h
  split at h
  next privileged => exact privileged
  next => cases h

namespace Reservation

def IsOwn (r : Reservation) (caller : Caller) : Prop :=
  r.client.isSome = true ∧ r.client = caller.client?

variable {r : Reservation} {caller : Caller}

theorem isOwn_of_requireOwner (unprivileged : caller.isPrivileged = false) {u : Unit}
    (h : r.requireOwner caller = .ok u) : r.IsOwn caller := by
  simp only [requireOwner, unprivileged, Bool.false_or, Bool.and_eq_true, decide_eq_true_eq] at h
  split at h
  next own => exact own
  next => cases h

theorem isOwn_of_isVisibleTo (unprivileged : caller.isPrivileged = false)
    (h : r.isVisibleTo caller = true) : r.IsOwn caller := by
  simp only [isVisibleTo, unprivileged, Bool.false_or, Bool.and_eq_true, decide_eq_true_eq] at h
  exact h

theorem own_or_code_of_authorizeExit (unprivileged : caller.isPrivileged = false)
    {code : Option String} {u : Unit} (h : r.authorizeExit caller code = .ok u) :
    r.IsOwn caller ∨ r.client = none ∧ ∃ c, code = some c ∧ r.code = some c := by
  simp only [authorizeExit, unprivileged, Bool.or_false] at h
  split at h
  · cases h
  next right =>
    split at h
    · exact .inl (isOwn_of_requireOwner unprivileged h)
    next none =>
      split at h
      next given =>
        obtain ⟨c, rfl⟩ := Option.isSome_iff_exists.1 given
        simp only [Option.isSome_some, Bool.true_and, decide_eq_true_eq, Decidable.not_not] at right
        exact .inr ⟨by simpa using none, c, rfl, right.symm⟩
      · cases h

end Reservation

/-! ### Changes -/

/-- The sector is as it was, but for its version and for one place taken or freed at most. -/
def Sector.OnePlace (s s' : Sector) : Prop :=
  s' = { s with availablePlaces := s'.availablePlaces, version := s'.version } ∧
    s.availablePlaces ≤ s'.availablePlaces + 1 ∧ s'.availablePlaces ≤ s.availablePlaces + 1

namespace Sector.OnePlace

variable {s s' : Sector} (version : Version)

theorem take {now : Ms} (h : s.takePlace now = .ok s') : s.OnePlace { s' with version } := by
  obtain ⟨-, rfl⟩ := takePlace_eq_ok.1 h
  refine ⟨rfl, ?_, ?_⟩ <;> dsimp only <;> omega

theorem free (h : s.freePlace = .ok s') : s.OnePlace { s' with version } := by
  obtain ⟨-, rfl⟩ := freePlace_eq_ok.1 h
  refine ⟨rfl, ?_, ?_⟩ <;> dsimp only <;> omega

end Sector.OnePlace

namespace Tables

/-- All that the operation may have changed in the tables `t` if its caller has no privileges. -/
structure Confined (caller : Caller) (op : Operation) (t t' : Tables) : Prop where
  parkings : t'.parkings = t.parkings
  sectors : ∀ id, t'.sectors.get? id = t.sectors.get? id ∨
    ∃ s s', t.sectors.get? id = some s ∧ t'.sectors.get? id = some s' ∧ s.OnePlace s'
  reservations : ∀ id r, t.reservations.get? id = some r →
    t'.reservations.get? id = some r ∧ t'.eventsOf id = t.eventsOf id ∨ r.IsOwn caller ∨
      r.client = none ∧ ∃ code ending, op = .exit id (some code) ending ∧ r.code = some code

variable {caller : Caller} {op : Operation} {t t' : Tables}

theorem Confined.refl (caller : Caller) (op : Operation) (t : Tables) : Confined caller op t t where
  parkings := rfl
  sectors := fun _ => .inl rfl
  reservations := fun _ _ hr => .inl ⟨hr, rfl⟩

theorem Confined.of_one {r : Reservation} (parkings : t'.parkings = t.parkings)
    (sectors : ∀ id, t'.sectors.get? id = t.sectors.get? id ∨
      ∃ s s', t.sectors.get? id = some s ∧ t'.sectors.get? id = some s' ∧ s.OnePlace s')
    (reservations : t'.reservations = t.reservations.insert r.id r)
    (events : ∀ k, k ≠ r.id → t'.eventsOf k = t.eventsOf k)
    (allowed : ∀ b, t.reservations.get? r.id = some b → b.IsOwn caller ∨
      b.client = none ∧ ∃ code ending, op = .exit r.id (some code) ending ∧ b.code = some code) :
    Confined caller op t t' where
  parkings := parkings
  sectors := sectors
  reservations := fun id b hb => by
    by_cases hid : id = r.id
    · subst hid
      exact .inr (allowed b hb)
    · rw [reservations, Table.get?_insert_of_ne _ _ hid]
      exact .inl ⟨hb, events id hid⟩

theorem onePlace_insert {s s' : Sector} (sectors : t'.sectors = t.sectors.insert s'.id s')
    (hs : t.sectors.get? s'.id = some s) (place : s.OnePlace s') (id : Ulid) :
    t'.sectors.get? id = t.sectors.get? id ∨
      ∃ s s', t.sectors.get? id = some s ∧ t'.sectors.get? id = some s' ∧ s.OnePlace s' := by
  rw [sectors, Table.get?_insert]
  split
  next hid => exact .inr ⟨s, s', hid ▸ hs, rfl, place⟩
  next => exact .inl rfl

theorem Confined.gate {s s' : Sector} {r : Reservation} {e : GateEvent}
    (hs : t.sectors.get? s'.id = some s) (place : s.OnePlace s') (he : e.reservation = r.id)
    (allowed : ∀ b, t.reservations.get? r.id = some b → b.IsOwn caller ∨
      b.client = none ∧ ∃ code ending, op = .exit r.id (some code) ending ∧ b.code = some code) :
    Confined caller op t (t.apply [.putSector s', .putReservation r, .appendEvent e]) := by
  rw [apply_gate]
  refine .of_one (r := r) (by simp) (onePlace_insert (by simp) hs place) (by simp) ?_ allowed
  intro k hk
  simp [eventsOf_addEvent, he, hk]

end Tables

namespace Transition

variable {settings : Settings} {ctx : Context} {t : Tables} {op : Operation} {ids : List Ulid}
  {txn : Txn}

theorem confines (h : Transition settings ctx t op ids txn) (ht : t.Linked)
    (hok : ∀ c ∈ txn, c.suits t) (unprivileged : ctx.caller.isPrivileged = false) :
    t.Confined ctx.caller op (t.apply txn.writes) := by
  have refused (h : ctx.requirePrivileged = .ok ()) : False := by
    cases unprivileged.symm.trans (Context.privileged_of_requirePrivileged h)
  cases h with
  | createParking admin | updateParking admin | deleteParking admin | addSector admin
  | updateSector admin | renameSector admin | activateSector admin | deactivateSector admin
  | deleteSector admin | finalize admin | expire admin | forceExit admin | close admin =>
    exact (refused admin).elim
  | @book sector client new _ _ window s asked hs _ _ =>
    obtain rfl := ht.sector_id hs
    have new : t.reservations.get? new = none := hok _ (.tail _ (.head _))
    refine .of_one (((t.putSector _).parkings_putReservation _).trans (t.parkings_putSector _))
      (Tables.onePlace_insert ((t.putSector _).sectors_putReservation _) hs ?_)
      ((t.putSector _).reservations_putReservation _) ?_ ?_
    · exact ⟨rfl, Nat.le_succ _, Nat.le_succ _⟩
    · exact fun k _ => congrFun ((t.putSector _).eventsOf_putReservation _) k
    · intro b hb
      cases new.symm.trans hb
  | @cancel _ r hr owner created unused =>
    obtain rfl := ht.reservation_id hr
    refine .of_one (t.parkings_putReservation _)
      (fun k => .inl (congrArg (·.get? k) (t.sectors_putReservation _)))
      (t.reservations_putReservation _) (fun k _ => congrFun (t.eventsOf_putReservation _) k) ?_
    intro b hb
    cases hr.symm.trans hb
    exact .inl (Reservation.isOwn_of_requireOwner unprivileged owner)
  | @enter _ u v r s _ hr owner created out start stop hs taken =>
    obtain rfl := ht.reservation_id hr
    refine .gate (s := s) ?_ (.take _ taken) rfl fun b hb => ?_
    · obtain ⟨-, rfl⟩ := Sector.takePlace_eq_ok.1 taken
      exact (ht.sector_id hs).symm ▸ hs
    · cases hr.symm.trans hb
      exact .inl (Reservation.isOwn_of_requireOwner unprivileged owner)
  | @driveIn parking u v w _ p s _ hp listed hs taken =>
    have new : t.reservations.get? v = none := hok _ (.tail _ (.head _))
    refine .gate (s := s) ?_ (.take _ taken) rfl fun b hb => ?_
    · obtain ⟨-, rfl⟩ := Sector.takePlace_eq_ok.1 taken
      exact hs
    · cases new.symm.trans hb
  | @exit _ u code ending r s _ hr allowed _ inside hs freed =>
    obtain rfl := ht.reservation_id hr
    refine .gate (s := s) ?_ (.free _ freed) rfl fun b hb => ?_
    · obtain ⟨-, rfl⟩ := Sector.freePlace_eq_ok.1 freed
      exact (ht.sector_id hs).symm ▸ hs
    · cases hr.symm.trans hb
      refine (Reservation.own_or_code_of_authorizeExit unprivileged allowed).imp_right ?_
      rintro ⟨none, c, rfl, right⟩
      exact ⟨none, c, ending, rfl, right⟩

end Transition

/-! ### Disclosure -/

namespace Listing

variable {t : Tables} {ctx : Context}

theorem own_of_sees_reservation (unprivileged : ctx.caller.isPrivileged = false) {id : Ulid}
    {ids : List Ulid} {r : Reservation} {t' : Tables}
    (h : Lookup.Sees (fun t => t) Eq (reservation ctx id) t ids r t') :
    t.reservations.get? id = some r ∧ r.IsOwn ctx.caller := by
  simp only [reservation, Lookup.sees_reservation_bind] at h
  obtain ⟨b, m, ⟨rfl, hb⟩, h⟩ := h
  split at h
  next visible =>
    obtain ⟨rfl, -, -⟩ := Lookup.sees_pure.1 h
    exact ⟨hb, Reservation.isOwn_of_isVisibleTo unprivileged visible⟩
  next => exact absurd h Lookup.not_sees_throw

theorem own_of_sees_events (unprivileged : ctx.caller.isPrivileged = false) {id : Ulid}
    {ids : List Ulid} {es : List GateEvent}
    (h : Lookup.Sees (fun t => t) Eq (events ctx id) t ids es t) :
    es = t.eventsOf id ∧ ∃ r, t.reservations.get? id = some r ∧ r.IsOwn ctx.caller := by
  simp only [events, Lookup.sees_bind] at h
  obtain ⟨r, t', ids₁, ids₂, rfl, found, events⟩ := h
  obtain ⟨hr, own⟩ := own_of_sees_reservation unprivileged found
  obtain ⟨⟨rfl, rfl⟩, -⟩ := Lookup.sees_ask.1 events
  exact ⟨rfl, r, hr, own⟩

def ownReservations (t : Tables) (caller : Caller) : List Reservation :=
  match caller.client? with
  | some client => (t.reservationsOfClient client).mergeSort fun a b => a.id.val ≤ b.id.val
  | none => []

theorem eval_visible (unprivileged : ctx.caller.isPrivileged = false) (t : Tables)
    (ids : Nat → Ulid) (n : Nat) :
    (visible ctx).run.eval t ids n = (.ok (ownReservations t ctx.caller), n) := by
  simp only [visible, unprivileged, ownReservations]
  cases ctx.caller.client? with
  | none => rfl
  | some client =>
    refine (Reading.eval_bind t ids (Lookup.reservationsOfClient client).run _ n).trans ?_
    have rows : (Lookup.reservationsOfClient client).run.eval t ids n =
        (.ok (t.reservationsOfClient client), n) :=
      Lookup.eval_reservationRows t ids _ n
    rw [rows]
    rfl

theorem eval_reservations (unprivileged : ctx.caller.isPrivileged = false) (t : Tables)
    (page : Page) (ids : Nat → Ulid) (n : Nat) :
    (reservations ctx page).run.eval t ids n =
      (.ok (page.slice (ownReservations t ctx.caller)), n) := by
  refine (Reading.eval_bind _ _ (visible ctx).run _ _).trans ?_
  rw [eval_visible unprivileged]
  rfl

theorem own_of_mem (ht : t.Indexed) {caller : Caller} {r : Reservation}
    (h : r ∈ ownReservations t caller) : r.IsOwn caller := by
  simp only [ownReservations] at h
  split at h
  next client hclient =>
    rw [List.mem_mergeSort, Tables.reservationsOfClient, List.mem_filterMap] at h
    obtain ⟨id, hid, hr⟩ := h
    obtain ⟨r', hr', owner⟩ := ht.byClient.1 hid
    cases hr.symm.trans hr'
    exact ⟨by simp [owner], owner.trans hclient.symm⟩
  next => cases h

end Listing

namespace Engine

variable {e : Engine} {cs : List Commit}

theorem sees_of_answer {α : Type} {l : Lookup α} {f : α → Answer} {a : Answer}
    (h : (e.run ((Program.ofLookup l).answering f)).answer = .ok a) :
    ∃ x ids, a = f x ∧ Lookup.Sees (fun t => t) Eq l e.tables ids x e.tables := by
  rw [Program.answering, run_bind_answer, Program.ofLookup, run_ofReading] at h
  have sees : Reading.Sees (fun t => t) Eq l.run e.tables _
      (l.run.eval e.tables e.supply e.drawn).1 e.tables :=
    Reading.sees_eval rfl e.supply l.run e.drawn
  cases result : (l.run.eval e.tables e.supply e.drawn).1 with
  | error f =>
    rw [result] at h
    cases h
  | ok x =>
    rw [result] at h sees
    cases h
    exact ⟨x, _, rfl, sees⟩

end Engine

/-! ### Stays without an owner -/

def Tables.Unclaimed (t : Tables) : Prop :=
  ∀ id r, t.reservations.get? id = some r → r.client = none → r.booked = false

theorem Transition.unclaimed {settings : Settings} {ctx : Context} {t : Tables} {op : Operation}
    {ids : List Ulid} {txn : Txn} (h : Transition settings ctx t op ids txn) (ht : t.Linked)
    (hok : ∀ c ∈ txn, c.suits t) (hu : t.Unclaimed) : (t.apply txn.writes).Unclaimed := by
  intro id r hr owner
  cases h.turns ht hok id with
  | stays same _ => exact hu id r (same ▸ hr) owner
  | moves hb hr' moves =>
    cases hr.symm.trans hr'
    obtain ⟨-, client, -, -, -, booked, -⟩ := moves.fixed
    exact booked.trans (hu id _ hb (client.symm.trans owner))
  | begins new _ _ =>
    obtain ⟨b, hb, rfl⟩ := h.inserts ht hok hr new
    exact (h.of_insertReservation hb).2.resolve_left fun ⟨_, owned⟩ => owned owner

namespace Engine

variable {e : Engine} {cs : List Commit}

theorem Reachable.unclaimed (h : e.Reachable cs) : e.tables.Unclaimed :=
  h.invariant (fun _ _ hr => by cases hr)
    (fun alike hu id r hr => hu id r (alike.reservations ▸ hr))
    (fun _ less hu id r hr => hu id r (less.get?_reservation.1 hr).2)
    fun linked transition hok hu => transition.unclaimed linked hok hu

/-- Callers without privileges reach their own reservations, and unowned ones by their code. Of the
registry they change one place of a sector at most. -/
theorem Reachable.confined (h : e.Reachable cs) {ctx : Context}
    (unprivileged : ctx.caller.isPrivileged = false) :
    (∀ op : Operation, e.tables.Confined ctx.caller op
      (e.run (op.program e.settings ctx)).engine.tables) ∧
    (∀ id r, e.tables.reservations.get? id = some r → r.client = none →
      r.code.isSome = true ∧ (e.tables.eventsOf id).countP (·.kind = .entry) = 1) ∧
    (∀ id r, (e.run ((Operation.reservation id).program e.settings ctx)).answer =
        .ok (.reservation r) →
      e.tables.reservations.get? id = some r ∧ r.IsOwn ctx.caller) ∧
    (∀ id es, (e.run ((Operation.events id).program e.settings ctx)).answer = .ok (.events es) →
      es = e.tables.eventsOf id ∧
        ∃ r, e.tables.reservations.get? id = some r ∧ r.IsOwn ctx.caller) ∧
    ∀ page, ∃ l, (e.run ((Operation.reservations page).program e.settings ctx)).answer =
        .ok (.reservations (page.slice l)) ∧
      (∀ r ∈ l, r.IsOwn ctx.caller) ∧ (ctx.caller = .anonymous → l = []) := by
  refine ⟨fun op => ?_, fun id r hr owner => ?_, fun id r found => ?_, fun id es found => ?_,
    fun page => ⟨Listing.ownReservations e.tables ctx.caller, ?_, fun r hr => ?_, fun none => ?_⟩⟩
  · rcases run_operation h.linked e.settings ctx op with same | ⟨ids, txn, transition, hok, tables⟩
    · rw [same]
      exact .refl _ _ _
    · rw [tables]
      exact transition.confines h.linked hok unprivileged
  · have orderly := h.orderly id r hr
    have entered := orderly.oneEntry (h.unclaimed id r hr owner)
    refine ⟨orderly.code.2 ?_, entered⟩
    intro none
    simp [none] at entered
  · obtain ⟨r', ids, same, sees⟩ := sees_of_answer found
    cases same
    exact Listing.own_of_sees_reservation unprivileged sees
  · obtain ⟨es', ids, same, sees⟩ := sees_of_answer found
    cases same
    exact Listing.own_of_sees_events unprivileged sees
  · rw [Operation.program, Program.answering, run_bind_answer, Program.ofLookup, run_ofReading,
      Listing.eval_reservations unprivileged]
    rfl
  · exact Listing.own_of_mem h.linked.toIndexed hr
  · rw [none]
    rfl

set_option maxRecDepth 10000 in
theorem confined_oneCar :
    let ctx : Context := ⟨.client (.ofNat 9), 10⟩
    let exit : Operation := .exit (.ofNat 4) (some "0000") true
    let left := (oneCar.run (exit.program oneCar.settings ctx)).engine
    ∃ cs r, oneCar.Reachable cs ∧ ctx.caller.isPrivileged = false ∧
      oneCar.tables.reservations.get? (.ofNat 4) = some r ∧ r.client = none ∧
      r.code.isSome = true ∧ left.tables.reservations.get? (.ofNat 4) = some r ∧
      (oneCar.run ((Operation.reservation (.ofNat 4)).program oneCar.settings ctx)).answer ≠
        .ok (.reservation r) := by
  intro ctx exit left
  obtain ⟨cs, reachable⟩ : ∃ cs, oneCar.Reachable cs := (Reachable.fresh _ _ _ _).serve _
  let r := Reservation.driveIn {} 0 (.ofNat 4) (.ofNat 1) (.ofNat 2) none (Ulid.ofNat 3).code
  have hr : oneCar.tables.reservations.get? (.ofNat 4) = some r := by decide
  have unprivileged : ctx.caller.isPrivileged = false := rfl
  obtain ⟨changes, stays, looks, -⟩ := Reachable.confined reachable unprivileged
  refine ⟨cs, r, reachable, rfl, hr, rfl, (stays _ _ hr rfl).1, ?_, fun found => ?_⟩
  · rcases (changes exit).reservations _ _ hr with ⟨same, -⟩ | ⟨owned, -⟩ | ⟨-, code, _, op, right⟩
    · exact same
    · cases owned
    · have given : some "0000" = some code := by
        cases (show Operation.exit _ _ _ = _ from op)
        rfl
      cases given
      revert right
      decide
  · obtain ⟨-, owned, -⟩ := looks _ _ found
    cases owned

end Engine

end Carpark
