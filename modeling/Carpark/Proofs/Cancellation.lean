import Carpark.Proofs.Departure
import Carpark.Proofs.History
import Carpark.Proofs.Listings
import Carpark.Proofs.Traffic

/-!
A cancellation that is overtaken between its readings and its commit. Unlike the other steps of a
reservation it is not tried again, so it fails over the version of the row, and does not tell what
has become of the reservation.
-/

namespace Carpark

variable {α β : Type}

/-! ### Programs that have read -/

namespace Program

/-- The program after its first readings, done on these tables. -/
def readFrom (t : Tables) : Program α → Program α
  | .ask q k => (k (t.answer q)).readFrom t
  | p => p

variable {t : Tables}

theorem readFrom_bind (p : Program α) (f : α → Program β) :
    ((p.readFrom t).bind f).readFrom t = (p.bind f).readFrom t := by
  induction p with
  | ask q k ih => exact ih (t.answer q)
  | _ => rfl

theorem readFrom_ofReading {x : Reading α} {ids : Nat → Ulid} {n : Nat} {a : α}
    (h : x.eval t ids n = (a, n)) : (ofReading x).readFrom t = .done a := by
  induction x with
  | done b => cases h; rfl
  | ask q k ih => exact ih _ h
  | draw k =>
    have more := Reading.le_eval t ids (k (ids n)) (n + 1)
    have none : ((k (ids n)).eval t ids (n + 1)).2 = n := congrArg Prod.snd h
    omega

variable {a : Lookup (Plan α)} {plan : Plan α} {ids : Nat → Ulid} {n : Nat}

theorem readFrom_attempt (h : a.run.eval t ids n = (.ok plan, n)) :
    (attempt a).readFrom t = .commit plan.txn fun
      | .ok () => .done (.ok plan.answer)
      | .error e => .done (.error (.ofCommit e)) := by
  change ((ofReading a.run).bind _).readFrom t = _
  rw [← readFrom_bind, readFrom_ofReading h]
  rfl

theorem readFrom_bind_of_commit {p : Program α} {txn : Txn}
    (h : ∃ k, p.readFrom t = .commit txn k) (f : α → Program β) :
    (p >>= f).readFrom t = p.readFrom t >>= f ∧ ∃ k, (p >>= f).readFrom t = .commit txn k := by
  obtain ⟨k, h⟩ := h
  have both : (p >>= f).readFrom t = p.readFrom t >>= f := by
    change (p.bind f).readFrom t = (p.readFrom t).bind f
    rw [← readFrom_bind, h]
    rfl
  exact ⟨both, _, by rw [both, h]; rfl⟩

end Program

theorem Engine.run_readFrom_attempt {t : Tables} {a : Lookup (Plan α)} {plan : Plan α}
    {ids : Nat → Ulid} {n : Nat} (h : a.run.eval t ids n = (.ok plan, n)) (e : Engine) :
    (e.run ((Program.attempt a).readFrom t)).answer =
        ((e.store.commit plan.txn).1.mapError Failure.ofCommit).map (fun _ => plan.answer) ∧
      (e.run ((Program.attempt a).readFrom t)).engine =
        { e with store := (e.store.commit plan.txn).2 } := by
  rw [Program.readFrom_attempt h]
  simp only [run]
  cases (e.store.commit plan.txn).1 <;> exact ⟨rfl, rfl⟩

theorem Tables.refusal?_updateReservation {t : Tables} {r b : Reservation}
    (hb : t.reservations.get? r.id = some b) :
    t.refusal? [.updateReservation r] = if b.version = r.version then none
      else some (.versionMismatch (.reservation r.id) (some r.version) (some b.version)) := by
  by_cases same : b.version = r.version <;>
    simp [refusal?, staleRow?, takenAddress?, Txn.expects, Txn.claims, Change.expects?,
      Change.claims?, version?, hb, same]

/-! ### Cancelling -/

namespace Booking

variable {ctx : Context} {t : Tables} {id : Ulid} {r : Reservation}

section

variable (hr : t.reservations.get? id = some r) (owner : r.requireOwner ctx.caller = .ok ())

include hr owner

theorem eval_cancelAttempt (created : r.status = .created)
    (unused : hasEntered (t.eventsOf id) = false) (ids : Nat → Ulid) (n : Nat) :
    (cancelAttempt ctx id).run.eval t ids n =
      (.ok ⟨[.updateReservation { r with status := .cancelled }],
        { r with status := .cancelled, version := r.version + 1 }⟩, n) := by
  rw [cancelAttempt, Lookup.eval_bind_of (Lookup.eval_reservation hr), owner,
    if_neg (by simp [created])]
  change (if hasEntered (t.eventsOf id) then _ else _ : Lookup _).run.eval t ids n = _
  rw [unused]
  rfl

theorem eval_cancelAttempt_error (used : r.status = .created → hasEntered (t.eventsOf id) = true)
    (ids : Nat → Ulid) (n : Nat) :
    (cancelAttempt ctx id).run.eval t ids n =
      (.error (if r.status = .created then .alreadyEntered id
        else .invalidStatus id r.status "cancel"), n) := by
  rw [cancelAttempt, Lookup.eval_bind_of (Lookup.eval_reservation hr), owner]
  by_cases created : r.status = .created
  · rw [if_neg (by simp [created]), if_pos created]
    change (if hasEntered (t.eventsOf id) then _ else _ : Lookup _).run.eval t ids n = _
    rw [used created]
    rfl
  · rw [if_pos created, if_neg created]
    rfl

end

theorem exists_cancel_eq (ctx : Context) (id : Ulid) :
    ∃ f, cancel ctx id = Program.attempt (cancelAttempt ctx id) >>= f ∧
      ∀ r, Program.Silent (f r) r := by
  refine ⟨_, rfl, fun r => ?_⟩
  cases r with
  | error _ => exact .bind (.count _) (.pure _)
  | ok _ => exact .bind (.count _) (.bind (.line _) (.bind (.inform _ _) (.pure _)))

end Booking

namespace Engine

variable (settings : Settings) (ctx : Context) (e : Engine) (id : Ulid)

theorem run_cancel :
    let o := e.run (Program.attempt (Booking.cancelAttempt ctx id))
    let o' := e.run ((Operation.cancel id).program settings ctx)
    o'.answer = o.answer.map .reservation ∧ o'.engine = o.engine := by
  obtain ⟨f, cancel, silent⟩ := Booking.exists_cancel_eq ctx id
  rw [Operation.program, cancel]
  exact run_bind_answering e _ (g := fun r => r) silent _

theorem run_cancel_readFrom {t : Tables} {plan : Plan Reservation} {ids : Nat → Ulid} {n : Nat}
    (h : (Booking.cancelAttempt ctx id).run.eval t ids n = (.ok plan, n)) :
    let commit := e.store.commit plan.txn
    let o := e.run (((Operation.cancel id).program settings ctx).readFrom t)
    o.answer = (commit.1.mapError Failure.ofCommit).map (fun _ => .reservation plan.answer) ∧
      o.engine = { e with store := commit.2 } := by
  obtain ⟨f, cancel, silent⟩ := Booking.exists_cancel_eq ctx id
  obtain ⟨answer, engine⟩ := run_readFrom_attempt h e
  have flight : ((Operation.cancel id).program settings ctx).readFrom t =
      ((Program.attempt (Booking.cancelAttempt ctx id)).readFrom t >>= f).answering
        .reservation := by
    obtain ⟨inner, commits⟩ :=
      Program.readFrom_bind_of_commit ⟨_, Program.readFrom_attempt h⟩ f
    rw [Operation.program, cancel, Program.answering, Program.answering, ← inner]
    exact (Program.readFrom_bind_of_commit commits _).1
  rw [flight]
  obtain ⟨answer', engine'⟩ := run_bind_answering e _ (g := fun r => r) silent .reservation
  refine ⟨answer'.trans ?_, engine'.trans engine⟩
  rw [answer]
  cases (e.store.commit plan.txn).1 <;> rfl

variable {e} {t : Tables} {r r' : Reservation}

theorem run_cancel_in_time (hr : t.reservations.get? r.id = some r)
    (owner : r.requireOwner ctx.caller = .ok ()) (created : r.status = .created)
    (unused : hasEntered (t.eventsOf r.id) = false)
    (row : e.tables.reservations.get? r.id = some r') (same : r'.version = r.version) :
    (e.run (((Operation.cancel r.id).program settings ctx).readFrom t)).answer =
      .ok (.reservation { r with status := .cancelled, version := r.version + 1 }) := by
  have staged := Booking.eval_cancelAttempt hr owner created unused e.supply e.drawn
  obtain ⟨answer, -⟩ := run_cancel_readFrom settings ctx e r.id staged
  have refusal := Tables.refusal?_updateReservation (r := { r with status := .cancelled }) row
  rw [if_pos same] at refusal
  rw [(Store.commit_of_accepted rfl refusal []).1] at answer
  exact answer

theorem run_cancel_overtaken (hr : t.reservations.get? r.id = some r)
    (owner : r.requireOwner ctx.caller = .ok ()) (created : r.status = .created)
    (unused : hasEntered (t.eventsOf r.id) = false)
    (row : e.tables.reservations.get? r.id = some r') (differs : r'.version ≠ r.version) :
    let o := e.run (((Operation.cancel r.id).program settings ctx).readFrom t)
    o.answer = .error (.versionMismatch .reservation r.id (some r.version) (some r'.version)) ∧
      o.engine = e := by
  have staged := Booking.eval_cancelAttempt hr owner created unused e.supply e.drawn
  obtain ⟨answer, engine⟩ := run_cancel_readFrom settings ctx e r.id staged
  have refusal := Tables.refusal?_updateReservation (r := { r with status := .cancelled }) row
  rw [if_neg differs] at refusal
  have commit := (Store.commit_of_refusal rfl refusal []).1
  rw [commit] at answer engine
  exact ⟨answer, engine⟩

theorem run_cancel_used (hr : e.tables.reservations.get? id = some r)
    (owner : r.requireOwner ctx.caller = .ok ())
    (used : r.status = .created → hasEntered (e.tables.eventsOf id) = true) :
    (e.run ((Operation.cancel id).program settings ctx)).answer =
      .error (if r.status = .created then .alreadyEntered id
        else .invalidStatus id r.status "cancel") := by
  have failed := Booking.eval_cancelAttempt_error hr owner used e.supply e.drawn
  obtain ⟨answer, -⟩ := run_cancel settings ctx e id
  exact answer.trans (congrArg _ (run_attempt_error failed []).1)

end Engine

/-! ### What becomes of a reservation -/

namespace Reservation

variable {settings : Settings} {now : Ms} {op : Operation} {r r' : Reservation}
  {es es' : List GateEvent}

theorem Moves.used (h : r.Moves settings now es op r' es') (created : r'.status = .created) :
    hasEntered es' = true := by
  cases h with
  | cancels | expires | evicts | closes => cases created
  | enters _ _ _ _ entry => simp [hasEntered, entry]
  | leaves inside =>
    obtain ⟨e, he, entry⟩ := exists_entry_of_isInside (isOccupying_iff.1 inside).2
    exact List.any_eq_true.2 ⟨e, List.mem_append_left _ he, by simpa using entry⟩

/-- The reservation is as it was, or it has been moved on: its version tells which. -/
inductive Passed (r : Reservation) (es : List GateEvent) : Reservation → List GateEvent → Prop
  | stays : Passed r es r es
  | moved {r' : Reservation} {es' : List GateEvent} :
    r.version < r'.version → r'.id = r.id → r'.client = r.client →
    (r'.status = .created → hasEntered es' = true) → Passed r es r' es'

theorem Passed.moves {r'' : Reservation} {es'' : List GateEvent} (h : Passed r es r' es')
    (moves : r'.Moves settings now es' op r'' es'') : Passed r es r'' es'' := by
  obtain ⟨id, client, -, -, -, -, version⟩ := moves.fixed
  cases h with
  | stays => exact .moved (by rw [version]; exact Nat.lt_succ_self _) id client moves.used
  | moved later id' client' _ =>
    refine .moved ?_ (id.trans id') (client.trans client') moves.used
    rw [version]
    exact Nat.lt_succ_of_lt later

theorem Passed.of_ne (h : Passed r es r' es') (differs : r'.version ≠ r.version) :
    r'.id = r.id ∧ r'.client = r.client ∧ (r'.status = .created → hasEntered es' = true) := by
  cases h with
  | stays => exact absurd rfl differs
  | moved _ id client used => exact ⟨id, client, used⟩

end Reservation

namespace Traffic

variable {settings : Settings} {T T' : Traffic} {now : Moment} {id : Ulid} {r : Reservation}
  {es : List GateEvent}

def Holds (T : Traffic) (id : Ulid) (r : Reservation) (es : List GateEvent) : Prop :=
  ∃ r', T.tables.reservations.get? id = some r' ∧ r.Passed es r' (T.tables.eventsOf id)

theorem Step.holds (h : Step settings T T') (hs : T.Sound settings now) (hr : T.Holds id r es) :
    T'.Holds id r es := by
  cases h with
  | start | ask | draw | leave => exact hr
  | @commit t spent before after ctx op ids txn accepted =>
    cases txn with
    | nil => exact hr
    | cons c txn =>
      have transition := hs.transition (List.mem_append_right _ List.mem_cons_self) rfl
        (List.cons_ne_nil c txn) accepted
      have same : now.tables = t := hs.tables
      have linked : t.Linked := same ▸ now.linked
      obtain ⟨r', row, passed⟩ := hr
      cases transition.turns linked (Tables.refusal?_eq_none.1 accepted) id with
      | stays same events => exact ⟨r', same.trans row, by rw [events]; exact passed⟩
      | moves hb hr' moves =>
        cases row.symm.trans hb
        exact ⟨_, hr', passed.moves moves⟩
      | begins new => cases new.symm.trans row

theorem Steps.holds (h : Steps settings T T') (hs : T.Sound settings now) (hr : T.Holds id r es) :
    T'.Holds id r es := by
  induction h with
  | refl => exact hr
  | tail steps step ih =>
    obtain ⟨now', -, hs'⟩ := Steps.sound steps hs
    exact step.holds hs' ih

/-- A cancellation that is overtaken changes nothing and fails over the version, though run alone
afterwards it would tell what has become of the reservation. -/
theorem Reachable.cancel_overtaken {ctx : Context} (h : Reachable settings T)
    (steps : Steps settings T T') (hr : T.tables.reservations.get? id = some r)
    (created : r.status = .created) (unused : hasEntered (T.tables.eventsOf id) = false)
    (owner : r.requireOwner ctx.caller = .ok ()) :
    ∃ r', T'.tables.reservations.get? id = some r' ∧ ∀ e : Engine, e.tables = T'.tables →
      let cancel := (Operation.cancel id).program settings ctx
      let overtaken := e.run (cancel.readFrom T.tables)
      (r'.version = r.version → overtaken.answer =
        .ok (.reservation { r with status := .cancelled, version := r.version + 1 })) ∧
      (r'.version ≠ r.version →
        overtaken.answer =
          .error (.versionMismatch .reservation id (some r.version) (some r'.version)) ∧
        overtaken.engine = e ∧
        (e.run cancel).answer = .error (if r'.status = .created then .alreadyEntered id
          else .invalidStatus id r'.status "cancel")) := by
  obtain ⟨now, sound⟩ := h.sound
  have linked : T.tables.Linked := sound.tables ▸ now.linked
  obtain rfl := linked.reservation_id hr
  obtain ⟨r', row, passed⟩ := steps.holds sound ⟨r, hr, .stays⟩
  refine ⟨r', row, fun e he => ?_⟩
  intro cancel overtaken
  have row' : e.tables.reservations.get? r.id = some r' := by rw [he, row]
  refine ⟨Engine.run_cancel_in_time settings ctx hr owner created unused row', fun differs => ?_⟩
  obtain ⟨answer, engine⟩ :=
    Engine.run_cancel_overtaken settings ctx hr owner created unused row' differs
  obtain ⟨same, client, used⟩ := passed.of_ne differs
  have owner' : r'.requireOwner ctx.caller = .ok () := by
    rw [Reservation.requireOwner, same, client]
    exact owner
  rw [← he] at used
  exact ⟨answer, engine, Engine.run_cancel_used settings ctx r.id row' owner' used⟩

end Traffic

namespace Engine

theorem reachable_oneBooking : ∃ cs, oneBooking.Reachable cs := by
  obtain ⟨cs, one⟩ : ∃ cs, oneCar.Reachable cs := (Reachable.fresh _ _ _ _).serve _
  exact one.serve _

def booked : Reservation :=
  ⟨.ofNat 6, some (.ofNat 7), .ofNat 1, .ofNat 2, ⟨Limits.earliest, Limits.earliest + 3600000⟩,
    .created, true, none, 1⟩

theorem row_oneBooking : oneBooking.tables.reservations.get? (.ofNat 6) = some booked := by
  decide

theorem unused_oneBooking : hasEntered (oneBooking.tables.eventsOf (.ofNat 6)) = false := by
  decide

end Engine

namespace Traffic

set_option maxRecDepth 10000 in
theorem cancel_overtaken_oneBooking :
    let oneBooking := Engine.oneBooking
    let ctx : Context := ⟨.client (.ofNat 7), Limits.earliest⟩
    let cancel := (Operation.cancel (.ofNat 6)).program {} ctx
    ∃ (T T' : Traffic) (r : Reservation) (e : Engine), Reachable {} T ∧ Steps {} T T' ∧
      T.tables = oneBooking.tables ∧ T.tables.reservations.get? (.ofNat 6) = some r ∧
      r.status = .created ∧ hasEntered (T.tables.eventsOf (.ofNat 6)) = false ∧
      r.requireOwner ctx.caller = .ok () ∧ e.tables = T'.tables ∧
      (e.run (cancel.readFrom T.tables)).answer =
        .error (.versionMismatch .reservation (.ofNat 6) (some 1) (some 2)) ∧
      (e.run cancel).answer = .error (.invalidStatus (.ofNat 6) .expired "cancel") := by
  intro oneBooking ctx cancel
  obtain ⟨cs, reachable⟩ := Engine.reachable_oneBooking
  have before := Reachable.of_engine {} reachable
  let late : Context := ⟨.system, Limits.earliest + 3600001⟩
  let txn : Txn := [.updateReservation { Engine.booked with status := .expired }]
  obtain ⟨spent, -, reads⟩ := @Steps.through {} oneBooking.tables
    (fun u => ¬ oneBooking.tables.Lacks u) [] late (.expire (.ofNat 6)) []
    ((Operation.expire (.ofNat 6)).staging {} late).run .ofNat 9 (by decide) (by decide)
  have staged : (((Operation.expire (.ofNat 6)).staging {} late).run.eval
      oneBooking.tables .ofNat 9).1 = .ok txn := by decide
  rw [staged] at reads
  have commits := (Relation.ReflTransGen.head (.start late (.expire (.ofNat 6))) reads).tail
    (@Step.commit {} oneBooking.tables spent [] [] late _ _ txn (by decide))
  let e : Engine := { oneBooking with
    store := { oneBooking.store with tables := oneBooking.tables.apply txn.writes } }
  have owner : Engine.booked.requireOwner ctx.caller = .ok () := rfl
  obtain ⟨r', row, come⟩ :=
    before.cancel_overtaken commits Engine.row_oneBooking rfl Engine.unused_oneBooking owner
  have row' : (oneBooking.tables.apply txn.writes).reservations.get? (.ofNat 6) =
      some { Engine.booked with status := .expired, version := 2 } := by decide
  cases row'.symm.trans row
  obtain ⟨answer, -, alone⟩ := (come e rfl).2 (by decide)
  exact ⟨_, _, Engine.booked, e, before, commits, rfl, Engine.row_oneBooking, rfl,
    Engine.unused_oneBooking, owner, rfl, answer, alone⟩

end Traffic

namespace Engine

set_option maxRecDepth 10000 in
/-- The cancellation loses to an entry, and is told of a version. -/
theorem cancel_not_tried_again :
    let ctx : Context := ⟨.client (.ofNat 7), Limits.earliest⟩
    let cancel := (Operation.cancel (.ofNat 6)).program oneBooking.settings ctx
    let enter := (Operation.enter (.ofNat 6)).program oneBooking.settings ctx
    let entered := (oneBooking.run enter).engine
    (∃ cs, oneBooking.Reachable cs) ∧ 2 ≤ oneBooking.settings.capacityRetries ∧
      (∃ r, oneBooking.tables.reservations.get? (.ofNat 6) = some r ∧ r.status = .created ∧
        r.client = some (.ofNat 7) ∧ hasEntered (oneBooking.tables.eventsOf (.ofNat 6)) = false ∧
        ∃ r', entered.tables.reservations.get? (.ofNat 6) = some r' ∧
          r'.version = r.version + 1) ∧
      (entered.run cancel).answer = .error (.alreadyEntered (.ofNat 6)) ∧
      (entered.run (cancel.readFrom oneBooking.tables)).answer =
        .error (.versionMismatch .reservation (.ofNat 6) (some 1) (some 2)) := by
  intro ctx cancel enter entered
  have row : entered.tables.reservations.get? (.ofNat 6) =
      some { booked with code := some (Ulid.ofNat 7).code, version := 2 } := by decide
  have used : hasEntered (entered.tables.eventsOf (.ofNat 6)) = true := by decide
  have alone := run_cancel_used oneBooking.settings ctx (.ofNat 6) row rfl fun _ => used
  have differs : 2 ≠ booked.version := by decide
  obtain ⟨overtaken, -⟩ := @run_cancel_overtaken oneBooking.settings ctx entered
    oneBooking.tables booked _ row_oneBooking rfl rfl unused_oneBooking row differs
  exact ⟨reachable_oneBooking, by decide,
    ⟨booked, row_oneBooking, rfl, rfl, unused_oneBooking, _, row, rfl⟩, alone, overtaken⟩

end Engine

end Carpark
