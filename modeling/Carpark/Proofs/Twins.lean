import Carpark.Proofs.Agreement
import Carpark.Proofs.Closure

/-!
Engines that differ in the order of their indexes only, and in what is left of the past in the log
and in the numbering of identifiers. What is asked of them they answer in the same way.
-/

namespace Carpark

variable {α β : Type}

namespace Tables

variable {t t' : Tables}

theorem Alike.refusal? (h : t.Alike t') (txn : Txn) : t.refusal? txn = t'.refusal? txn := by
  have version : t.version? = t'.version? := by
    funext k
    cases k <;> simp [version?, h.parkings, h.sectors, h.reservations]
  simp only [Tables.refusal?, staleRow?, takenAddress?, version, h.addresses]

theorem Keyed.write (h : t.Keyed) (w : Write) : (t.write w).Keyed := by
  intro id r hr
  cases w with
  | putReservation row =>
    simp only [Tables.write, reservations_putReservation, Table.get?_insert] at hr
    split at hr
    next hid =>
      cases hr
      exact hid.symm
    next => exact h hr
  | deleteParking id => exact h (by simpa [Tables.write] using hr)
  | _ => exact h hr

theorem Keyed.apply (h : t.Keyed) (c : Commit) : (t.apply c).Keyed := by
  simp only [Tables.apply]
  generalize c.ordered = ws
  induction ws generalizing t with
  | nil => exact h
  | cons w ws ih => exact ih (h.write w)

end Tables

theorem Store.commit_of_alike {s s' : Store} (h : s.tables.Alike s'.tables) (keyed : s.tables.Keyed)
    (txn : Txn) :
    (s.commit txn).1 = (s'.commit txn).1 ∧ (s.commit txn).2.tables.Alike (s'.commit txn).2.tables ∧
      (s.commit txn).2.tables.Keyed := by
  cases empty : txn.isEmpty with
  | true =>
    rw [(commit_of_isEmpty (s := s) empty []).1, (commit_of_isEmpty (s := s') empty []).1]
    exact ⟨rfl, h, keyed⟩
  | false =>
    cases refusal : s.tables.refusal? txn with
    | some error =>
      have refusal' := h.refusal? txn ▸ refusal
      rw [(commit_of_refusal empty refusal []).1, (commit_of_refusal empty refusal' []).1]
      exact ⟨rfl, h, keyed⟩
    | none =>
      have refusal' := h.refusal? txn ▸ refusal
      rw [(commit_of_accepted empty refusal []).1, (commit_of_accepted empty refusal' []).1]
      exact ⟨rfl, h.apply _, keyed.apply _⟩

/-- No request tells these engines apart. A sweep runs on both of them or on neither. -/
structure Engine.Twin (sweeping : Bool) (e e' : Engine) : Prop where
  settings : e.settings = e'.settings
  notifier : e.notifier = e'.notifier
  sweeping_left : e.sweeping = sweeping
  sweeping_right : e'.sweeping = sweeping
  tables : e.tables.Alike e'.tables
  keyed : e.tables.Keyed
  supply : ∀ i, e.supply (e.drawn + i) = e'.supply (e'.drawn + i)

/-- On twins the program does the same and leaves twins. The flags say whether a sweep is running
before and after. -/
def Program.Steady (b b' : Bool) (p : Program α) : Prop :=
  ∀ e e' : Engine, e.Twin b e' →
    ((e.run p).answer = (e'.run p).answer ∧ (e.run p).signals = (e'.run p).signals) ∧
      (e.run p).engine.Twin b' (e'.run p).engine

namespace Program.Steady

variable {b b' c : Bool}

theorem pure (a : α) : Steady b b (Pure.pure a : Program α) :=
  fun _ _ twin => ⟨⟨rfl, rfl⟩, twin⟩

theorem bind {p : Program α} {f : α → Program β} (hp : Steady b b' p)
    (hf : ∀ a, Steady b' c (f a)) : Steady b c (p >>= f) := by
  intro e e' twin
  obtain ⟨⟨answer, signals⟩, twin'⟩ := hp e e' twin
  obtain ⟨⟨answer', signals'⟩, twin''⟩ := hf (e.run p).answer _ _ twin'
  rw [Engine.run_bind_answer, Engine.run_bind_answer, Engine.run_bind_signals,
    Engine.run_bind_signals, Engine.run_bind_engine, Engine.run_bind_engine, ← answer, ← signals]
  exact ⟨⟨answer', congrArg _ signals'⟩, twin''⟩

theorem ite {P : Prop} [Decidable P] {p q : Program α} (hp : Steady b c p) (hq : Steady b c q) :
    Steady b c (if P then p else q) := by
  split
  · exact hp
  · exact hq

theorem tell {s : Signal} {k : Program α} (hk : Steady b c k) : Steady b c (.tell s k) := by
  intro e e' twin
  obtain ⟨⟨answer, signals⟩, twin'⟩ := hk e e' twin
  exact ⟨⟨answer, congrArg (s :: ·) signals⟩, twin'⟩

theorem count (counter : Counter) : Steady b b (Program.count counter) := tell (pure ())

theorem line (l : LogLine) : Steady b b (Program.line l) := tell (pure ())

theorem notify {client : Ulid} {n : Notification} {k : Option String → Program α}
    (hk : ∀ reason, Steady b c (k reason)) : Steady b c (.notify client n k) := by
  intro e e' twin
  obtain ⟨⟨answer, signals⟩, twin'⟩ := hk (e.notifier.refusal client n) e e' twin
  simp only [Engine.run, Engine.noticeSignals, Outcome.after, ← twin.notifier]
  exact ⟨⟨answer, congrArg _ signals⟩, twin'⟩

theorem inform (client : Option Ulid) (n : Notification) :
    Steady b b (Program.inform client n) := by
  cases client with
  | none => exact pure ()
  | some client =>
    refine notify fun reason => ?_
    cases reason with
    | none => exact pure ()
    | some reason => exact bind (count _) fun _ => line _

theorem pause (ms : Nat) {k : Program α} (hk : Steady b c k) : Steady b c (.pause ms k) :=
  fun e e' twin => hk e e' twin

theorem beginSweep {k : Bool → Program α} (hk : Steady true c (k !b)) :
    Steady b c (.beginSweep k) := by
  intro e e' twin
  simp only [Engine.run, twin.sweeping_left, twin.sweeping_right]
  exact hk _ _ { twin with sweeping_left := rfl, sweeping_right := rfl }

theorem endSweep {k : Program α} (hk : Steady false c k) : Steady b c (.endSweep k) :=
  fun _ _ twin => hk _ _ { twin with sweeping_left := rfl, sweeping_right := rfl }

theorem ofReading {r : Reading α} (hr : r.Steady) : Steady b b (Program.ofReading r) := by
  intro e e' twin
  obtain ⟨answer, supply⟩ := hr _ _ _ _ _ _ twin.tables twin.keyed twin.supply
  rw [Engine.run_ofReading, Engine.run_ofReading]
  exact ⟨⟨answer, rfl⟩, { twin with supply }⟩

theorem ofLookup {l : Lookup α} (hl : l.Steady) : Steady b b (Program.ofLookup l) :=
  ofReading fun _ _ _ _ _ _ alike keyed same =>
    (hl _ _ _ _ _ _ alike keyed same).imp_left Except.Related.eq

theorem commit (txn : Txn) {k : Except CommitError Unit → Program α}
    (hk : ∀ result, Steady b c (k result)) : Steady b c (.commit txn k) := by
  intro e e' twin
  obtain ⟨result, alike, keyed⟩ := Store.commit_of_alike twin.tables twin.keyed txn
  have twin' : ({ e with store := (e.store.commit txn).2 } : Engine).Twin b
      { e' with store := (e'.store.commit txn).2 } := { twin with tables := alike, keyed }
  obtain ⟨same, twin''⟩ := hk (e.store.commit txn).1 _ _ twin'
  simp only [Engine.run, ← result]
  exact ⟨same, twin''⟩

theorem attempt {a : Lookup (Plan α)} (ha : a.Steady) : Steady b b (Program.attempt a) := by
  refine bind (ofLookup ha) fun r => ?_
  cases r with
  | error f => exact pure _
  | ok plan =>
    refine commit _ fun result => ?_
    cases result with
    | ok _ => exact pure _
    | error f => exact pure _

theorem closed : Closed fun p => Steady b b p where
  pure := pure
  bind := bind
  count := count
  line := line

theorem answering {p : Program (Except Failure α)} (hp : Steady b b p) (f : α → Answer) :
    Steady b b (p.answering f) :=
  closed.answering hp f

variable {a : Lookup (Plan α)} {settings : Settings} {name : OpName}

theorem attempts (ha : a.Steady) (left n : Nat) :
    Steady b b (Program.attempts settings name a left n) := by
  induction left generalizing n with
  | zero => exact attempt ha
  | succ left ih =>
    refine bind (attempt ha) fun r => ?_
    cases r with
    | ok answer => exact pure _
    | error failure => exact ite (bind (count _) fun _ => pause _ (ih (n + 1))) (pure _)

theorem retrying (ha : a.Steady) : Steady b b (Program.retrying settings name a) :=
  attempts ha _ _

theorem observe (r : Except Failure α) : Steady b b (Program.observe name r) := count _

theorem observing {p : Program (Except Failure α)} {f : Except Failure α → Program β}
    (hp : Steady b b p) (herror : ∀ failure, Steady b c (f (.error failure)))
    (hok : ∀ answer, Steady b c (f (.ok answer))) :
    Steady b c (p >>= fun r => Program.observe name r >>= fun _ => f r) := by
  refine bind hp fun r => bind (observe r) fun _ => ?_
  cases r with
  | error failure => exact herror failure
  | ok answer => exact hok answer

theorem once (ha : a.Steady) (l : α → Option String) : Steady b b (Registry.once name a l) := by
  refine observing (attempt ha) (fun _ => pure _) fun answer => ?_
  simp only
  cases l answer with
  | none => exact pure _
  | some message => exact bind (line _) fun _ => pure _

/-! ### Operations -/

theorem informing {a : Lookup (Plan (Option Reservation))} {ctx : Context} (ha : a.Steady)
    (n : Reservation → Notification) :
    Steady b b (match ctx.requirePrivileged with
      | .error e => return .error e
      | .ok () => do Termination.informing (← Program.retrying settings name a) n) := by
  cases ctx.requirePrivileged with
  | error failure => exact pure _
  | ok _ =>
    refine bind (retrying ha) fun r => ?_
    match r with
    | .error f => exact pure _
    | .ok none => exact pure _
    | .ok (some r) => exact bind (inform _ _) fun _ => pure _

theorem expire (ctx : Context) (id : Ulid) : Steady b b (Termination.expire settings ctx id) :=
  informing Termination.steady_expireAttempt _

theorem forceExit (ctx : Context) (id : Ulid) :
    Steady b b (Termination.forceExit settings ctx id) :=
  informing Termination.steady_forceExitAttempt _

theorem close (ctx : Context) (id : Ulid) : Steady b b (Termination.close settings ctx id) := by
  rw [Termination.close]
  cases ctx.requirePrivileged with
  | error failure => exact pure _
  | ok _ => exact retrying Termination.steady_closeAttempt

theorem finalizeDeactivation (ctx : Context) (id : Ulid) :
    Steady b b (Registry.finalizeDeactivation ctx id) :=
  attempt Registry.steady_finalizeAttempt

theorem operation (ctx : Context) (op : Operation) : Steady b b (op.program settings ctx) := by
  cases op with
  | createParking => exact answering (once Registry.steady_createAttempt _) _
  | updateParking => exact answering (once Registry.steady_updateAttempt _) _
  | deleteParking => exact answering (once Registry.steady_deleteAttempt _) _
  | addSector => exact answering (once Registry.steady_addSectorAttempt _) _
  | updateSector => exact answering (once Registry.steady_updateSectorAttempt _) _
  | activateSector => exact answering (once Registry.steady_activateAttempt _) _
  | deactivateSector => exact answering (once Registry.steady_deactivateAttempt _) _
  | deleteSector => exact answering (once Registry.steady_deleteSectorAttempt _) _
  | finalizeDeactivation id => exact answering (finalizeDeactivation ctx id) _
  | book sector start stop =>
    refine answering ?_ _
    simp only [Booking.make]
    cases Booking.request settings ctx start stop with
    | error failure =>
      exact observing (pure _) (fun _ => pure _) fun _ =>
        bind (line _) fun _ => bind (inform _ _) fun _ => pure _
    | ok made =>
      exact observing (retrying Booking.steady_makeAttempt) (fun _ => pure _) fun _ =>
        bind (line _) fun _ => bind (inform _ _) fun _ => pure _
  | cancel id =>
    refine answering ?_ _
    exact observing (attempt Booking.steady_cancelAttempt) (fun _ => pure _) fun _ =>
      bind (line _) fun _ => bind (inform _ _) fun _ => pure _
  | enter id =>
    refine answering ?_ _
    exact observing (retrying Gate.steady_enterAttempt) (fun _ => pure _) fun _ =>
      bind (line _) fun _ => pure _
  | driveIn parking anonymous =>
    refine answering ?_ _
    exact observing (retrying Gate.steady_driveInAttempt) (fun _ => pure _) fun _ =>
      bind (line _) fun _ => pure _
  | exit id code ending =>
    refine answering ?_ _
    exact observing (retrying Gate.steady_exitAttempt) (fun _ => pure _) fun _ =>
      bind (line _) fun _ => pure _
  | expire id => exact answering (expire ctx id) _
  | forceExit id => exact answering (forceExit ctx id) _
  | close id => exact answering (close ctx id) _
  | reservation id => exact answering (ofLookup Listing.steady_reservation) _
  | reservations page => exact answering (ofLookup Listing.steady_reservations) _
  | events id => exact answering (ofLookup Listing.steady_events) _

/-! ### Sweeps -/

theorem transition (now : Ms) (id : Ulid) (phase : SweepPhase) :
    Steady b b (Sweep.transition settings now id phase) := by
  cases phase with
  | expired => exact expire ⟨.system, now⟩ id
  | forceEnded => exact forceExit ⟨.system, now⟩ id
  | closed => exact close ⟨.system, now⟩ id
  | deactivated => exact finalizeDeactivation ⟨.system, now⟩ id

theorem sweep (now : Ms) : Steady b b (Sweep.once settings now) := by
  refine beginSweep ?_
  cases b with
  | true => exact bind (count _) fun _ => pure _
  | false =>
    refine bind (closed.phases (transition now) (fun _ => ofReading Sweep.steady_candidates) _ _)
      fun r => ?_
    exact ite (bind (line _) fun _ => endSweep (pure _)) (endSweep (pure _))

/-! ### Requests -/

theorem request (r : Request) (happends : r ≠ .appends) (hcompact : r ≠ .compact) :
    Steady b b (r.program settings) := by
  cases r with
  | operation ctx op => exact operation ctx op
  | parking id => exact answering (ofLookup (.parking id)) _
  | parkings page => exact answering (ofLookup Listing.steady_parkings) _
  | sector id => exact answering (ofLookup (.sector id)) _
  | sectors id page => exact answering (ofLookup Listing.steady_sectors) _
  | isOccupying id => exact answering (ofLookup Listing.steady_isOccupying) _
  | occupancy id => exact answering (ofLookup Listing.steady_occupancy) _
  | candidates now => exact bind (ofReading Sweep.steady_survey) fun _ => pure _
  | sweep now => exact bind (sweep now) fun _ => pure _
  | compact => exact absurd rfl hcompact
  | appends => exact absurd rfl happends
  | settings => exact pure _

end Program.Steady

end Carpark
