import Carpark.Proofs.Commits
import Carpark.Proofs.History

/-!
What an operation leaves behind. One that fails, or finds nothing to do, leaves the store as it was
and notifies nobody; any other appends one commit to the log and brings it to the tables.
-/

namespace Carpark

variable {α β : Type}

/-! ### Plans -/

/-- Whatever the reading succeeds with is one of these. -/
def Lookup.Yields (P : α → Prop) (x : Lookup α) : Prop :=
  ∀ t ids n a n', x.run.eval t ids n = (.ok a, n') → P a

namespace Lookup.Yields

variable {P : α → Prop} {Q : β → Prop}

theorem pure {a : α} (h : P a) : Yields P (Pure.pure a) := by
  intro t ids n b n' hb
  cases hb
  exact h

theorem throw (e : Failure) : Yields P (MonadExcept.throw e) := by
  intro t ids n b n' hb
  cases hb

theorem bind {x : Lookup β} {f : β → Lookup α} (hf : ∀ b, Yields P (f b)) :
    Yields P (x >>= f) := by
  intro t ids n a n' ha
  replace ha := (Reading.eval_bind t ids x.run _ n).symm.trans ha
  cases hx : (x.run.eval t ids n).1 with
  | error e =>
    rw [hx] at ha
    cases ha
  | ok b =>
    rw [hx] at ha
    exact hf b t ids _ a n' ha

theorem ite {c : Prop} [Decidable c] {x y : Lookup α} (hx : Yields P x) (hy : Yields P y) :
    Yields P (if c then x else y) := by
  split
  · exact hx
  · exact hy

theorem guard {c : Prop} [Decidable c] {e : Failure} {f : β → Lookup α} {x : Lookup α}
    (hx : Yields P x) : Yields P (if c then MonadExcept.throw e >>= f else x) :=
  ite (throw e) hx

theorem row {x : Lookup (Option β)} {f : Option β → Lookup α} (hsome : ∀ b, Yields P (f (some b)))
    (hnone : Yields P (f none)) : Yields P (x >>= f) :=
  bind fun o => by
    cases o with
    | none => exact hnone
    | some b => exact hsome b

end Lookup.Yields

def Plan.Fits (idle : α → Bool) (plan : Plan α) : Prop := plan.txn.isEmpty = idle plan.answer

abbrev Lookup.Plans (idle : α → Bool) (a : Lookup (Plan α)) : Prop := a.Yields (Plan.Fits idle)

abbrev Lookup.Changes (a : Lookup (Plan α)) : Prop := a.Plans fun _ => false

theorem Txn.isEmpty_of_mem {txn : Txn} {c : Change} (h : c ∈ txn) (hc : c.write?.isSome) :
    txn.isEmpty = false := by
  obtain ⟨w, hw⟩ := Option.isSome_iff_exists.1 hc
  exact List.isEmpty_eq_false_iff_exists_mem.2 ⟨w, List.mem_filterMap.2 ⟨c, h, hw⟩⟩

namespace Registry

open Lookup

variable {ctx : Context}

theorem plans_createAttempt {settings : Settings} {address : Address} {policy : Option Policy} :
    Changes (createAttempt ctx settings address policy) :=
  .bind fun _ => .bind fun _ => .bind fun _ => .pure rfl

theorem plans_updateAttempt {id : Ulid} {version : Version} {address : Address} {policy : Policy} :
    Changes (updateAttempt ctx id version address policy) :=
  .bind fun _ => .bind fun _ => .bind fun _ => .bind fun _ => .pure rfl

theorem plans_deleteAttempt {id : Ulid} {version : Version} :
    Changes (deleteAttempt ctx id version) :=
  .bind fun _ => .bind fun p => .bind fun _ => .bind fun _ => .bind fun _ => .guard <| .pure <|
    Txn.isEmpty_of_mem (c := .deleteParking p) (by simp) rfl

theorem plans_addSectorAttempt {parking : Ulid} {spec : SectorSpec} :
    Changes (addSectorAttempt ctx parking spec) :=
  .bind fun _ => .bind fun _ => .bind fun _ => .guard <| .bind fun _ => .bind fun _ => .pure rfl

theorem plans_updateSectorAttempt {id : Ulid} {version : Version} {spec : SectorSpec} :
    Changes (updateSectorAttempt ctx id version spec) :=
  .bind fun _ => .bind fun _ => .bind fun _ => .bind fun _ => .guard <| .guard <| .ite
    (.bind fun _ => .pure (Txn.isEmpty_of_mem (List.mem_append_right _ (.head _)) rfl))
    (.bind fun _ => .bind fun _ => .bind fun _ =>
      .pure (Txn.isEmpty_of_mem (List.mem_append_right _ (.head _)) rfl))

theorem plans_activateAttempt {id : Ulid} {version : Version} :
    Changes (activateAttempt ctx id version) :=
  .bind fun _ => .bind fun _ => .bind fun _ => .guard (.pure rfl)

theorem plans_deactivateAttempt {id : Ulid} {version : Version} {time : Ms} :
    Changes (deactivateAttempt ctx id version time) :=
  .bind fun _ => .bind fun _ => .bind fun _ => .guard (.guard (.guard (.pure rfl)))

theorem plans_deleteSectorAttempt {id : Ulid} {version : Version} :
    Changes (deleteSectorAttempt ctx id version) :=
  .bind fun _ => .bind fun _ => .bind fun _ => .bind fun _ => .guard (.bind fun _ => .pure rfl)

theorem plans_finalizeAttempt {id : Ulid} : Plans (!·) (finalizeAttempt ctx id) :=
  .bind fun _ => .row (fun _ => .ite (.pure rfl) (.pure rfl)) (.pure rfl)

end Registry

namespace Booking

open Lookup

variable {ctx : Context}

theorem plans_makeAttempt {client sector : Ulid} {window : Span} :
    Changes (makeAttempt ctx client sector window) :=
  .bind fun _ => .guard <| .bind fun _ => .guard <| .bind fun _ => .pure rfl

theorem plans_cancelAttempt {id : Ulid} : Changes (cancelAttempt ctx id) :=
  .bind fun _ => .bind fun _ => .guard <| .bind fun _ => .guard (.pure rfl)

end Booking

namespace Gate

open Lookup

variable {settings : Settings} {ctx : Context}

theorem plans_enterAttempt {id : Ulid} : Changes (enterAttempt ctx id) :=
  .bind fun _ => .bind fun _ => .guard <| .bind fun _ => .guard <| .guard <| .guard <|
    .bind fun _ => .bind fun _ => .bind fun _ => .bind fun _ => .pure rfl

theorem plans_driveInAttempt {parking : Ulid} {client : Option Ulid} :
    Changes (driveInAttempt settings ctx parking client) := by
  refine .bind fun p => .bind fun ss => ?_
  cases p.policy.choose ctx.now ss with
  | none => exact .throw _
  | some s => exact .bind fun _ => .bind fun _ => .bind fun _ => .bind fun _ => .pure rfl

theorem plans_exitAttempt {id : Ulid} {code : Option String} {ending : Bool} :
    Changes (exitAttempt ctx id code ending) :=
  .bind fun _ => .bind fun _ => .guard <| .bind fun _ => .guard <| .bind fun _ => .bind fun _ =>
    .bind fun _ => .pure rfl

end Gate

namespace Termination

open Lookup

variable {settings : Settings} {ctx : Context}

theorem plans_expireAttempt {id : Ulid} : Plans Option.isNone (expireAttempt ctx id) :=
  .row (fun _ => .bind fun _ => .ite (.pure rfl) (.pure rfl)) (.pure rfl)

theorem plans_forceExitAttempt {id : Ulid} :
    Plans Option.isNone (forceExitAttempt settings ctx id) :=
  .row (fun _ => .bind fun _ => .ite
    (.bind fun _ => .bind fun _ => .bind fun _ => .pure rfl) (.pure rfl)) (.pure rfl)

theorem plans_closeAttempt {id : Ulid} : Plans (!·) (closeAttempt ctx id) :=
  .row (fun _ => .bind fun _ => .ite (.pure rfl) (.pure rfl)) (.pure rfl)

end Termination

/-! ### Traces -/

def Store.recorded (s : Store) (c : Commit) : Store :=
  ⟨s.tables.apply c, (s.log.append c).flush⟩

def Outcome.notices (o : Outcome α) : List (Ulid × Notification) :=
  o.signals.filterMap Signal.notice?

/-- What an operation comes to on an engine with this store: its answer shows whether it leaves a
trace. -/
inductive Store.Settled (s : Store) (idle : α → Bool) (o : Outcome (Except Failure α)) : Prop
  | failed {f : Failure} :
    o.answer = .error f → o.engine.store = s → o.notices = [] → Settled s idle o
  | idle {a : α} :
    o.answer = .ok a → idle a = true → o.engine.store = s → o.notices = [] → Settled s idle o
  | done {a : α} (c : Commit) :
    o.answer = .ok a → idle a = false → c ≠ [] → o.engine.store = s.recorded c → Settled s idle o

theorem Store.Settled.of_eq {s : Store} {idle : α → Bool} {o o' : Outcome (Except Failure α)}
    (h : s.Settled idle o) (answer : o'.answer = o.answer)
    (store : o'.engine.store = o.engine.store) (notices : o'.notices = o.notices) :
    s.Settled idle o' := by
  cases h with
  | failed failed same quiet =>
    exact .failed (answer.trans failed) (store.trans same) (notices.trans quiet)
  | idle passed nothing same quiet =>
    exact .idle (answer.trans passed) nothing (store.trans same) (notices.trans quiet)
  | done c passed something writes commit =>
    exact .done c (answer.trans passed) something writes (store.trans commit)

def Program.Settles (idle : α → Bool) (p : Program (Except Failure α)) : Prop :=
  ∀ e : Engine, e.store.Settled idle (e.run p)

structure Program.Quiet (p : Program α) (a : α) : Prop where
  silent : Silent p a
  notices : ∀ e : Engine, (e.run p).notices = []

namespace Program.Quiet

theorem notices_bind (e : Engine) (p : Program α) (f : α → Program β) :
    (e.run (p >>= f)).notices =
      (e.run p).notices ++ ((e.run p).engine.run (f (e.run p).answer)).notices := by
  rw [Outcome.notices, Engine.run_bind_signals, List.filterMap_append]
  rfl

theorem pure (a : α) : Quiet (Pure.pure a) a := ⟨.pure a, fun _ => rfl⟩

theorem bind {p : Program α} {a : α} {f : α → Program β} {b : β} (hp : Quiet p a)
    (hf : Quiet (f a) b) : Quiet (p >>= f) b := by
  refine ⟨hp.silent.bind hf.silent, fun e => ?_⟩
  obtain ⟨answer, engine, -⟩ := hp.silent e []
  rw [notices_bind, hp.notices, answer, hf.notices]
  rfl

theorem count (c : Counter) : Quiet (Program.count c) () := ⟨.count c, fun _ => rfl⟩

end Program.Quiet

namespace Program.Settles

variable {idle : α → Bool}

theorem error (f : Failure) : Settles idle (Pure.pure (.error f)) :=
  fun _ => .failed rfl rfl rfl

theorem attempt {a : Lookup (Plan α)} (ha : a.Plans idle) : Settles idle (Program.attempt a) := by
  intro e
  have quiet : (e.run (Program.attempt a)).notices = [] := by
    rw [Program.attempt, Program.ofLookup, Quiet.notices_bind, Engine.run_ofReading]
    cases (a.run.eval e.tables e.supply e.drawn).1 with
    | error f => rfl
    | ok plan =>
      simp only [Engine.run]
      cases (e.store.commit plan.txn).1 <;> rfl
  rcases h : a.run.eval e.tables e.supply e.drawn with ⟨f | plan, n⟩
  · obtain ⟨answer, engine, -⟩ := Engine.run_attempt_error h []
    exact .failed answer (by rw [engine]) quiet
  · obtain ⟨answer, engine, -⟩ := Engine.run_attempt_ok h []
    replace engine := congrArg Engine.store engine
    have fits := ha _ _ _ _ _ h
    cases empty : plan.txn.isEmpty with
    | true =>
      rw [(Store.commit_of_isEmpty (s := e.store) empty []).1] at answer engine
      exact .idle answer (fits.symm.trans empty) engine quiet
    | false =>
      cases refusal : e.store.tables.refusal? plan.txn with
      | some error =>
        rw [(Store.commit_of_refusal empty refusal []).1] at answer engine
        exact .failed answer engine quiet
      | none =>
        rw [(Store.commit_of_accepted empty refusal []).1] at answer engine
        exact .done plan.txn.writes answer (fits.symm.trans empty)
          (by simpa [Txn.isEmpty] using empty) engine

theorem bind {p : Program (Except Failure α)} (hp : Settles idle p)
    {f : Except Failure α → Program (Except Failure β)} {idle' : β → Bool}
    (failed : ∀ e, Quiet (f (.error e)) (.error e))
    (passed : ∀ a, idle a = true → ∃ b, Quiet (f (.ok a)) (.ok b) ∧ idle' b = true)
    (done : ∀ a, idle a = false → ∃ b, Silent (f (.ok a)) (.ok b) ∧ idle' b = false) :
    Settles idle' (p >>= f) := by
  intro e
  have answer := Engine.run_bind_answer e p f
  have engine := Engine.run_bind_engine e p f
  have notices := Quiet.notices_bind e p f
  cases hp e with
  | failed answer₁ same quiet =>
    rw [answer₁] at answer engine notices
    obtain ⟨answer₂, engine₂, -⟩ := (failed _).silent (e.run p).engine []
    rw [engine₂] at engine
    rw [quiet, (failed _).notices] at notices
    exact .failed (answer.trans answer₂) (engine ▸ same) notices
  | idle answer₁ nothing same quiet =>
    rw [answer₁] at answer engine notices
    obtain ⟨b, quiet', nothing'⟩ := passed _ nothing
    obtain ⟨answer₂, engine₂, -⟩ := quiet'.silent (e.run p).engine []
    rw [engine₂] at engine
    rw [quiet, quiet'.notices] at notices
    exact .idle (answer.trans answer₂) nothing' (engine ▸ same) notices
  | done c answer₁ something writes commit =>
    rw [answer₁] at answer engine
    obtain ⟨b, silent, something'⟩ := done _ something
    obtain ⟨answer₂, engine₂, -⟩ := silent (e.run p).engine []
    rw [engine₂] at engine
    exact .done c (answer.trans answer₂) something' writes (engine ▸ commit)

theorem observing {p : Program (Except Failure α)} (hp : Settles (fun _ => false) p)
    {name : OpName} {f : Except Failure α → Program (Except Failure α)}
    (failed : ∀ e, Quiet (f (.error e)) (.error e)) (passed : ∀ a, Silent (f (.ok a)) (.ok a)) :
    Settles (fun _ => false) (p >>= fun r => Program.observe name r >>= fun _ => f r) :=
  hp.bind (fun e => .bind (.count _) (failed e)) (fun _ h => nomatch h) fun a _ =>
    ⟨a, .bind (.count _) (passed a), rfl⟩

theorem answering {p : Program (Except Failure α)} (hp : Settles idle p) {f : α → Answer}
    {idle' : Answer → Bool} (hf : ∀ a, idle' (f a) = idle a) : Settles idle' (p.answering f) :=
  hp.bind (fun _ => .pure _) (fun a h => ⟨f a, .pure _, (hf a).trans h⟩)
    fun a h => ⟨f a, .pure _, (hf a).trans h⟩

theorem changing {p : Program (Except Failure α)} (hp : Settles (fun _ => false) p) {f : α → Answer}
    {idle' : Answer → Bool} (hf : ∀ a, idle' (f a) = false) : Settles idle' (p.answering f) :=
  answering hp hf

theorem orElse {p : Program (Except Failure α)} (hp : Settles idle p)
    {f : Except Failure α → Program (Except Failure α)}
    (failed : ∀ e, Settles idle (f (.error e))) (passed : ∀ a, Quiet (f (.ok a)) (.ok a)) :
    Settles idle (p >>= f) := by
  intro e
  have answer := Engine.run_bind_answer e p f
  have engine := congrArg Engine.store (Engine.run_bind_engine e p f)
  have notices := Quiet.notices_bind e p f
  cases hp e with
  | @failed failure answer₁ same quiet =>
    rw [answer₁] at answer engine notices
    rw [quiet, List.nil_append] at notices
    have rest := failed failure (e.run p).engine
    rw [same] at rest
    exact rest.of_eq answer engine notices
  | idle answer₁ nothing same quiet =>
    rw [answer₁] at answer engine notices
    obtain ⟨answer₂, engine₂, -⟩ := (passed _).silent (e.run p).engine []
    rw [engine₂] at engine
    rw [quiet, (passed _).notices] at notices
    exact .idle (answer.trans answer₂) nothing (engine.trans same) notices
  | done c answer₁ something writes commit =>
    rw [answer₁] at answer engine
    obtain ⟨answer₂, engine₂, -⟩ := (passed _).silent (e.run p).engine []
    rw [engine₂] at engine
    exact .done c (answer.trans answer₂) something writes (engine.trans commit)

theorem attempts {a : Lookup (Plan α)} (ha : a.Plans idle) (s : Settings) (name : OpName)
    (left n : Nat) : Settles idle (Program.attempts s name a left n) := by
  induction left generalizing n with
  | zero => exact attempt ha
  | succ left ih =>
    refine orElse (attempt ha) (fun failure => ?_) fun _ => .pure _
    cases retry : failure.isRowContention with
    | true =>
      -- The retry is counted, and the pause passes.
      simp only [retry, if_true]
      exact fun e => (ih (n + 1) e).of_eq rfl rfl rfl
    | false =>
      simp only [retry]
      exact error failure

theorem retrying {a : Lookup (Plan α)} (ha : a.Plans idle) (s : Settings) (name : OpName) :
    Settles idle (Program.retrying s name a) :=
  attempts ha s name _ _

theorem once {a : Lookup (Plan α)} (ha : a.Changes) (name : OpName) (l : α → Option String) :
    Settles (fun _ => false) (Registry.once name a l) := by
  refine observing (attempt ha) (fun _ => .pure _) fun a => ?_
  simp only
  cases l a with
  | none => exact .pure _
  | some message => exact .bind (.line _) (.pure _)

theorem informing {a : Lookup (Plan (Option Reservation))} (ha : a.Plans Option.isNone)
    {settings : Settings} {ctx : Context} (name : OpName) (n : Reservation → Notification) :
    Settles (!·) (match ctx.requirePrivileged with
      | .error e => return .error e
      | .ok () => do Termination.informing (← Program.retrying settings name a) n) := by
  cases ctx.requirePrivileged with
  | error failure => exact error failure
  | ok _ =>
    refine bind (retrying ha _ _) (fun _ => .pure _) (fun r hr => ?_) fun r hr => ?_
    · cases r with
      | none => exact ⟨false, .pure _, rfl⟩
      | some r => cases hr
    · cases r with
      | none => cases hr
      | some r => exact ⟨true, .bind (.inform _ _) (.pure _), rfl⟩

theorem close (settings : Settings) (ctx : Context) (id : Ulid) :
    Settles (!·) (Termination.close settings ctx id) := by
  rw [Termination.close]
  cases ctx.requirePrivileged with
  | error failure => exact error failure
  | ok _ => exact retrying Termination.plans_closeAttempt _ _

end Program.Settles

def Operation.isQuery : Operation → Bool
  | .reservation _ | .reservations _ | .events _ => true
  | _ => false

def Answer.isIdle : Answer → Bool
  | .flag b => !b
  | _ => false

namespace Program.Settles

theorem operation (settings : Settings) (ctx : Context) {op : Operation}
    (changes : op.isQuery = false) : Settles Answer.isIdle (op.program settings ctx) := by
  cases op with
  | createParking => exact changing (once Registry.plans_createAttempt _ _) fun _ => rfl
  | updateParking => exact changing (once Registry.plans_updateAttempt _ _) fun _ => rfl
  | deleteParking => exact changing (once Registry.plans_deleteAttempt _ _) fun _ => rfl
  | addSector => exact changing (once Registry.plans_addSectorAttempt _ _) fun _ => rfl
  | updateSector => exact changing (once Registry.plans_updateSectorAttempt _ _) fun _ => rfl
  | activateSector => exact changing (once Registry.plans_activateAttempt _ _) fun _ => rfl
  | deactivateSector => exact changing (once Registry.plans_deactivateAttempt _ _) fun _ => rfl
  | deleteSector => exact changing (once Registry.plans_deleteSectorAttempt _ _) fun _ => rfl
  | finalizeDeactivation => exact answering (attempt Registry.plans_finalizeAttempt) fun _ => rfl
  | book sector start stop =>
    refine changing ?_ fun _ => rfl
    simp only [Booking.make]
    cases Booking.request settings ctx start stop with
    | error failure =>
      exact observing (error failure) (fun _ => .pure _) fun _ =>
        .bind (.line _) (.bind (.inform _ _) (.pure _))
    | ok made =>
      exact observing (retrying Booking.plans_makeAttempt _ _) (fun _ => .pure _) fun _ =>
        .bind (.line _) (.bind (.inform _ _) (.pure _))
  | cancel id =>
    refine changing ?_ fun _ => rfl
    exact observing (attempt Booking.plans_cancelAttempt) (fun _ => .pure _) fun _ =>
      .bind (.line _) (.bind (.inform _ _) (.pure _))
  | enter id =>
    refine changing ?_ fun _ => rfl
    exact observing (retrying Gate.plans_enterAttempt _ _) (fun _ => .pure _) fun _ =>
      .bind (.line _) (.pure _)
  | driveIn parking anonymous =>
    refine changing ?_ fun _ => rfl
    exact observing (retrying Gate.plans_driveInAttempt _ _) (fun _ => .pure _) fun _ =>
      .bind (.line _) (.pure _)
  | exit id code ending =>
    refine changing ?_ fun _ => rfl
    exact observing (retrying Gate.plans_exitAttempt _ _) (fun _ => .pure _) fun _ =>
      .bind (.line _) (.pure _)
  | expire id => exact answering (informing Termination.plans_expireAttempt _ _) fun _ => rfl
  | forceExit id => exact answering (informing Termination.plans_forceExitAttempt _ _) fun _ => rfl
  | close id => exact answering (close settings ctx id) fun _ => rfl
  | reservation id => cases changes
  | reservations page => cases changes
  | events id => cases changes

end Program.Settles

def Answer.isTraceless : Except Failure Answer → Bool
  | .error _ => true
  | .ok a => a.isIdle

namespace Engine

variable {e : Engine} {cs : List Commit}

/-- An operation that fails or finds nothing to do leaves no trace. Any other appends one commit,
which is all that has changed. -/
theorem Reachable.leaves_trace (h : e.Reachable cs) (ctx : Context) {op : Operation}
    (changes : op.isQuery = false) :
    let o := e.run (op.program e.settings ctx)
    (Answer.isTraceless o.answer = true → o.engine.store = e.store ∧ o.notices = []) ∧
      (Answer.isTraceless o.answer = false → ∃ c, c ≠ [] ∧
        o.engine.tables = e.tables.apply c ∧
        o.engine.store.log.bytes.data.toList =
          e.store.log.bytes.data.toList ++ Frame.encode c ∧
        o.engine.store.log.writer.buffer = .empty ∧
        o.engine.store.appends = e.store.appends + 1) := by
  intro o
  cases Program.Settles.operation e.settings ctx changes e with
  | failed answer store quiet =>
    refine ⟨fun _ => ⟨store, quiet⟩, fun trace => ?_⟩
    rw [show o.answer = _ from answer] at trace
    cases trace
  | idle answer nothing store quiet =>
    refine ⟨fun _ => ⟨store, quiet⟩, fun trace => ?_⟩
    rw [show o.answer = _ from answer] at trace
    cases nothing.symm.trans trace
  | done c answer something writes store =>
    refine ⟨fun trace => ?_, fun _ => ⟨c, writes, ?_⟩⟩
    · rw [show o.answer = _ from answer] at trace
      cases something.symm.trans trace
    · have before := h.sound.holds
      have after := before.append c
      rw [tables, show o.engine.store = _ from store]
      refine ⟨rfl, ?_, after.buffer,
        LogWriter.appends_append e.store.log.writer e.store.log.bytes c⟩
      rw [show (e.store.recorded c).log.bytes = _ from after.bytes, before.bytes]
      simp [LogWriter.fileOf]

set_option maxRecDepth 10000 in
theorem leaves_trace_oneCar :
    let close : Operation := .close (.ofNat 4)
    let left := oneCar.run (close.program oneCar.settings ⟨.system, 10⟩)
    let exit := oneCar.run (oneExit.program oneCar.settings)
    ∃ cs, oneCar.Reachable cs ∧
      -- Nobody closes a stay that goes on.
      left.engine.store = oneCar.store ∧ left.notices = [] ∧
      ∃ c, exit.engine.tables = oneCar.tables.apply c ∧
        exit.engine.store.appends = oneCar.store.appends + 1 := by
  intro close left exit
  obtain ⟨cs, reachable⟩ : ∃ cs, oneCar.Reachable cs := (Reachable.fresh _ _ _ _).serve _
  obtain ⟨same, quiet⟩ := (Reachable.leaves_trace reachable ⟨.system, 10⟩
    (show close.isQuery = false by rfl)).1 (by decide)
  obtain ⟨c, -, tables, -, -, appends⟩ := (Reachable.leaves_trace reachable ⟨.system, 10⟩
    (show (Operation.exit (.ofNat 4) none true).isQuery = false by rfl)).2 (by decide)
  exact ⟨cs, reachable, same, quiet, c, tables, appends⟩

end Engine

end Carpark
