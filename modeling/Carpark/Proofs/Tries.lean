import Carpark.Proofs.Runs

/-!
What the program of an operation comes to in terms of what its attempts stage. An attempt that
fails leaves the store as it was, and after one that succeeds there is no other: an operation
commits once or not at all.
-/

namespace Carpark

variable {α β : Type}

/-! ### What changes nothing -/

/-- The program has this result, and leaves the engine and its log as they are. -/
def Program.Silent (p : Program α) (a : α) : Prop :=
  ∀ (e : Engine) (cs : List Commit),
    (e.run p).answer = a ∧ (e.run p).engine = e ∧ e.logged cs p = cs

namespace Program.Silent

theorem pure (a : α) : Silent (Pure.pure a) a := fun _ _ => ⟨rfl, rfl, rfl⟩

theorem bind {p : Program α} {a : α} {f : α → Program β} {b : β} (hp : Silent p a)
    (hf : Silent (f a) b) : Silent (p >>= f) b := by
  intro e cs
  obtain ⟨answer, engine, logged⟩ := hp e cs
  rw [Engine.run_bind_answer, Engine.run_bind_engine, Engine.logged_bind, answer, engine, logged]
  exact hf e cs

theorem tell {s : Signal} {k : Program α} {a : α} (h : Silent k a) : Silent (.tell s k) a :=
  fun e cs => h e cs

theorem count (c : Counter) : Silent (Program.count c) () := tell (pure ())

theorem line (l : LogLine) : Silent (Program.line l) () := tell (pure ())

theorem inform (client : Option Ulid) (n : Notification) :
    Silent (Program.inform client n) () := by
  cases client with
  | none => exact pure ()
  | some client =>
    intro e cs
    cases h : e.notifier.refusal client n with
    | none =>
      simp only [Program.inform, Engine.run, Engine.logged, h]
      exact ⟨trivial, rfl, trivial⟩
    | some reason =>
      obtain ⟨-, engine, logged⟩ := bind (count .notifyFailure) (line {
        level := .warn, message := Notifier.refusalMessage reason
        fields := [("client_id", client.text)] }) e cs
      simp only [Program.inform, Engine.run, Engine.logged, h]
      exact ⟨trivial, engine, logged⟩

end Program.Silent

/-! ### Attempts one after another -/

/-- Attempts at staging `x`, of which only the last may succeed. -/
inductive Engine.Tries (x : Lookup Txn) :
    Engine × List Commit → Bool → Engine × List Commit → Prop
  | failed {e : Engine} {cs : List Commit} {f : Failure} {n : Nat} :
    x.run.eval e.tables e.supply e.drawn = (.error f, n) →
    Tries x (e, cs) false ({ e with drawn := n }, cs)
  | refused {e : Engine} {cs : List Commit} {txn : Txn} {n : Nat} {error : CommitError} :
    x.run.eval e.tables e.supply e.drawn = (.ok txn, n) → txn.isEmpty = false →
    e.tables.refusal? txn = some error → Tries x (e, cs) false ({ e with drawn := n }, cs)
  | idle {e : Engine} {cs : List Commit} {txn : Txn} {n : Nat} :
    x.run.eval e.tables e.supply e.drawn = (.ok txn, n) → txn.isEmpty = true →
    Tries x (e, cs) true ({ e with drawn := n }, cs)
  | committed {e : Engine} {cs : List Commit} {txn : Txn} {n : Nat} :
    x.run.eval e.tables e.supply e.drawn = (.ok txn, n) → txn.isEmpty = false →
    e.tables.refusal? txn = none →
    Tries x (e, cs) true
      ({ e with drawn := n, store := (e.store.commit txn).2 }, cs ++ [txn.writes])
  | again {y y' y'' : Engine × List Commit} {b : Bool} :
    Tries x y false y' → Tries x y' b y'' → Tries x y b y''

namespace Engine.Tries

variable {x : Lookup Txn} {y y' : Engine × List Commit} {b : Bool}

theorem store_of_false (h : Tries x y false y') : y'.1.store = y.1.store := by
  generalize hb : false = b at h
  induction h with
  | failed _ => rfl
  | refused _ _ _ => rfl
  | idle _ _ => cases hb
  | committed _ _ _ => cases hb
  | again _ _ ih ih' => exact (ih' hb).trans (ih rfl)

theorem tables (h : Tries x y b y') :
    y'.1.tables = y.1.tables ∨ ∃ ids n n' txn,
      x.run.eval y.1.tables ids n = (.ok txn, n') ∧ txn.isEmpty = false ∧
        y.1.tables.refusal? txn = none ∧ y'.1.tables = y.1.tables.apply txn.writes := by
  induction h with
  | failed _ => exact .inl rfl
  | refused _ _ _ => exact .inl rfl
  | idle _ _ => exact .inl rfl
  | committed staged writes accepted =>
    exact .inr ⟨_, _, _, _, staged, writes, accepted, Store.tables_commit writes accepted⟩
  | again first _ _ ih =>
    have same : _ = _ := congrArg Store.tables (store_of_false first)
    simp only [Engine.tables] at ih ⊢
    rwa [same] at ih

theorem of_accepted {txn : Txn} {n : Nat} (h : Tries x y b y')
    (staged : x.run.eval y.1.tables y.1.supply y.1.drawn = (.ok txn, n))
    (writes : txn.isEmpty = false) (accepted : y.1.tables.refusal? txn = none) :
    b = true ∧ y'.1.tables = y.1.tables.apply txn.writes ∧ y'.2 = y.2 ++ [txn.writes] := by
  induction h with
  | failed failed => cases failed.symm.trans staged
  | refused staged' _ refused =>
    cases staged'.symm.trans staged
    cases refused.symm.trans accepted
  | idle staged' nothing =>
    cases staged'.symm.trans staged
    cases nothing.symm.trans writes
  | committed staged' _ _ =>
    cases staged'.symm.trans staged
    exact ⟨rfl, Store.tables_commit writes accepted, rfl⟩
  | again _ _ ih _ => cases (ih staged accepted).1

end Engine.Tries

/-! ### Operations -/

def Program.Tries (x : Lookup Txn) (p : Program (Except Failure α)) : Prop :=
  ∀ (e : Engine) (cs : List Commit),
    Engine.Tries x (e, cs) (e.run p).answer.isOk ((e.run p).engine, e.logged cs p)

namespace Program.Tries

variable {x : Lookup Txn} {settings : Settings}

theorem error {f : Failure} (h : x = throw f) :
    Tries x (Pure.pure (.error f) : Program (Except Failure α)) := by
  subst h
  exact fun e cs => .failed rfl

theorem attempt {a : Lookup (Plan α)} (h : x = a.txn) : Tries x (Program.attempt a) := by
  subst h
  intro e cs
  match hr : a.run.eval e.tables e.supply e.drawn with
  | (.error f, n) =>
    obtain ⟨answer, engine, logged⟩ := Engine.run_attempt_error hr cs
    rw [answer, engine, logged]
    exact .failed (by rw [Lookup.eval_txn, hr]; rfl)
  | (.ok plan, n) =>
    obtain ⟨answer, engine, logged⟩ := Engine.run_attempt_ok hr cs
    have staged : a.txn.run.eval e.tables e.supply e.drawn = (.ok plan.txn, n) := by
      rw [Lookup.eval_txn, hr]
      rfl
    cases empty : plan.txn.isEmpty with
    | true =>
      obtain ⟨commit, logged'⟩ := Store.commit_of_isEmpty (s := e.store) empty cs
      rw [answer, engine, logged, logged', commit]
      exact .idle staged empty
    | false =>
      cases refusal : e.store.tables.refusal? plan.txn with
      | some error =>
        obtain ⟨commit, logged'⟩ := Store.commit_of_refusal empty refusal cs
        rw [answer, engine, logged, logged', commit]
        exact .refused staged empty refusal
      | none =>
        obtain ⟨commit, logged'⟩ := Store.commit_of_accepted empty refusal cs
        rw [answer, engine, logged, logged', commit]
        rw [show (⟨_, _⟩ : Store) = (e.store.commit plan.txn).2 from
          (congrArg Prod.snd commit).symm]
        exact .committed staged empty refusal

theorem bind {p : Program (Except Failure α)} (hp : Tries x p)
    {f : Except Failure α → Program (Except Failure β)}
    (hf : ∀ r, ∃ r', Silent (f r) r' ∧ r'.isOk = r.isOk) : Tries x (p >>= f) := by
  intro e cs
  obtain ⟨r', silent, same⟩ := hf (e.run p).answer
  obtain ⟨answer, engine, logged⟩ := silent (e.run p).engine (e.logged cs p)
  rw [Engine.run_bind_answer, Engine.run_bind_engine, Engine.logged_bind, answer, engine, logged,
    same]
  exact hp e cs

theorem answering {p : Program (Except Failure α)} (hp : Tries x p) (f : α → Answer) :
    Tries x (p.answering f) :=
  hp.bind fun r => ⟨r.map f, .pure _, by cases r <;> rfl⟩

theorem attempts {a : Lookup (Plan α)} (h : x = a.txn) (s : Settings) (name : OpName)
    (left n : Nat) : Tries x (Program.attempts s name a left n) := by
  induction left generalizing n with
  | zero => exact attempt h
  | succ left ih =>
    intro e cs
    have first := attempt h e cs
    rw [Program.attempts, Engine.run_bind_answer, Engine.run_bind_engine, Engine.logged_bind]
    cases answer : (e.run (Program.attempt a)).answer with
    | ok result =>
      rw [answer] at first
      exact first
    | error failure =>
      rw [answer] at first
      cases retry : failure.isRowContention with
      | true =>
        simp only [retry, if_true]
        exact first.again (ih (n + 1) _ _)
      | false =>
        simp only [retry]
        exact first

theorem retrying {a : Lookup (Plan α)} (h : x = a.txn) (s : Settings) (name : OpName) :
    Tries x (Program.retrying s name a) :=
  attempts h s name _ _

theorem once {a : Lookup (Plan α)} (h : x = a.txn) (name : OpName) (l : α → Option String) :
    Tries x (Registry.once name a l) := by
  refine bind (attempt h) fun r => ⟨r, .bind (.count _) ?_, rfl⟩
  cases r with
  | error failure => exact .pure _
  | ok answer =>
    simp only
    cases l answer with
    | none => exact .pure _
    | some message => exact .bind (.line _) (.pure _)

theorem reading (l : Lookup α) : Tries (do let _ ← l; return []) (Program.ofLookup l) := by
  intro e cs
  rw [Program.ofLookup, Engine.run_ofReading, Engine.logged_ofReading]
  have staged : (do let _ ← l; return [] : Lookup Txn).run.eval e.tables e.supply e.drawn =
      ((l.run.eval e.tables e.supply e.drawn).1.map fun _ => [],
        (l.run.eval e.tables e.supply e.drawn).2) := by
    refine (Reading.eval_bind e.tables e.supply l.run _ e.drawn).trans ?_
    cases (l.run.eval e.tables e.supply e.drawn).1 <;> rfl
  cases h : (l.run.eval e.tables e.supply e.drawn).1 with
  | error f => exact .failed (by rw [staged, h]; rfl)
  | ok a => exact .idle (by rw [staged, h]; rfl) rfl

theorem informing {a : Lookup (Plan (Option Reservation))} {ctx : Context} (name : OpName)
    (n : Reservation → Notification) :
    Tries (do ctx.requirePrivileged; a.txn) (match ctx.requirePrivileged with
      | .error e => return .error e
      | .ok () => do Termination.informing (← Program.retrying settings name a) n) := by
  cases admin : ctx.requirePrivileged with
  | error failure => exact error rfl
  | ok _ =>
    refine bind (retrying rfl _ _) fun r => ?_
    match r with
    | .error f => exact ⟨.error f, .pure _, rfl⟩
    | .ok none => exact ⟨.ok false, .pure _, rfl⟩
    | .ok (some r) => exact ⟨.ok true, .bind (.inform _ _) (.pure _), rfl⟩

theorem expire (ctx : Context) (id : Ulid) :
    Tries ((Operation.expire id).staging settings ctx) (Termination.expire settings ctx id) :=
  informing _ _

theorem forceExit (ctx : Context) (id : Ulid) :
    Tries ((Operation.forceExit id).staging settings ctx)
      (Termination.forceExit settings ctx id) :=
  informing _ _

theorem close (ctx : Context) (id : Ulid) :
    Tries ((Operation.close id).staging settings ctx) (Termination.close settings ctx id) := by
  simp only [Operation.staging, Termination.close]
  cases admin : ctx.requirePrivileged with
  | error failure => exact error rfl
  | ok _ => exact retrying rfl _ _

theorem finalizeDeactivation (ctx : Context) (id : Ulid) :
    Tries ((Operation.finalizeDeactivation id).staging settings ctx)
      (Registry.finalizeDeactivation ctx id) :=
  attempt rfl

theorem operation (ctx : Context) (op : Operation) :
    Tries (op.staging settings ctx) (op.program settings ctx) := by
  cases op with
  | createParking address policy => exact (once rfl _ _).answering _
  | updateParking id version address policy => exact (once rfl _ _).answering _
  | deleteParking id version => exact (once rfl _ _).answering _
  | addSector parking spec => exact (once rfl _ _).answering _
  | updateSector id version spec => exact (once rfl _ _).answering _
  | activateSector id version => exact (once rfl _ _).answering _
  | deactivateSector id version time => exact (once rfl _ _).answering _
  | deleteSector id version => exact (once rfl _ _).answering _
  | finalizeDeactivation id => exact (finalizeDeactivation ctx id).answering _
  | book sector start stop =>
    refine answering ?_ _
    simp only [Operation.staging, Booking.make]
    cases request : Booking.request settings ctx start stop with
    | error failure =>
      refine bind (error rfl) fun r => ⟨r, .bind (.count _) ?_, rfl⟩
      cases r with
      | error failure => exact .pure _
      | ok r => exact .bind (.line _) (.bind (.inform _ _) (.pure _))
    | ok made =>
      refine bind (retrying rfl _ _) fun r => ⟨r, .bind (.count _) ?_, rfl⟩
      cases r with
      | error failure => exact .pure _
      | ok r => exact .bind (.line _) (.bind (.inform _ _) (.pure _))
  | cancel id =>
    refine answering (bind (attempt rfl) fun r => ⟨r, .bind (.count _) ?_, rfl⟩) _
    cases r with
    | error failure => exact .pure _
    | ok r => exact .bind (.line _) (.bind (.inform _ _) (.pure _))
  | enter id =>
    refine answering (bind (retrying rfl _ _) fun r => ⟨r, .bind (.count _) ?_, rfl⟩) _
    cases r with
    | error failure => exact .pure _
    | ok r => exact .bind (.line _) (.pure _)
  | driveIn parking anonymous =>
    refine answering (bind (retrying rfl _ _) fun r => ⟨r, .bind (.count _) ?_, rfl⟩) _
    cases r with
    | error failure => exact .pure _
    | ok r => exact .bind (.line _) (.pure _)
  | exit id code ending =>
    refine answering (bind (retrying rfl _ _) fun r => ⟨r, .bind (.count _) ?_, rfl⟩) _
    cases r with
    | error failure => exact .pure _
    | ok r => exact .bind (.line _) (.pure _)
  | expire id => exact (expire ctx id).answering _
  | forceExit id => exact (forceExit ctx id).answering _
  | close id => exact (close ctx id).answering _
  | reservation id => exact (reading _).answering _
  | reservations page => exact (reading _).answering _
  | events id => exact (reading _).answering _

end Program.Tries

end Carpark
