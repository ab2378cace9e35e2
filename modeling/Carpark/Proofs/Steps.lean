import Carpark.Proofs.Closure
import Carpark.Proofs.Tries
import Mathlib.Logic.Relation

/-!
A program that runs alone takes an engine through a sequence of steps: identifiers are drawn, what
an attempt at an operation stages is committed, the log is compacted, a sweep begins or ends.
-/

namespace Carpark

open Relation

variable {α β : Type}

/-- What an engine does next, by the operations that `may` admits, and how its log goes on. -/
inductive Engine.Step (settings : Settings) (may : Context → Operation → Prop) :
    Engine × List Commit → Engine × List Commit → Prop
  | draws {e : Engine} {cs : List Commit} {n : Nat} :
    e.drawn ≤ n → Step settings may (e, cs) ({ e with drawn := n }, cs)
  | commits {e : Engine} {cs : List Commit} {ctx : Context} {op : Operation} {txn : Txn}
      {n : Nat} :
    may ctx op → (op.staging settings ctx).run.eval e.tables e.supply e.drawn = (.ok txn, n) →
    txn.isEmpty = false → e.tables.refusal? txn = none →
    Step settings may (e, cs)
      ({ e with drawn := n, store := (e.store.commit txn).2 }, cs ++ [txn.writes])
  | compacts {e : Engine} {cs : List Commit} :
    Step settings may (e, cs) ({ e with store := e.store.compact.2 }, e.store.compacted cs)
  | sweeps {e : Engine} {cs : List Commit} (b : Bool) :
    Step settings may (e, cs) ({ e with sweeping := b }, cs)

theorem Engine.Tries.steps {settings : Settings} {may : Context → Operation → Prop} {ctx : Context}
    {op : Operation} {y y' : Engine × List Commit} {b : Bool}
    (h : Tries (op.staging settings ctx) y b y') (hop : may ctx op) :
    ReflTransGen (Step settings may) y y' := by
  have drawn {e : Engine} {result : Except Failure Txn} {n : Nat}
      (h : (op.staging settings ctx).run.eval e.tables e.supply e.drawn = (result, n)) :
      e.drawn ≤ n := by
    have := Reading.le_eval e.tables e.supply (op.staging settings ctx).run e.drawn
    rwa [h] at this
  induction h with
  | failed staged => exact .single (.draws (drawn staged))
  | refused staged _ _ => exact .single (.draws (drawn staged))
  | idle staged _ => exact .single (.draws (drawn staged))
  | committed staged writes accepted => exact .single (.commits hop staged writes accepted)
  | again _ _ ih ih' => exact ih.trans ih'

/-- The program goes through steps, whatever engine it runs on. -/
def Program.Steps (settings : Settings) (may : Context → Operation → Prop) (p : Program α) : Prop :=
  ∀ e cs, ReflTransGen (Engine.Step settings may) (e, cs) ((e.run p).engine, e.logged cs p)

namespace Program.Steps

variable {settings : Settings} {may : Context → Operation → Prop}

theorem silent {p : Program α} {a : α} (h : Silent p a) : Steps settings may p := by
  intro e cs
  obtain ⟨-, engine, logged⟩ := h e cs
  rw [engine, logged]

theorem bind {p : Program α} {f : α → Program β} (hp : Steps settings may p)
    (hf : ∀ a, Steps settings may (f a)) : Steps settings may (p >>= f) := by
  intro e cs
  rw [Engine.run_bind_engine, Engine.logged_bind]
  exact (hp e cs).trans (hf _ _ _)

theorem ofReading (r : Reading α) : Steps settings may (Program.ofReading r) := by
  intro e cs
  rw [Engine.run_ofReading, Engine.logged_ofReading]
  exact .single (.draws (Reading.le_eval _ _ _ _))

theorem tries {ctx : Context} {op : Operation} {p : Program (Except Failure α)} (hop : may ctx op)
    (h : Tries (op.staging settings ctx) p) : Steps settings may p :=
  fun e cs => (h e cs).steps hop

theorem closed : Closed fun p => Steps settings may p where
  pure a := silent (.pure a)
  bind := bind
  count c := silent (.count c)
  line l := silent (.line l)

end Program.Steps

/-! ### Sweeps -/

def Operation.isUpkeep : Operation → Bool
  | .expire _ | .forceExit _ | .close _ | .finalizeDeactivation _ => true
  | _ => false

def Sweep.may (now : Ms) (ctx : Context) (op : Operation) : Prop :=
  ctx = ⟨.system, now⟩ ∧ op.isUpkeep

namespace Program.Steps

variable {settings : Settings}

theorem transition (now : Ms) (id : Ulid) (phase : SweepPhase) :
    Steps settings (Sweep.may now) (Sweep.transition settings now id phase) := by
  cases phase with
  | expired => exact tries ⟨rfl, rfl⟩ (Tries.expire ⟨.system, now⟩ id)
  | forceEnded => exact tries ⟨rfl, rfl⟩ (Tries.forceExit ⟨.system, now⟩ id)
  | closed => exact tries ⟨rfl, rfl⟩ (Tries.close ⟨.system, now⟩ id)
  | deactivated => exact tries ⟨rfl, rfl⟩ (Tries.finalizeDeactivation ⟨.system, now⟩ id)

theorem beginSweep {may : Context → Operation → Prop} {k : Bool → Program α}
    (hk : ∀ b, Steps settings may (k b)) : Steps settings may (.beginSweep k) :=
  fun e cs => .head (.sweeps true) (hk (!e.sweeping) _ cs)

theorem sweep (now : Ms) : Steps settings (Sweep.may now) (Sweep.once settings now) :=
  closed.sweep (transition now) (fun _ => ofReading _) (fun _ => beginSweep)
    fun _ _ _ => .single (.sweeps false)

end Program.Steps

/-! ### Requests -/

def Request.may : Request → Context → Operation → Prop
  | .operation ctx op, ctx', op' => ctx' = ctx ∧ op' = op
  | .sweep now, ctx, op => Sweep.may now ctx op
  | _, _, _ => False

theorem Program.Steps.request (settings : Settings) (r : Request) :
    Steps settings r.may (r.program settings) := by
  refine closed.request ofReading r (fun ctx op hr => ?_) (fun now hr => ?_)
    (fun _ _ _ => .single .compacts) fun _ _ => .refl
  · subst hr
    exact tries ⟨rfl, rfl⟩ (.operation ctx op)
  · subst hr
    exact sweep now

end Carpark
