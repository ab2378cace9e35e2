import Carpark.Engine.Request

/-!
Properties that a program has because its parts have them. A sweep, and most of what can be asked
of an engine, is put together from readings and from a few steps; what holds of these holds of all.
-/

namespace Carpark

variable {α : Type}

/-- The property is closed under doing one thing after another, and counters and log lines do not
spoil it. -/
structure Program.Closed (P : ∀ {α : Type}, Program α → Prop) : Prop where
  pure : ∀ {α : Type} (a : α), P (Pure.pure a : Program α)
  bind : ∀ {α β : Type} {p : Program α} {f : α → Program β},
    P p → (∀ a, P (f a)) → P (p >>= f)
  count : ∀ c, P (Program.count c)
  line : ∀ l, P (Program.line l)

namespace Program.Closed

variable {P : ∀ {α : Type}, Program α → Prop} {settings : Settings} {now : Ms}

theorem answering (h : Closed @P) {p : Program (Except Failure α)} (hp : P p) (f : α → Answer) :
    P (p.answering f) :=
  h.bind hp fun _ => h.pure _

/-! ### Sweeps -/

theorem tally (h : Closed @P) (phase : SweepPhase) (id : Ulid) (r : SweepReport)
    (result : Except Failure Bool) : P (Sweep.tally phase id r result) := by
  cases result with
  | error e => exact h.bind (h.count _) fun _ => h.bind (h.line _) fun _ => h.pure _
  | ok moved =>
    cases moved with
    | false => exact h.pure _
    | true => exact h.bind (h.count _) fun _ => h.pure _

theorem rows (h : Closed @P)
    (transition : ∀ id phase, P (Sweep.transition settings now id phase)) (phase : SweepPhase)
    (ids : List Ulid) (r : SweepReport) : P (Sweep.rows settings now phase ids r) := by
  induction ids generalizing r with
  | nil => exact h.pure _
  | cons id ids ih => exact h.bind (transition id phase) fun result => h.bind (h.tally ..) ih

theorem phases (h : Closed @P)
    (transition : ∀ id phase, P (Sweep.transition settings now id phase))
    (candidates : ∀ phase, P (Program.ofReading (Sweep.candidates settings now phase)))
    (l : List SweepPhase) (r : SweepReport) : P (Sweep.phases settings now l r) := by
  induction l generalizing r with
  | nil => exact h.pure _
  | cons phase rest ih =>
    exact h.bind (candidates phase) fun ids => h.bind (h.rows transition phase ids r) ih

theorem sweep (h : Closed @P)
    (transition : ∀ id phase, P (Sweep.transition settings now id phase))
    (candidates : ∀ phase, P (Program.ofReading (Sweep.candidates settings now phase)))
    (beginSweep : ∀ k : Bool → Program (Option SweepReport), (∀ b, P (k b)) → P (.beginSweep k))
    (endSweep : ∀ r : SweepReport, P (.endSweep (.done (some r)))) :
    P (Sweep.once settings now) := by
  refine beginSweep _ fun free => ?_
  cases free with
  | false => exact h.bind (h.count _) fun _ => h.pure _
  | true =>
    refine h.bind (h.phases transition candidates _ _) fun r => ?_
    split
    · exact h.bind (h.line _) fun _ => endSweep r
    · exact endSweep r

/-! ### Requests -/

theorem request (h : Closed @P) (reading : ∀ {α : Type} (x : Reading α), P (Program.ofReading x))
    (r : Request)
    (operation : ∀ ctx op, r = .operation ctx op → P (op.program settings ctx))
    (sweep : ∀ now, r = .sweep now → P (Sweep.once settings now))
    (compact : r = .compact → P Upkeep.compact)
    (appends : P (.appends fun n => .done (.ok (.number n)) : Program (Except Failure Answer))) :
    P (r.program settings) := by
  cases r with
  | operation ctx op => exact operation ctx op rfl
  | sweep now => exact h.bind (sweep now rfl) fun _ => h.pure _
  | compact => exact h.answering (compact rfl) _
  | appends => exact appends
  | settings => exact h.pure _
  | candidates now => exact h.bind (reading _) fun _ => h.pure _
  | parking _ | parkings _ | sector _ | sectors _ _ | isOccupying _ | occupancy _ =>
    exact h.answering (reading _) _

end Program.Closed

end Carpark
