import Carpark.Engine.Program
import Carpark.Proofs.Twins
import Carpark.Proofs.Workshop

/-!
A program at the store while others use it. Each of its readings has an instant of its own, and so
has each step of a commit of its own; what others do in between is any number of steps of theirs.
-/

namespace Carpark

variable {α β : Type} {me : TaskId} {own : Ulid → Prop}

def Txn.Inserts (u : Ulid) (txn : Txn) : Prop := (.reservation u, none) ∈ txn.expects

def Job.Avoids (own : Ulid → Prop) : Job → Prop
  | .commit txn => ∀ u, own u → ¬ txn.Inserts u
  | .compact | .count => True

namespace Workshop

/-- Somebody else comes, and leaves one the identifiers that one has to oneself. -/
def Others (me : TaskId) (own : Ulid → Prop) (i : TaskId) (job : Job) : Prop :=
  i ≠ me ∧ job.Avoids own

def Does (me : TaskId) (own : Ulid → Prop) (job : Job) (S : Workshop)
    (result : Except CommitError Nat) (S' : Workshop) : Prop :=
  ∃ S₁ others, (∀ w ∈ S.crew, w.task ≠ me) ∧
    Steps (Others me own) { S with crew := ⟨me, job, .start⟩ :: S.crew } S₁ ∧
    S₁.crew.Perm (⟨me, job, .finished result⟩ :: others) ∧ S' = { S₁ with crew := others }

end Workshop

open Workshop

/-- The program ends in the second state, having drawn identifiers of its own only. Whether
notifications are accepted and sweeps are under way is not up to the store. -/
inductive Program.Amid (me : TaskId) (own : Ulid → Prop) :
    Program α → Workshop → α → Workshop → Prop
  | done (a : α) (S : Workshop) : Amid me own (.done a) S a S
  | ask {q : Query} {k : q.Answer → Program α} {S S₁ S' : Workshop} {a : α} :
    Workshop.Steps (Others me own) S S₁ → Amid me own (k (S₁.tables.answer q)) S₁ a S' →
    Amid me own (.ask q k) S a S'
  | draw {k : Ulid → Program α} {u : Ulid} {S S' : Workshop} {a : α} :
    own u → Amid me own (k u) S a S' → Amid me own (.draw k) S a S'
  | commit {txn : Txn} {k : Except CommitError Unit → Program α} {S S₁ S' : Workshop}
      {result : Except CommitError Nat} {a : α} :
    Does me own (.commit txn) S result S₁ → Amid me own (k (result.map fun _ => ())) S₁ a S' →
    Amid me own (.commit txn k) S a S'
  | compact {k : Except CommitError Unit → Program α} {S S₁ S' : Workshop}
      {result : Except CommitError Nat} {a : α} :
    Does me own .compact S result S₁ → Amid me own (k (result.map fun _ => ())) S₁ a S' →
    Amid me own (.compact k) S a S'
  | appends {k : Nat → Program α} {S S₁ S' : Workshop} {n : Nat} {a : α} :
    Does me own .count S (.ok n) S₁ → Amid me own (k n) S₁ a S' → Amid me own (.appends k) S a S'
  | tell {s : Signal} {k : Program α} {S S' : Workshop} {a : α} :
    Amid me own k S a S' → Amid me own (.tell s k) S a S'
  | notify {client : Ulid} {n : Notification} {k : Option String → Program α} {S S' : Workshop}
      (refusal : Option String) {a : α} :
    Amid me own (k refusal) S a S' → Amid me own (.notify client n k) S a S'
  | pause {ms : Nat} {k : Program α} {S S₁ S' : Workshop} {a : α} :
    Workshop.Steps (Others me own) S S₁ → Amid me own k S₁ a S' → Amid me own (.pause ms k) S a S'
  | beginSweep {k : Bool → Program α} {S S' : Workshop} (free : Bool) {a : α} :
    Amid me own (k free) S a S' → Amid me own (.beginSweep k) S a S'
  | endSweep {k : Program α} {S S' : Workshop} {a : α} :
    Amid me own k S a S' → Amid me own (.endSweep k) S a S'

namespace Program

theorem amid_bind {p : Program α} {f : α → Program β} {S S' : Workshop} {b : β} :
    (p >>= f).Amid me own S b S' ↔ ∃ a S₁, p.Amid me own S a S₁ ∧ (f a).Amid me own S₁ b S' := by
  constructor
  · intro h
    change Amid me own (p.bind f) S b S' at h
    induction p generalizing S with
    | done a => exact ⟨a, S, .done a S, h⟩
    | ask q k ih =>
      cases h with
      | ask steps h =>
        obtain ⟨a, S₁, first, second⟩ := ih _ h
        exact ⟨a, S₁, .ask steps first, second⟩
    | draw k ih =>
      cases h with
      | draw hu h =>
        obtain ⟨a, S₁, first, second⟩ := ih _ h
        exact ⟨a, S₁, .draw hu first, second⟩
    | commit txn k ih =>
      cases h with
      | commit does h =>
        obtain ⟨a, S₁, first, second⟩ := ih _ h
        exact ⟨a, S₁, .commit does first, second⟩
    | compact k ih =>
      cases h with
      | compact does h =>
        obtain ⟨a, S₁, first, second⟩ := ih _ h
        exact ⟨a, S₁, .compact does first, second⟩
    | appends k ih =>
      cases h with
      | appends does h =>
        obtain ⟨a, S₁, first, second⟩ := ih _ h
        exact ⟨a, S₁, .appends does first, second⟩
    | tell s k ih =>
      cases h with
      | tell h =>
        obtain ⟨a, S₁, first, second⟩ := ih h
        exact ⟨a, S₁, .tell first, second⟩
    | notify c n k ih =>
      cases h with
      | notify refusal h =>
        obtain ⟨a, S₁, first, second⟩ := ih _ h
        exact ⟨a, S₁, .notify refusal first, second⟩
    | pause ms k ih =>
      cases h with
      | pause steps h =>
        obtain ⟨a, S₁, first, second⟩ := ih h
        exact ⟨a, S₁, .pause steps first, second⟩
    | beginSweep k ih =>
      cases h with
      | beginSweep free h =>
        obtain ⟨a, S₁, first, second⟩ := ih _ h
        exact ⟨a, S₁, .beginSweep free first, second⟩
    | endSweep k ih =>
      cases h with
      | endSweep h =>
        obtain ⟨a, S₁, first, second⟩ := ih h
        exact ⟨a, S₁, .endSweep first, second⟩
  · rintro ⟨a, S₁, first, second⟩
    change Amid me own (p.bind f) S b S'
    induction first with
    | done a S => exact second
    | ask steps _ ih => exact .ask steps (ih second)
    | draw hu _ ih => exact .draw hu (ih second)
    | commit does _ ih => exact .commit does (ih second)
    | compact does _ ih => exact .compact does (ih second)
    | appends does _ ih => exact .appends does (ih second)
    | tell _ ih => exact .tell (ih second)
    | notify refusal _ ih => exact .notify refusal (ih second)
    | pause steps _ ih => exact .pause steps (ih second)
    | beginSweep free _ ih => exact .beginSweep free (ih second)
    | endSweep _ ih => exact .endSweep (ih second)

/-! ### What nobody has to wait for -/

def Calm (p : Program α) (a : α) : Prop :=
  ∀ me own S b S', p.Amid me own S b S' ↔ b = a ∧ S' = S

namespace Calm

theorem pure (a : α) : Calm (Pure.pure a) a := by
  intro me own S b S'
  constructor
  · intro h
    cases h
    exact ⟨rfl, rfl⟩
  · rintro ⟨rfl, rfl⟩
    exact .done _ _

theorem bind {p : Program α} {a : α} {f : α → Program β} {b : β} (hp : Calm p a)
    (hf : Calm (f a) b) : Calm (p >>= f) b := by
  intro me own S c S'
  rw [amid_bind]
  constructor
  · rintro ⟨_, _, first, second⟩
    obtain ⟨rfl, rfl⟩ := (hp _ _ _ _ _).1 first
    exact (hf _ _ _ _ _).1 second
  · intro h
    exact ⟨a, S, (hp _ _ _ _ _).2 ⟨rfl, rfl⟩, (hf _ _ _ _ _).2 h⟩

theorem tell {s : Signal} {k : Program α} {a : α} (h : Calm k a) : Calm (.tell s k) a := by
  intro me own S b S'
  rw [← h me own S b S']
  constructor
  · intro h
    cases h
    assumption
  · exact .tell

theorem count (c : Counter) : Calm (Program.count c) () := tell (pure ())

theorem line (l : LogLine) : Calm (Program.line l) () := tell (pure ())

theorem inform (client : Option Ulid) (n : Notification) : Calm (Program.inform client n) () := by
  cases client with
  | none => exact pure ()
  | some client =>
    intro me own S b S'
    constructor
    · intro h
      cases h with
      | notify refusal h =>
        cases refusal with
        | none => exact (pure () _ _ _ _ _).1 h
        | some reason => exact ((count .notifyFailure).bind (line _) _ _ _ _ _).1 h
    · rintro ⟨rfl, rfl⟩
      exact .notify none (.done _ _)

end Calm

end Program

end Carpark
