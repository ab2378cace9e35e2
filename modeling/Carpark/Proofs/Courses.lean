import Carpark.Proofs.Closure
import Carpark.Proofs.News

/-!
Every course that a program may take, whatever others do to the store and whatever the delivery
service says. On each of them the notifications that it hands over are the news of the transactions
that it gets through, and it goes on in the same way whether or not they are refused.
-/

namespace Carpark

variable {α β : Type}

/-- A reservation is found under its own identifier. -/
def Query.Sane : (q : Query) → q.Answer → Prop
  | .reservation id, r? => ∀ r, r? = some r → r.id = id
  | _, _ => True

/-! ### Readings -/

def Reading.Always (P : α → Prop) : Reading α → Prop
  | .done a => P a
  | .ask q k => ∀ r, q.Sane r → (k r).Always P
  | .draw k => ∀ u, (k u).Always P

theorem Reading.Always.bind {P : α → Prop} {Q : β → Prop} {x : Reading α} {f : α → Reading β}
    (hx : x.Always P) (hf : ∀ a, P a → (f a).Always Q) : (x.bind f).Always Q := by
  induction x with
  | done a => exact hf a hx
  | ask q k ih => exact fun r sane => ih r (hx r sane)
  | draw k ih => exact fun u => ih u (hx u)

theorem Reading.Always.mono {P Q : α → Prop} {x : Reading α} (hx : x.Always P)
    (h : ∀ a, P a → Q a) : x.Always Q := by
  induction x with
  | done a => exact h a hx
  | ask q k ih => exact fun r sane => ih r (hx r sane)
  | draw k ih => exact fun u => ih u (hx u)

theorem Reading.Always.any (x : Reading α) : x.Always fun _ => True := by
  induction x with
  | done a => trivial
  | ask q k ih => exact fun r _ => ih r
  | draw k ih => exact ih

def Lookup.Always (P : α → Prop) (x : Lookup α) : Prop :=
  x.run.Always fun r => ∀ a, r = .ok a → P a

namespace Lookup.Always

variable {P : α → Prop} {Q : β → Prop}

theorem pure {a : α} (h : P a) : Always P (Pure.pure a) := by
  rintro _ ⟨⟩
  exact h

theorem throw (e : Failure) : Always P (MonadExcept.throw e) := nofun

theorem bind {x : Lookup β} {f : β → Lookup α} (hx : Always Q x) (hf : ∀ b, Q b → Always P (f b)) :
    Always P (x >>= f) := by
  refine Reading.Always.bind hx fun r hr => ?_
  cases r with
  | error e => exact throw (P := P) e
  | ok b => exact hf b (hr b rfl)

theorem any (x : Lookup α) : Always (fun _ => True) x :=
  (Reading.Always.any x.run).mono fun _ _ _ _ => trivial

theorem bind_any {x : Lookup β} {f : β → Lookup α} (hf : ∀ b, Always P (f b)) :
    Always P (x >>= f) :=
  bind (any x) fun b _ => hf b

theorem ite {c : Prop} [Decidable c] {x y : Lookup α} (hx : Always P x) (hy : Always P y) :
    Always P (if c then x else y) := by
  split
  · exact hx
  · exact hy

theorem guard {c : Prop} [Decidable c] {e : Failure} {f : β → Lookup α} {x : Lookup α}
    (hx : ¬ c → Always P x) : Always P (if c then MonadExcept.throw e >>= f else x) := by
  split
  · exact throw (P := P) e
  next passed => exact hx passed

theorem ask_reservation (id : Ulid) :
    Always (fun r? : Option Reservation => ∀ r, r? = some r → r.id = id)
      (Lookup.ask (.reservation id)) := by
  rintro r? sane _ ⟨⟩
  exact sane

theorem row {id : Ulid} {f : Option Reservation → Lookup α}
    (hsome : ∀ r, r.id = id → Always P (f (some r))) (hnone : Always P (f none)) :
    Always P (Lookup.ask (.reservation id) >>= f) := by
  refine bind (ask_reservation id) fun r? hr => ?_
  cases r? with
  | none => exact hnone
  | some r => exact hsome r (hr r rfl)

theorem reservation (id : Ulid) : Always (fun r => r.id = id) (Lookup.reservation id) :=
  row (fun _ hr => pure hr) (throw _)

end Lookup.Always

/-! ### Courses -/

/-- A course that the program may take: the transactions that get through, the notifications, and
the result. All answers on its way are up to others. -/
inductive Program.Course : Program α → List Txn → News → α → Prop
  | done (a : α) : Course (.done a) [] [] a
  | ask {q : Query} {k : q.Answer → Program α} {txns : List Txn} {ns : News} {a : α}
      (r : q.Answer) : q.Sane r → Course (k r) txns ns a → Course (.ask q k) txns ns a
  | draw {k : Ulid → Program α} {txns : List Txn} {ns : News} {a : α} (u : Ulid) :
    Course (k u) txns ns a → Course (.draw k) txns ns a
  | idle {txn : Txn} {k : Except CommitError Unit → Program α} {txns : List Txn} {ns : News}
      {a : α} : txn.isEmpty = true → Course (k (.ok ())) txns ns a →
    Course (.commit txn k) txns ns a
  | commit {txn : Txn} {k : Except CommitError Unit → Program α} {txns : List Txn} {ns : News}
      {a : α} : txn.isEmpty = false → Course (k (.ok ())) txns ns a →
    Course (.commit txn k) (txn :: txns) ns a
  | refused {txn : Txn} {k : Except CommitError Unit → Program α} {txns : List Txn} {ns : News}
      {a : α} (e : CommitError) : Course (k (.error e)) txns ns a →
    Course (.commit txn k) txns ns a
  | compact {k : Except CommitError Unit → Program α} {txns : List Txn} {ns : News} {a : α}
      (result : Except CommitError Unit) : Course (k result) txns ns a →
    Course (.compact k) txns ns a
  | appends {k : Nat → Program α} {txns : List Txn} {ns : News} {a : α} (n : Nat) :
    Course (k n) txns ns a → Course (.appends k) txns ns a
  | tell {s : Signal} {k : Program α} {txns : List Txn} {ns : News} {a : α} :
    Course k txns ns a → Course (.tell s k) txns (s.notice?.toList ++ ns) a
  | notify {client : Ulid} {n : Notification} {k : Option String → Program α} {txns : List Txn}
      {ns : News} {a : α} (refusal : Option String) : Course (k refusal) txns ns a →
    Course (.notify client n k) txns ((client, n) :: ns) a
  | pause {ms : Nat} {k : Program α} {txns : List Txn} {ns : News} {a : α} :
    Course k txns ns a → Course (.pause ms k) txns ns a
  | beginSweep {k : Bool → Program α} {txns : List Txn} {ns : News} {a : α} (free : Bool) :
    Course (k free) txns ns a → Course (.beginSweep k) txns ns a
  | endSweep {k : Program α} {txns : List Txn} {ns : News} {a : α} :
    Course k txns ns a → Course (.endSweep k) txns ns a

namespace Program

/-- The program after all answers of this delivery service, with what it tells left out. -/
def hushed (refusal : Ulid → Notification → Option String) : Program α → Program α
  | .done a => .done a
  | .ask q k => .ask q fun r => (k r).hushed refusal
  | .draw k => .draw fun u => (k u).hushed refusal
  | .commit txn k => .commit txn fun r => (k r).hushed refusal
  | .compact k => .compact fun r => (k r).hushed refusal
  | .appends k => .appends fun n => (k n).hushed refusal
  | .tell _ k => k.hushed refusal
  | .notify client n k => (k (refusal client n)).hushed refusal
  | .pause ms k => .pause ms (k.hushed refusal)
  | .beginSweep k => .beginSweep fun b => (k b).hushed refusal
  | .endSweep k => .endSweep (k.hushed refusal)

def Appending : Program α → Prop
  | .done _ => True
  | .ask _ k => ∀ r, (k r).Appending
  | .draw k => ∀ u, (k u).Appending
  | .commit _ k => ∀ r, (k r).Appending
  | .compact _ => False
  | .appends k => ∀ n, (k n).Appending
  | .tell _ k => k.Appending
  | .notify _ _ k => ∀ r, (k r).Appending
  | .pause _ k => k.Appending
  | .beginSweep k => ∀ b, (k b).Appending
  | .endSweep k => k.Appending

theorem hushed_bind (refusal : Ulid → Notification → Option String) (p : Program α)
    (f : α → Program β) :
    (p >>= f).hushed refusal = p.hushed refusal >>= fun a => (f a).hushed refusal := by
  change (p.bind f).hushed refusal = (p.hushed refusal).bind fun a => (f a).hushed refusal
  induction p <;> simp [Program.bind, hushed, *]

theorem Appending.bind {p : Program α} {f : α → Program β} (hp : p.Appending)
    (hf : ∀ a, (f a).Appending) : (p >>= f).Appending := by
  change (p.bind f).Appending
  induction p with
  | done a => exact hf a
  | compact k => exact hp.elim
  | tell s k ih | pause ms k ih | endSweep k ih => exact ih hp
  | ask q k ih | draw k ih | commit txn k ih | appends k ih | notify c n k ih
  | beginSweep k ih => exact fun r => ih r (hp r)

theorem course_bind {p : Program α} {f : α → Program β} {txns : List Txn}
    {ns : News} {b : β} (h : (p >>= f).Course txns ns b) :
    ∃ a txns₁ ns₁ txns₂ ns₂, p.Course txns₁ ns₁ a ∧ (f a).Course txns₂ ns₂ b ∧
      txns = txns₁ ++ txns₂ ∧ ns = ns₁ ++ ns₂ := by
  change (p.bind f).Course txns ns b at h
  induction p generalizing txns ns with
  | done a => exact ⟨a, [], [], txns, ns, .done a, h, rfl, rfl⟩
  | ask q k ih =>
    cases h with
    | ask r sane h =>
      obtain ⟨a, _, _, _, _, first, second, rfl, rfl⟩ := ih r h
      exact ⟨a, _, _, _, _, .ask r sane first, second, rfl, rfl⟩
  | draw k ih =>
    cases h with
    | draw u h =>
      obtain ⟨a, _, _, _, _, first, second, rfl, rfl⟩ := ih u h
      exact ⟨a, _, _, _, _, .draw u first, second, rfl, rfl⟩
  | commit txn k ih =>
    cases h with
    | idle empty h =>
      obtain ⟨a, _, _, _, _, first, second, rfl, rfl⟩ := ih _ h
      exact ⟨a, _, _, _, _, .idle empty first, second, rfl, rfl⟩
    | commit writes h =>
      obtain ⟨a, _, _, _, _, first, second, rfl, rfl⟩ := ih _ h
      exact ⟨a, _, _, _, _, .commit writes first, second, rfl, rfl⟩
    | refused e h =>
      obtain ⟨a, _, _, _, _, first, second, rfl, rfl⟩ := ih _ h
      exact ⟨a, _, _, _, _, .refused e first, second, rfl, rfl⟩
  | compact k ih =>
    cases h with
    | compact result h =>
      obtain ⟨a, _, _, _, _, first, second, rfl, rfl⟩ := ih _ h
      exact ⟨a, _, _, _, _, .compact result first, second, rfl, rfl⟩
  | appends k ih =>
    cases h with
    | appends n h =>
      obtain ⟨a, _, _, _, _, first, second, rfl, rfl⟩ := ih n h
      exact ⟨a, _, _, _, _, .appends n first, second, rfl, rfl⟩
  | tell s k ih =>
    cases h with
    | tell h =>
      obtain ⟨a, _, _, _, _, first, second, rfl, rfl⟩ := ih h
      exact ⟨a, _, _, _, _, .tell first, second, rfl, (List.append_assoc ..).symm⟩
  | notify client n k ih =>
    cases h with
    | notify refusal h =>
      obtain ⟨a, _, _, _, _, first, second, rfl, rfl⟩ := ih refusal h
      exact ⟨a, _, _, _, _, .notify refusal first, second, rfl, rfl⟩
  | pause ms k ih =>
    cases h with
    | pause h =>
      obtain ⟨a, _, _, _, _, first, second, rfl, rfl⟩ := ih h
      exact ⟨a, _, _, _, _, .pause first, second, rfl, rfl⟩
  | beginSweep k ih =>
    cases h with
    | beginSweep free h =>
      obtain ⟨a, _, _, _, _, first, second, rfl, rfl⟩ := ih free h
      exact ⟨a, _, _, _, _, .beginSweep free first, second, rfl, rfl⟩
  | endSweep k ih =>
    cases h with
    | endSweep h =>
      obtain ⟨a, _, _, _, _, first, second, rfl, rfl⟩ := ih h
      exact ⟨a, _, _, _, _, .endSweep first, second, rfl, rfl⟩

structure Plain (p : Program α) : Prop where
  deaf : ∀ refusal refusal', p.hushed refusal = p.hushed refusal'
  appending : p.Appending

namespace Plain

theorem pure (a : α) : Plain (Pure.pure a : Program α) := ⟨fun _ _ => rfl, trivial⟩

theorem bind {p : Program α} {f : α → Program β} (hp : Plain p) (hf : ∀ a, Plain (f a)) :
    Plain (p >>= f) where
  deaf refusal refusal' := by
    rw [hushed_bind, hushed_bind, hp.deaf refusal refusal']
    exact congrArg _ (funext fun a => (hf a).deaf refusal refusal')
  appending := hp.appending.bind fun a => (hf a).appending

theorem tell {s : Signal} {k : Program α} (hk : Plain k) : Plain (.tell s k) :=
  ⟨hk.deaf, hk.appending⟩

theorem pause {ms : Nat} {k : Program α} (hk : Plain k) : Plain (.pause ms k) :=
  ⟨fun r r' => congrArg (Program.pause ms) (hk.deaf r r'), hk.appending⟩

theorem beginSweep {k : Bool → Program α} (hk : ∀ b, Plain (k b)) : Plain (.beginSweep k) :=
  ⟨fun r r' => congrArg Program.beginSweep (funext fun b => (hk b).deaf r r'),
    fun b => (hk b).appending⟩

theorem appends {k : Nat → Program α} (hk : ∀ n, Plain (k n)) : Plain (.appends k) :=
  ⟨fun r r' => congrArg Program.appends (funext fun n => (hk n).deaf r r'),
    fun n => (hk n).appending⟩

theorem endSweep {k : Program α} (hk : Plain k) : Plain (.endSweep k) :=
  ⟨fun r r' => congrArg Program.endSweep (hk.deaf r r'), hk.appending⟩

theorem commit {txn : Txn} {k : Except CommitError Unit → Program α} (hk : ∀ r, Plain (k r)) :
    Plain (.commit txn k) :=
  ⟨fun r r' => congrArg (Program.commit txn) (funext fun x => (hk x).deaf r r'),
    fun x => (hk x).appending⟩

theorem ofReading (r : Reading α) : Plain (Program.ofReading r) := by
  constructor
  · intro refusal refusal'
    induction r with
    | done a => rfl
    | ask q k ih => exact congrArg (Program.ask q) (funext ih)
    | draw k ih => exact congrArg Program.draw (funext ih)
  · induction r with
    | done a => trivial
    | ask q k ih => exact ih
    | draw k ih => exact ih

theorem attempt (a : Lookup (Plan α)) : Plain (Program.attempt a) := by
  refine bind (ofReading a.run) fun r => ?_
  cases r with
  | error e => exact pure _
  | ok plan =>
    refine commit fun result => ?_
    cases result with
    | ok _ => exact pure _
    | error e => exact pure _

end Plain

/-! ### What is told -/

structure Says (p : Program α) (told : News) : Prop extends Plain p where
  course : ∀ {txns ns a}, p.Course txns ns a → txns = [] ∧ ns = told

namespace Says

theorem pure (a : α) : Says (Pure.pure a : Program α) [] where
  toPlain := .pure a
  course h := by
    cases h
    exact ⟨rfl, rfl⟩

theorem bind {p : Program α} {f : α → Program β} {told told' : News} (hp : Says p told)
    (hf : ∀ a, Says (f a) told') : Says (p >>= f) (told ++ told') where
  toPlain := hp.toPlain.bind fun a => (hf a).toPlain
  course h := by
    obtain ⟨a, _, _, _, _, first, second, rfl, rfl⟩ := course_bind h
    obtain ⟨rfl, rfl⟩ := hp.course first
    obtain ⟨rfl, rfl⟩ := (hf a).course second
    exact ⟨rfl, rfl⟩

theorem after {p : Program α} {f : α → Program β} {told : News} (hp : Says p [])
    (hf : ∀ a, Says (f a) told) : Says (p >>= f) told :=
  bind hp hf

theorem before {p : Program α} {f : α → Program β} {told : News} (hp : Says p told)
    (hf : ∀ a, Says (f a) []) : Says (p >>= f) told :=
  List.append_nil told ▸ bind hp hf

theorem tell {s : Signal} {k : Program α} {told : News} (hk : Says k told)
    (hs : s.notice? = none) : Says (.tell s k) told where
  toPlain := hk.toPlain.tell
  course h := by
    cases h with
    | tell h =>
      rw [hs]
      exact hk.course h

theorem count (c : Counter) : Says (Program.count c) [] := tell (pure ()) rfl

theorem line (l : LogLine) : Says (Program.line l) [] := tell (pure ()) rfl

theorem notify {client : Ulid} {n : Notification} {k : Option String → Program α}
    (hk : ∀ r, Says (k r) [])
    (same : ∀ refusal r r', (k r).hushed refusal = (k r').hushed refusal) :
    Says (.notify client n k) [(client, n)] where
  deaf refusal refusal' := (same _ _ _).trans ((hk _).deaf refusal refusal')
  appending r := (hk r).appending
  course h := by
    cases h with
    | notify refusal h =>
      obtain ⟨rfl, rfl⟩ := (hk refusal).course h
      exact ⟨rfl, rfl⟩

theorem inform (client : Option Ulid) (n : Notification) :
    Says (Program.inform client n) (client.toList.map (·, n)) := by
  cases client with
  | none => exact pure ()
  | some client =>
    refine notify (fun refusal => ?_) fun _ r r' => by cases r <;> cases r' <;> rfl
    cases refusal with
    | none => exact pure ()
    | some reason => exact after (count _) fun _ => line _

theorem ofReading (r : Reading α) : Says (Program.ofReading r) [] where
  toPlain := .ofReading r
  course {txns ns a} h := by
    induction r with
    | done a =>
      cases h
      exact ⟨rfl, rfl⟩
    | ask q k ih =>
      cases h with
      | ask r _ h => exact ih r h
    | draw k ih =>
      cases h with
      | draw u h => exact ih u h

end Says

theorem result_of_course {x : Reading α} {P : α → Prop} (hx : x.Always P) {txns : List Txn}
    {ns : News} {a : α} (h : (ofReading x).Course txns ns a) : P a := by
  induction x with
  | done b =>
    cases h
    exact hx
  | ask q k ih =>
    cases h with
    | ask r sane h => exact ih r (hx r sane) h
  | draw k ih =>
    cases h with
    | draw u h => exact ih u (hx u) h

/-- The program hands over nothing, and this is to be told if it succeeds. -/
structure Owes (told : α → News) (p : Program (Except Failure α)) : Prop extends Plain p where
  course : ∀ {txns ns r}, p.Course txns ns r →
    ns = [] ∧ txns.flatMap Txn.news = match r with
      | .ok a => told a
      | .error _ => []

structure Honest (p : Program α) : Prop extends Plain p where
  course : ∀ {txns ns a}, p.Course txns ns a → ns = txns.flatMap Txn.news

namespace Owes

variable {told : α → News} {a : Lookup (Plan α)}

theorem error (e : Failure) : Owes told (Pure.pure (.error e)) where
  toPlain := .pure _
  course h := by
    cases h
    exact ⟨rfl, rfl⟩

theorem attempt (ha : a.Always fun plan => plan.txn.news = told plan.answer) :
    Owes told (Program.attempt a) where
  toPlain := .attempt a
  course h := by
    obtain ⟨r, _, _, _, _, reading, rest, rfl, rfl⟩ := course_bind h
    obtain ⟨rfl, rfl⟩ := (Says.ofReading a.run).course reading
    have fits := result_of_course ha reading
    cases r with
    | error e =>
      cases rest
      exact ⟨rfl, rfl⟩
    | ok plan =>
      have news := fits plan rfl
      cases rest with
      | idle empty rest =>
        cases rest
        exact ⟨rfl, (Txn.news_of_isEmpty empty).symm.trans news⟩
      | commit writes rest =>
        cases rest
        exact ⟨rfl, (List.append_nil _).trans news⟩
      | refused e rest =>
        cases rest
        exact ⟨rfl, rfl⟩

theorem orElse {p : Program (Except Failure α)}
    {f : Except Failure α → Program (Except Failure α)} (hp : Owes told p)
    (failed : ∀ e, Owes told (f (.error e))) (passed : ∀ a, f (.ok a) = Pure.pure (.ok a)) :
    Owes told (p >>= f) where
  toPlain := hp.toPlain.bind fun r => by
    cases r with
    | error e => exact (failed e).toPlain
    | ok a => exact passed a ▸ .pure _
  course h := by
    obtain ⟨r, _, _, _, _, first, second, rfl, rfl⟩ := course_bind h
    obtain ⟨rfl, news⟩ := hp.course first
    cases r with
    | error e =>
      obtain ⟨rfl, news'⟩ := (failed e).course second
      exact ⟨rfl, by rw [List.flatMap_append, news, news', List.nil_append]⟩
    | ok a =>
      rw [passed a] at second
      cases second
      exact ⟨rfl, by rw [List.append_nil, news]⟩

theorem tell {s : Signal} {k : Program (Except Failure α)} (hk : Owes told k)
    (hs : s.notice? = none) : Owes told (.tell s k) where
  toPlain := hk.toPlain.tell
  course h := by
    cases h with
    | tell h =>
      rw [hs]
      exact hk.course h

theorem pause {ms : Nat} {k : Program (Except Failure α)} (hk : Owes told k) :
    Owes told (.pause ms k) where
  toPlain := hk.toPlain.pause
  course h := by
    cases h with
    | pause h => exact hk.course h

theorem attempts (ha : a.Always fun plan => plan.txn.news = told plan.answer) (s : Settings)
    (name : OpName) (left n : Nat) : Owes told (Program.attempts s name a left n) := by
  induction left generalizing n with
  | zero => exact attempt ha
  | succ left ih =>
    refine orElse (attempt ha) (fun e => ?_) fun _ => rfl
    cases lost : e.isRowContention with
    | true =>
      simp only [lost, if_true]
      exact tell (pause (ih (n + 1))) rfl
    | false =>
      simp only [lost]
      exact error e

theorem retrying (ha : a.Always fun plan => plan.txn.news = told plan.answer) {s : Settings}
    {name : OpName} : Owes told (Program.retrying s name a) :=
  attempts ha s name _ _

end Owes

namespace Honest

theorem of_quiet {p : Program α} (hp : Says p []) : Honest p where
  toPlain := hp.toPlain
  course h := by
    obtain ⟨rfl, rfl⟩ := hp.course h
    rfl

theorem of_owes {p : Program (Except Failure α)} (hp : Owes (fun _ => []) p) : Honest p where
  toPlain := hp.toPlain
  course {_ _ r} h := by
    obtain ⟨rfl, news⟩ := hp.course h
    cases r <;> exact news.symm

theorem pure (a : α) : Honest (Pure.pure a : Program α) := of_quiet (.pure a)

theorem bind {p : Program α} {f : α → Program β} (hp : Honest p) (hf : ∀ a, Honest (f a)) :
    Honest (p >>= f) where
  toPlain := hp.toPlain.bind fun a => (hf a).toPlain
  course h := by
    obtain ⟨a, _, _, _, _, first, second, rfl, rfl⟩ := course_bind h
    rw [List.flatMap_append, hp.course first, (hf a).course second]

theorem ofReading (r : Reading α) : Honest (Program.ofReading r) := of_quiet (.ofReading r)

theorem closed : Closed @Honest where
  pure := pure
  bind := bind
  count c := of_quiet (.count c)
  line l := of_quiet (.line l)

theorem answering {p : Program (Except Failure α)} (hp : Honest p) (f : α → Answer) :
    Honest (p.answering f) :=
  closed.answering hp f

theorem beginSweep {k : Bool → Program α} (hk : ∀ b, Honest (k b)) : Honest (.beginSweep k) where
  toPlain := .beginSweep fun b => (hk b).toPlain
  course h := by
    cases h with
    | beginSweep free h => exact (hk free).course h

theorem appends {k : Nat → Program α} (hk : ∀ n, Honest (k n)) : Honest (.appends k) where
  toPlain := .appends fun n => (hk n).toPlain
  course h := by
    cases h with
    | appends n h => exact (hk n).course h

theorem endSweep {k : Program α} (hk : Honest k) : Honest (.endSweep k) where
  toPlain := hk.toPlain.endSweep
  course h := by
    cases h with
    | endSweep h => exact hk.course h

theorem telling {p : Program (Except Failure α)} {f : Except Failure α → Program β}
    (told : α → News) (hp : Owes told p) (failed : ∀ e, Says (f (.error e)) [])
    (passed : ∀ a, Says (f (.ok a)) (told a)) : Honest (p >>= f) where
  toPlain := hp.toPlain.bind fun r => by
    cases r with
    | error e => exact (failed e).toPlain
    | ok a => exact (passed a).toPlain
  course h := by
    obtain ⟨r, _, _, _, _, first, second, rfl, rfl⟩ := course_bind h
    obtain ⟨rfl, news⟩ := hp.course first
    rw [List.flatMap_append, news]
    cases r with
    | error e =>
      obtain ⟨rfl, rfl⟩ := (failed e).course second
      rfl
    | ok a =>
      obtain ⟨rfl, rfl⟩ := (passed a).course second
      simp

theorem observing {p : Program (Except Failure α)} {f : Except Failure α → Program β}
    (told : α → News) {name : OpName} (hp : Owes told p)
    (failed : ∀ e, Says (f (.error e)) []) (passed : ∀ a, Says (f (.ok a)) (told a)) :
    Honest (p >>= fun r => Program.observe name r >>= fun _ => f r) :=
  telling told hp (fun e => .after (.count _) fun _ => failed e)
    fun a => .after (.count _) fun _ => passed a

theorem once {a : Lookup (Plan α)} (ha : a.Always fun plan => plan.txn.news = [])
    {name : OpName} {line : α → Option String} : Honest (Registry.once name a line) := by
  refine observing (fun _ => []) (.attempt ha) (fun _ => .pure _) fun answer => ?_
  simp only
  cases line answer with
  | none => exact .pure _
  | some message => exact .after (.line _) fun _ => .pure _

end Honest

end Program

/-! ### Attempts -/

namespace Registry

open Lookup

variable {ctx : Context}

theorem news_createAttempt {settings : Settings} {address : Address} {policy : Option Policy} :
    (createAttempt ctx settings address policy).Always fun plan => plan.txn.news = [] :=
  .bind_any fun _ => .bind_any fun _ => .bind_any fun _ => .pure rfl

theorem news_updateAttempt {id : Ulid} {version : Version} {address : Address} {policy : Policy} :
    (updateAttempt ctx id version address policy).Always fun plan => plan.txn.news = [] :=
  .bind_any fun _ => .bind_any fun _ => .bind_any fun _ => .bind_any fun _ => .pure rfl

theorem news_deleteAttempt {id : Ulid} {version : Version} :
    (deleteAttempt ctx id version).Always fun plan => plan.txn.news = [] :=
  .bind_any fun _ => .bind_any fun _ => .bind_any fun _ => .bind_any fun _ => .bind_any fun _ =>
    .guard fun _ => .pure (by simp [Txn.news, Change.news])

theorem news_addSectorAttempt {parking : Ulid} {spec : SectorSpec} :
    (addSectorAttempt ctx parking spec).Always fun plan => plan.txn.news = [] :=
  .bind_any fun _ => .bind_any fun _ => .bind_any fun _ => .guard fun _ => .bind_any fun _ =>
    .bind_any fun _ => .pure rfl

theorem news_updateSectorAttempt {id : Ulid} {version : Version} {spec : SectorSpec} :
    (updateSectorAttempt ctx id version spec).Always fun plan => plan.txn.news = [] := by
  refine .bind_any fun _ => .bind_any fun _ => .bind_any fun _ => .bind_any fun _ =>
    .guard fun _ => .guard fun _ => ?_
  split
  · exact .pure rfl
  · exact .bind_any fun _ => .bind_any fun _ => .pure rfl

theorem news_activateAttempt {id : Ulid} {version : Version} :
    (activateAttempt ctx id version).Always fun plan => plan.txn.news = [] :=
  .bind_any fun _ => .bind_any fun _ => .bind_any fun _ => .guard fun _ => .pure rfl

theorem news_deactivateAttempt {id : Ulid} {version : Version} {time : Ms} :
    (deactivateAttempt ctx id version time).Always fun plan => plan.txn.news = [] :=
  .bind_any fun _ => .bind_any fun _ => .bind_any fun _ => .guard fun _ => .guard fun _ =>
    .guard fun _ => .pure rfl

theorem news_deleteSectorAttempt {id : Ulid} {version : Version} :
    (deleteSectorAttempt ctx id version).Always fun plan => plan.txn.news = [] :=
  .bind_any fun _ => .bind_any fun _ => .bind_any fun _ => .bind_any fun _ => .guard fun _ =>
    .bind_any fun _ => .pure rfl

theorem news_finalizeAttempt {id : Ulid} :
    (finalizeAttempt ctx id).Always fun plan => plan.txn.news = [] :=
  .bind_any fun _ => .bind_any fun s? => by
    cases s? with
    | none => exact .pure rfl
    | some s => exact .ite (.pure rfl) (.pure rfl)

end Registry

namespace Booking

variable {ctx : Context}

theorem news_makeAttempt {client sector : Ulid} {window : Span} :
    (makeAttempt ctx client sector window).Always fun plan => plan.txn.news =
      plan.answer.addressed (.reservationCreated plan.answer.id sector plan.answer.window.start
        plan.answer.window.stop) :=
  .bind_any fun _ => .guard fun _ => .bind_any fun _ => .guard fun _ => .bind_any fun _ =>
    .pure rfl

theorem news_cancelAttempt {id : Ulid} :
    (cancelAttempt ctx id).Always fun plan => plan.txn.news =
      plan.answer.addressed (.reservationCancelled id) := by
  refine .bind (.reservation id) fun r hr => .bind_any fun _ => .guard fun _ =>
    .bind_any fun _ => .guard fun _ => .pure ?_
  subst hr
  exact List.append_nil _

end Booking

namespace Gate

variable {settings : Settings} {ctx : Context}

theorem news_enterAttempt {id : Ulid} :
    (enterAttempt ctx id).Always fun plan => plan.txn.news = [] := by
  refine .bind_any fun r => .bind_any fun _ => .guard fun created => .bind_any fun _ =>
    .guard fun _ => .guard fun _ => .guard fun _ => .bind_any fun _ => .bind_any fun _ =>
      .bind_any fun _ => .bind_any fun _ => .pure ?_
  have created := Decidable.of_not_not created
  simp [Txn.news, Change.news, Reservation.news, created]

theorem news_driveInAttempt {parking : Ulid} {client : Option Ulid} :
    (driveInAttempt settings ctx parking client).Always fun plan => plan.txn.news = [] := by
  refine .bind_any fun p => .bind_any fun ss => ?_
  cases p.policy.choose ctx.now ss with
  | none => exact .throw _
  | some s =>
    exact .bind_any fun _ => .bind_any fun _ => .bind_any fun _ => .bind_any fun _ => .pure rfl

theorem news_exitAttempt {id : Ulid} {code : Option String} {ending : Bool} :
    (exitAttempt ctx id code ending).Always fun plan => plan.txn.news = [] := by
  refine .bind_any fun r => .bind_any fun _ => .guard fun created => .bind_any fun _ =>
    .guard fun _ => .bind_any fun _ => .bind_any fun _ => .bind_any fun _ => .pure ?_
  have created := Decidable.of_not_not created
  cases h : (ending || !r.booked) <;>
    simp [Txn.news, Change.news, Reservation.news, Commit.forcedExits, Txn.writes, Change.write?,
      created]

end Gate

namespace Termination

variable {settings : Settings} {ctx : Context}

theorem news_expireAttempt {id : Ulid} :
    (expireAttempt ctx id).Always fun plan => plan.txn.news =
      plan.answer.elim [] fun r => r.addressed (.reservationExpired id) := by
  refine .row (fun r hr => .bind_any fun _ => .ite (.pure ?_) (.pure rfl)) (.pure rfl)
  subst hr
  exact List.append_nil _

theorem news_forceExitAttempt {id : Ulid} :
    (forceExitAttempt settings ctx id).Always fun plan => plan.txn.news =
      plan.answer.elim [] fun r => r.addressed (.forcedExit id r.sector ctx.now) := by
  refine .row (fun r hr => .bind_any fun _ => .ite (.bind_any fun _ => .bind_any fun _ =>
    .bind_any fun _ => .pure ?_) (.pure rfl)) (.pure rfl)
  subst hr
  simp [Txn.news, Change.news, Reservation.news, Commit.forcedExits, Txn.writes, Change.write?,
    Reservation.addressed]

theorem news_closeAttempt {id : Ulid} :
    (closeAttempt ctx id).Always fun plan => plan.txn.news = [] :=
  .row (fun _ _ => .bind_any fun _ => .ite (.pure rfl) (.pure rfl)) (.pure rfl)

end Termination

/-! ### Operations -/

namespace Program.Honest

variable {settings : Settings}

theorem informing {a : Lookup (Plan (Option Reservation))} {ctx : Context} {name : OpName}
    {n : Reservation → Notification} (ha : a.Always fun plan =>
      plan.txn.news = plan.answer.elim [] fun r => r.addressed (n r)) :
    Honest (match ctx.requirePrivileged with
      | .error e => return .error e
      | .ok () => do Termination.informing (← Program.retrying settings name a) n) := by
  cases ctx.requirePrivileged with
  | error e => exact pure _
  | ok _ =>
    refine telling (·.elim [] fun r => r.addressed (n r)) (.retrying ha) (fun _ => .pure _)
      fun r? => ?_
    cases r? with
    | none => exact .pure _
    | some r => exact .before (.inform _ _) fun _ => .pure _

theorem expire (ctx : Context) (id : Ulid) : Honest (Termination.expire settings ctx id) :=
  informing Termination.news_expireAttempt

theorem forceExit (ctx : Context) (id : Ulid) : Honest (Termination.forceExit settings ctx id) :=
  informing Termination.news_forceExitAttempt

theorem close (ctx : Context) (id : Ulid) : Honest (Termination.close settings ctx id) := by
  rw [Termination.close]
  cases ctx.requirePrivileged with
  | error e => exact pure _
  | ok _ => exact of_owes (.retrying Termination.news_closeAttempt)

theorem finalizeDeactivation (ctx : Context) (id : Ulid) :
    Honest (Registry.finalizeDeactivation ctx id) :=
  of_owes (.attempt Registry.news_finalizeAttempt)

theorem operation (ctx : Context) (op : Operation) : Honest (op.program settings ctx) := by
  have told (r : Reservation) (n : Notification) {l : LogLine}
      {answer : Except Failure Reservation} :
      Says (do Program.line l; Program.inform r.client n; return answer) (r.addressed n) :=
    .after (.line _) fun _ => .before (.inform _ _) fun _ => .pure _
  cases op with
  | createParking => exact answering (once Registry.news_createAttempt) _
  | updateParking => exact answering (once Registry.news_updateAttempt) _
  | deleteParking => exact answering (once Registry.news_deleteAttempt) _
  | addSector => exact answering (once Registry.news_addSectorAttempt) _
  | updateSector => exact answering (once Registry.news_updateSectorAttempt) _
  | activateSector => exact answering (once Registry.news_activateAttempt) _
  | deactivateSector => exact answering (once Registry.news_deactivateAttempt) _
  | deleteSector => exact answering (once Registry.news_deleteSectorAttempt) _
  | finalizeDeactivation id => exact answering (finalizeDeactivation ctx id) _
  | book sector start stop =>
    refine answering ?_ _
    let news (r : Reservation) : News :=
      r.addressed (.reservationCreated r.id sector r.window.start r.window.stop)
    simp only [Booking.make]
    cases Booking.request settings ctx start stop with
    | error e => exact observing news (.error e) (fun _ => .pure _) fun r => told r _
    | ok made =>
      exact observing news (.retrying Booking.news_makeAttempt) (fun _ => .pure _)
        fun r => told r _
  | cancel id =>
    refine answering ?_ _
    let news (r : Reservation) : News := r.addressed (.reservationCancelled id)
    exact observing news (.attempt Booking.news_cancelAttempt) (fun _ => .pure _)
      fun r => told r _
  | enter id =>
    refine answering ?_ _
    exact observing (fun _ => []) (.retrying Gate.news_enterAttempt) (fun _ => .pure _) fun _ =>
      .after (.line _) fun _ => .pure _
  | driveIn parking anonymous =>
    refine answering ?_ _
    exact observing (fun _ => []) (.retrying Gate.news_driveInAttempt) (fun _ => .pure _) fun _ =>
      .after (.line _) fun _ => .pure _
  | exit id code ending =>
    refine answering ?_ _
    exact observing (fun _ => []) (.retrying Gate.news_exitAttempt) (fun _ => .pure _) fun _ =>
      .after (.line _) fun _ => .pure _
  | expire id => exact answering (expire ctx id) _
  | forceExit id => exact answering (forceExit ctx id) _
  | close id => exact answering (close ctx id) _
  | reservation id => exact answering (ofReading _) _
  | reservations page => exact answering (ofReading _) _
  | events id => exact answering (ofReading _) _

/-! ### Sweeps -/

theorem transition (now : Ms) (id : Ulid) (phase : SweepPhase) :
    Honest (Sweep.transition settings now id phase) := by
  cases phase with
  | expired => exact expire ⟨.system, now⟩ id
  | forceEnded => exact forceExit ⟨.system, now⟩ id
  | closed => exact close ⟨.system, now⟩ id
  | deactivated => exact finalizeDeactivation ⟨.system, now⟩ id

/-! ### Requests -/

theorem request (r : Request) (hr : r ≠ .compact) : Honest (r.program settings) :=
  closed.request ofReading r (fun ctx op _ => operation ctx op)
    (fun now _ => closed.sweep (transition now) (fun _ => ofReading _) (fun _ => beginSweep)
      fun _ => endSweep (pure _))
    (fun compact => absurd compact hr) (appends fun _ => pure _)

end Program.Honest

end Carpark
