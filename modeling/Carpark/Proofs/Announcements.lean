import Carpark.Proofs.Courses
import Carpark.Proofs.Traces
import Carpark.Proofs.Twins

/-!
What clients are told is what the log is news of, in the same order, and what the delivery service
says to it makes no difference.
-/

namespace Carpark

open Relation

variable {α β : Type}

/-! ### How the log goes on -/

/-- The log has grown, and its new commits have brought the tables to where they are. -/
def Engine.Proceeds (x y : Engine × List Commit) : Prop :=
  ∃ new, y.2 = x.2 ++ new ∧ y.1.tables = new.foldl Tables.apply x.1.tables ∧
    x.1.tables.AllChangeable new

namespace Engine.Proceeds

theorem of_eq {e e' : Engine} (cs : List Commit) (h : e'.tables = e.tables) :
    Proceeds (e, cs) (e', cs) :=
  ⟨[], (List.append_nil cs).symm, h, trivial⟩

theorem trans {x y z : Engine × List Commit} (h : Proceeds x y) (h' : Proceeds y z) :
    Proceeds x z := by
  obtain ⟨new, log, tables, changeable⟩ := h
  obtain ⟨new', log', tables', changeable'⟩ := h'
  refine ⟨new ++ new', by rw [log', log, List.append_assoc], ?_, ?_⟩
  · rw [tables', tables, List.foldl_append]
  · rw [tables] at changeable'
    exact Tables.allChangeable_append.2 ⟨changeable, changeable'⟩

end Engine.Proceeds

theorem Engine.Tries.proceeds {settings : Settings} {ctx : Context} {op : Operation}
    {x y : Engine × List Commit} {b : Bool} (h : Tries (op.staging settings ctx) x b y)
    (hs : x.1.Sound x.2) : y.1.Sound y.2 ∧ Proceeds x y := by
  have sound {x y : Engine × List Commit} {b : Bool} (h : Tries (op.staging settings ctx) x b y)
      (hs : x.1.Sound x.2) : y.1.Sound y.2 := by
    have steps : ReflTransGen (Step settings fun _ _ => True) x y := h.steps trivial
    exact hs.steps steps
  refine ⟨sound h hs, ?_⟩
  induction h with
  | failed _ | refused _ _ _ | idle _ _ => exact .of_eq _ rfl
  | @committed e cs txn n staged writes accepted =>
    have suits := Tables.refusal?_eq_none.1 accepted
    have transition := Transition.of_eval hs.linked staged accepted (Txn.ne_nil_of_isEmpty writes)
    exact ⟨[txn.writes], rfl, Store.tables_commit writes accepted,
      transition.changeable hs.linked suits, trivial⟩
  | again first _ ih ih' => exact (ih hs).trans (ih' (sound first hs))

def Program.Proceeds (p : Program α) : Prop :=
  ∀ (e : Engine) (cs : List Commit), e.Sound cs →
    (e.run p).engine.Sound (e.logged cs p) ∧
      Engine.Proceeds (e, cs) ((e.run p).engine, e.logged cs p)

namespace Program.Proceeds

variable {settings : Settings}

theorem silent {p : Program α} {a : α} (h : Silent p a) : Proceeds p := by
  intro e cs hs
  obtain ⟨-, engine, logged⟩ := h e cs
  rw [engine, logged]
  exact ⟨hs, .of_eq cs rfl⟩

theorem bind {p : Program α} {f : α → Program β} (hp : Proceeds p) (hf : ∀ a, Proceeds (f a)) :
    Proceeds (p >>= f) := by
  intro e cs hs
  obtain ⟨sound, first⟩ := hp e cs hs
  obtain ⟨sound', second⟩ := hf (e.run p).answer _ _ sound
  rw [Engine.run_bind_engine, Engine.logged_bind]
  exact ⟨sound', first.trans second⟩

theorem ofReading (r : Reading α) : Proceeds (Program.ofReading r) := by
  intro e cs hs
  rw [Engine.run_ofReading, Engine.logged_ofReading]
  exact ⟨hs.of_store rfl, .of_eq cs rfl⟩

theorem tries {ctx : Context} {op : Operation} {p : Program (Except Failure α)}
    (h : Tries (op.staging settings ctx) p) : Proceeds p :=
  fun e cs hs => (h e cs).proceeds hs

theorem closed : Closed @Proceeds where
  pure a := silent (.pure a)
  bind := bind
  count c := silent (.count c)
  line l := silent (.line l)

theorem transition (now : Ms) (id : Ulid) (phase : SweepPhase) :
    Proceeds (Sweep.transition settings now id phase) := by
  cases phase with
  | expired => exact tries (Tries.expire ⟨.system, now⟩ id)
  | forceEnded => exact tries (Tries.forceExit ⟨.system, now⟩ id)
  | closed => exact tries (Tries.close ⟨.system, now⟩ id)
  | deactivated => exact @tries _ settings _ _ _ (Tries.finalizeDeactivation ⟨.system, now⟩ id)

theorem beginSweep {k : Bool → Program α} (hk : ∀ b, Proceeds (k b)) :
    Proceeds (.beginSweep k) := by
  intro e cs hs
  exact hk (!e.sweeping) { e with sweeping := true } _ (hs.of_store rfl)

theorem endSweep {k : Program α} (hk : Proceeds k) : Proceeds (.endSweep k) := by
  intro e cs hs
  exact hk { e with sweeping := false } _ (hs.of_store rfl)

theorem request (r : Request) (hr : r ≠ .compact) : Proceeds (r.program settings) :=
  closed.request ofReading r (fun ctx op _ => tries (.operation ctx op))
    (fun now _ => closed.sweep (transition now) (fun _ => ofReading _) (fun _ => beginSweep)
      fun _ => endSweep (silent (.pure _)))
    (fun compact => absurd compact hr) fun _ cs hs => ⟨hs, .of_eq cs rfl⟩

end Program.Proceeds

/-! ### A run as a course -/

theorem Tables.Keyed.sane {t : Tables} (h : t.Keyed) (q : Query) : q.Sane (t.answer q) := by
  cases q with
  | reservation id => exact fun r hr => h hr
  | _ => trivial

namespace Engine

theorem notices_after (signals : List Signal) (o : Outcome α) :
    (o.after signals).notices = signals.filterMap Signal.notice? ++ o.notices :=
  List.filterMap_append ..

theorem notices_noticeSignals (e : Engine) (client : Ulid) (n : Notification) :
    (e.noticeSignals client n).filterMap Signal.notice? = [(client, n)] := by
  have lines : ((e.notifier.lines client n).map .line).filterMap Signal.notice? = [] :=
    List.filterMap_eq_nil_iff.2 fun s hs => by
      obtain ⟨l, -, rfl⟩ := List.mem_map.1 hs
      rfl
  rw [noticeSignals, List.filterMap_cons, lines]
  rfl

theorem exists_course (e : Engine) (keyed : e.tables.Keyed) {p : Program α} (hp : p.Appending) :
    ∃ txns, p.Course txns (e.run p).notices (e.run p).answer ∧
      (∀ cs, e.logged cs p = cs ++ txns.map Txn.writes) ∧
      (e.tables.AllChangeable (txns.map Txn.writes) →
        e.tables.newsOf (txns.map Txn.writes) = txns.flatMap Txn.news) := by
  induction p generalizing e with
  | done a => exact ⟨[], .done a, fun cs => (List.append_nil cs).symm, fun _ => rfl⟩
  | ask q k ih =>
    obtain ⟨txns, course, rest⟩ := ih (e.tables.answer q) e keyed (hp _)
    exact ⟨txns, .ask _ (keyed.sane q) course, rest⟩
  | draw k ih =>
    obtain ⟨txns, course, rest⟩ := ih e.draw.1 e.draw.2 keyed (hp _)
    exact ⟨txns, .draw _ course, rest⟩
  | commit txn k ih =>
    simp only [run, logged]
    cases empty : txn.isEmpty with
    | true =>
      have commit (cs : List Commit) := Store.commit_of_isEmpty (s := e.store) empty cs
      rw [(commit []).1]
      obtain ⟨txns, course, logged, news⟩ := ih (.ok ()) e keyed (hp _)
      refine ⟨txns, .idle empty course, fun cs => ?_, news⟩
      rw [(commit cs).2]
      exact logged cs
    | false =>
      cases refusal : e.store.tables.refusal? txn with
      | some error =>
        have commit (cs : List Commit) := Store.commit_of_refusal empty refusal cs
        rw [(commit []).1]
        obtain ⟨txns, course, logged, news⟩ := ih (.error error) e keyed (hp _)
        refine ⟨txns, .refused error course, fun cs => ?_, news⟩
        rw [(commit cs).2]
        exact logged cs
      | none =>
        have commit (cs : List Commit) := Store.commit_of_accepted empty refusal cs
        rw [(commit []).1]
        have keyed' : (e.tables.apply txn.writes).Keyed :=
          Tables.Keyed.apply (fun hr => keyed hr) txn.writes
        obtain ⟨txns, course, logged, news⟩ := ih (.ok ())
          { e with store := ⟨e.store.tables.apply txn.writes,
            (e.store.log.append txn.writes).flush⟩ } keyed' (hp _)
        refine ⟨txn :: txns, .commit empty course, fun cs => ?_, fun changeable => ?_⟩
        · rw [(commit cs).2]
          exact (logged _).trans (List.append_assoc ..)
        · obtain ⟨first, others⟩ := changeable
          have suits : ∀ c ∈ txn, c.suits e.tables := Tables.refusal?_eq_none.1 refusal
          rw [List.map_cons, Tables.newsOf, List.flatMap_cons, Tables.news_writes suits first]
          exact congrArg _ (news others)
  | compact k => exact hp.elim
  | appends k ih =>
    obtain ⟨txns, course, rest⟩ := ih e.store.appends e keyed (hp _)
    exact ⟨txns, .appends _ course, rest⟩
  | tell s k ih =>
    obtain ⟨txns, course, rest⟩ := ih e keyed hp
    refine ⟨txns, ?_, rest⟩
    rw [run, notices_after]
    cases s <;> exact .tell course
  | notify client n k ih =>
    obtain ⟨txns, course, rest⟩ := ih (e.notifier.refusal client n) e keyed (hp _)
    refine ⟨txns, ?_, rest⟩
    rw [run, notices_after, notices_noticeSignals]
    exact .notify _ course
  | pause ms k ih =>
    obtain ⟨txns, course, rest⟩ := ih e keyed hp
    exact ⟨txns, .pause course, rest⟩
  | beginSweep k ih =>
    obtain ⟨txns, course, rest⟩ := ih (!e.sweeping) { e with sweeping := true } keyed (hp _)
    exact ⟨txns, .beginSweep _ course, rest⟩
  | endSweep k ih =>
    obtain ⟨txns, course, rest⟩ := ih { e with sweeping := false } keyed hp
    exact ⟨txns, .endSweep course, rest⟩

/-! ### Another delivery service -/

def telling (e : Engine) (notifier : Notifier) : Engine := { e with notifier }

theorem notifier_run (e : Engine) (p : Program α) : (e.run p).engine.notifier = e.notifier := by
  induction p generalizing e with
  | done a => rfl
  | ask q k ih => exact ih _ e
  | draw k ih => exact ih _ e.draw.2
  | commit txn k ih => exact ih _ _
  | compact k ih => exact ih _ _
  | appends k ih => exact ih _ e
  | tell s k ih => exact ih e
  | notify client n k ih => exact ih _ e
  | pause ms k ih => exact ih e
  | beginSweep k ih => exact ih _ _
  | endSweep k ih => exact ih _

theorem run_hushed (e : Engine) (notifier : Notifier) (p : Program α) :
    let e' := e.telling notifier
    let q := p.hushed e.notifier.refusal
    (e'.run q).answer = (e.run p).answer ∧
      (e'.run q).engine = (e.run p).engine.telling notifier ∧
      ∀ cs, e'.logged cs q = e.logged cs p := by
  induction p generalizing e with
  | done a => exact ⟨rfl, rfl, fun _ => rfl⟩
  | ask q k ih => exact ih _ e
  | draw k ih => exact ih _ e.draw.2
  | commit txn k ih =>
    obtain ⟨answer, engine, logged⟩ := ih (e.store.commit txn).1
      { e with store := (e.store.commit txn).2 }
    exact ⟨answer, engine, fun cs => logged _⟩
  | compact k ih =>
    obtain ⟨answer, engine, logged⟩ := ih e.store.compact.1 { e with store := e.store.compact.2 }
    exact ⟨answer, engine, fun cs => logged _⟩
  | appends k ih => exact ih _ e
  | tell s k ih => exact ih e
  | notify client n k ih => exact ih _ e
  | pause ms k ih => exact ih e
  | beginSweep k ih => exact ih _ { e with sweeping := true }
  | endSweep k ih => exact ih { e with sweeping := false }

theorem run_telling (e : Engine) (notifier : Notifier) {p : Program α}
    (deaf : ∀ refusal refusal', p.hushed refusal = p.hushed refusal') :
    let e' := e.telling notifier
    (e'.run p).answer = (e.run p).answer ∧
      (e'.run p).engine = (e.run p).engine.telling notifier ∧
      ∀ cs, e'.logged cs p = e.logged cs p := by
  intro e'
  obtain ⟨answer, engine, logged⟩ := run_hushed e notifier p
  obtain ⟨answer', engine', logged'⟩ := run_hushed e' notifier p
  rw [deaf e'.notifier.refusal e.notifier.refusal] at answer' engine' logged'
  have kept : (e'.run p).engine.telling notifier = (e'.run p).engine := by
    rw [← show (e'.run p).engine.notifier = notifier from notifier_run e' p]
    rfl
  exact ⟨answer'.symm.trans answer, kept.symm.trans (engine'.symm.trans engine),
    fun cs => (logged' cs).symm.trans (logged cs)⟩

/-! ### Requests, one after another -/

def heard (e : Engine) : List Request → News
  | [] => []
  | r :: rs =>
    let o := e.run (r.program e.settings)
    o.notices ++ o.engine.heard rs

def answers (e : Engine) : List Request → List (Except Failure Answer)
  | [] => []
  | r :: rs =>
    let o := e.run (r.program e.settings)
    o.answer :: o.engine.answers rs

variable {e : Engine} {cs : List Commit}

theorem Sound.notices_request (hs : e.Sound cs) {r : Request} (hr : r ≠ .compact) :
    let o := e.run (r.program e.settings)
    ∃ new, e.logged cs (r.program e.settings) = cs ++ new ∧
      o.engine.tables = new.foldl Tables.apply e.tables ∧ o.notices = e.tables.newsOf new := by
  have honest : (r.program e.settings).Honest := Program.Honest.request r hr
  obtain ⟨txns, course, logged, news⟩ :=
    exists_course e (fun hr => hs.linked.reservation_id hr) honest.appending
  obtain ⟨-, new, log, tables, changeable⟩ := Program.Proceeds.request r hr e cs hs
  obtain rfl : new = txns.map Txn.writes := List.append_cancel_left (log.symm.trans (logged cs))
  exact ⟨_, log, tables, (honest.course course).trans (news changeable).symm⟩

theorem Reachable.notices_serve (h : e.Reachable cs) {rs : List Request}
    (hrs : Request.compact ∉ rs) :
    ∃ new, (e.serve rs).Reachable (cs ++ new) ∧ e.heard rs = e.tables.newsOf new := by
  induction rs generalizing e cs with
  | nil => exact ⟨[], (List.append_nil cs).symm ▸ h, rfl⟩
  | cons r rs ih =>
    rw [List.mem_cons, not_or] at hrs
    obtain ⟨new, log, tables, notices⟩ := h.sound.notices_request (Ne.symm hrs.1)
    have next := h.asked r
    rw [log] at next
    obtain ⟨new', reachable, heard⟩ := ih next hrs.2
    refine ⟨new ++ new', by rwa [← List.append_assoc], ?_⟩
    rw [Tables.newsOf_append, ← tables, ← heard, ← notices]
    rfl

theorem Sound.serve_telling (hs : e.Sound cs) {rs : List Request} (hrs : Request.compact ∉ rs)
    (notifier : Notifier) :
    let e' := e.telling notifier
    e'.answers rs = e.answers rs ∧ e'.serve rs = (e.serve rs).telling notifier ∧
      e'.heard rs = e.heard rs := by
  induction rs generalizing e cs with
  | nil => exact ⟨rfl, rfl, rfl⟩
  | cons r rs ih =>
    intro e'
    rw [List.mem_cons, not_or] at hrs
    have hr := Ne.symm hrs.1
    let p := r.program e.settings
    have honest : p.Honest := Program.Honest.request r hr
    obtain ⟨answer, engine, logged⟩ := run_telling e notifier honest.deaf
    have told : (e'.run p).notices = (e.run p).notices := by
      have hs' : e'.Sound cs := hs.of_store rfl
      obtain ⟨new, log, -, notices⟩ := hs.notices_request hr
      obtain ⟨new', log', -, notices'⟩ := hs'.notices_request hr
      obtain rfl : new' = new :=
        List.append_cancel_left (log'.symm.trans ((logged cs).trans log))
      exact notices'.trans notices.symm
    have sound : (e.run p).engine.Sound (e.logged cs p) :=
      (Program.Proceeds.request r hr e cs hs).1
    obtain ⟨answers, serve, heard⟩ := ih sound hrs.2
    refine ⟨?_, ?_, ?_⟩
    · exact congrArg₂ List.cons answer ((congrArg (Engine.answers · rs) engine).trans answers)
    · exact (congrArg (Engine.serve · rs) engine).trans serve
    · exact congrArg₂ (· ++ ·) told ((congrArg (Engine.heard · rs) engine).trans heard)

/-- Clients hear the news of the log in its order, whatever the delivery service answers. -/
theorem Reachable.announces (h : e.Reachable cs) {rs : List Request}
    (hrs : Request.compact ∉ rs) :
    (∃ new, (e.serve rs).Reachable (cs ++ new) ∧ e.heard rs = e.tables.newsOf new) ∧
      (∀ notifier, let e' := e.telling notifier
        e'.answers rs = e.answers rs ∧ e'.serve rs = (e.serve rs).telling notifier ∧
          e'.heard rs = e.heard rs) ∧
      ∀ r ∈ rs, let p := r.program e.settings
        (∀ txns ns a, p.Course txns ns a → ns = txns.flatMap Txn.news) ∧
          ∀ refusal refusal', p.hushed refusal = p.hushed refusal' := by
  refine ⟨h.notices_serve hrs, h.sound.serve_telling hrs, fun r hr => ?_⟩
  have honest : (r.program e.settings).Honest :=
    Program.Honest.request r fun compact => hrs (compact ▸ hr)
  exact ⟨fun _ _ _ => honest.course, honest.deaf⟩

def outage : Notifier := ⟨fun _ _ => some "down", fun _ _ => []⟩

def threeBookings : List Request :=
  let start := Limits.earliest
  let stop := start + 3600000
  let book (client : Nat) : Request :=
    .operation ⟨.client (.ofNat client), 0⟩ (.book (.ofNat 2) start stop)
  [.operation ⟨.system, 0⟩ (.createParking ⟨"Rome", "00100", "Corso 1"⟩ none),
    .operation ⟨.system, 0⟩ (.addSector (.ofNat 1) ⟨"AB-01", .covered, 3, 1⟩),
    book 7, book 8, book 9,
    .operation ⟨.client (.ofNat 7), 0⟩ (.cancel (.ofNat 3)),
    .operation ⟨.client (.ofNat 8), start⟩ (.enter (.ofNat 4)),
    .sweep (stop + 3600000)]

set_option maxRecDepth 10000 in
theorem announces_threeBookings :
    let e := fresh {} outage (fun n => .ofNat (n + 1)) false
    let stop := Limits.earliest + 3600000
    ∃ log, (e.serve threeBookings).Reachable log ∧
      e.heard threeBookings = Tables.empty.newsOf log ∧
      e.heard threeBookings =
        [(.ofNat 7, .reservationCreated (.ofNat 3) (.ofNat 2) Limits.earliest stop),
          (.ofNat 8, .reservationCreated (.ofNat 4) (.ofNat 2) Limits.earliest stop),
          (.ofNat 9, .reservationCreated (.ofNat 5) (.ofNat 2) Limits.earliest stop),
          (.ofNat 7, .reservationCancelled (.ofNat 3)),
          (.ofNat 9, .reservationExpired (.ofNat 5)),
          (.ofNat 8, .forcedExit (.ofNat 4) (.ofNat 2) (stop + 3600000))] ∧
      (e.telling .silent).answers threeBookings = e.answers threeBookings := by
  intro e stop
  have reachable : e.Reachable [] := Reachable.fresh _ _ _ _
  have noCompact : Request.compact ∉ threeBookings := by decide
  obtain ⟨⟨log, served, heard⟩, others, -⟩ := Reachable.announces reachable noCompact
  exact ⟨log, served, heard, by decide, (others .silent).1⟩

end Engine

end Carpark
