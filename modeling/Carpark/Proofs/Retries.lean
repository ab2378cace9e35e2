import Carpark.Proofs.Staging

/-!
Trying again. An operation that is tried again is one attempt, begun anew wherever it has lost a
race for a row. Each race that it loses is somebody else's gain, so there are no more lost races
than there are commits of others; and its own commit is in the tables in full once if it has changed
anything, and otherwise not at all.
-/

namespace Carpark

open Workshop

variable {α β : Type} {me : TaskId} {own : Ulid → Prop} {S S₁ S' : Workshop}

/-! ### One attempt -/

theorem Program.steps_of_reading {x : Reading α} {a : α}
    (run : (Program.ofReading x).Amid me own S a S') : Workshop.Steps (Others me own) S S' := by
  induction x generalizing S with
  | done b =>
    cases run
    exact .refl
  | ask q k ih =>
    cases run with
    | ask steps run => exact steps.trans (ih _ run)
  | draw k ih =>
    cases run with
    | draw _ run => exact ih _ run

/-- It has landed once if its answer says so, and otherwise not. Over the version of a row it has
failed only if others have landed, and may be tried again unless one of them deletes a row. -/
def Tried (me : TaskId) (own : Ulid → Prop) (idle : α → Bool) (S : Workshop)
    (result : Except Failure α) (S' : Workshop) : Prop :=
  ∃ since, S'.landed = S.landed ++ since ∧ match result with
    | .ok a => landings me since = if idle a then 0 else 1
    | .error e => landings me since = 0 ∧ Ready me own S' ∧ (e.isStale = true → since ≠ [] ∧
        (e.isRowContention = true ∨ ∃ x ∈ since, ∃ key, x.2.Deletes key))

theorem Tried.of_attempt {a : Lookup (Plan α)} {idle : α → Bool} {result : Except Failure α}
    (ready : Ready me own S) (careful : a.Careful idle)
    (run : (Program.attempt a).Amid me own S result S') : Tried me own idle S result S' := by
  obtain ⟨r, S₁, reading, rest⟩ := Program.amid_bind.1 run
  have steps := Program.steps_of_reading reading
  have stages := careful ready r S₁ reading
  obtain ⟨-, more₁, landed₁, theirs₁⟩ := Steps.jobs (fun _ _ => id) steps ready.others
  cases r with
  | error e =>
    cases rest
    have fresh : e.isStale = false := stages
    exact ⟨more₁, landed₁, landings_of_others theirs₁, ready.later steps,
      fun stale => nomatch fresh.symm.trans stale⟩
  | ok plan =>
    obtain ⟨staged, fits⟩ := stages
    cases rest with
    | @commit _ _ _ _ _ outcome _ does rest =>
      cases outcome with
      | error e =>
        cases rest
        exact staged.lost ready steps does
      | ok n =>
        cases rest
        obtain ⟨more₂, landed₂, -, once⟩ := does.commit (ready.later steps)
        refine ⟨more₁ ++ more₂, by rw [landed₂, landed₁, List.append_assoc], ?_⟩
        have fits : plan.txn.isEmpty = idle plan.answer := fits
        rw [landings_append, landings_of_others theirs₁, Nat.zero_add, once, fits]

/-! ### Attempts -/

def hasLost : Except Failure α → Bool
  | .error e => e.isRowContention
  | .ok _ => false

inductive Program.Loses (me : TaskId) (own : Ulid → Prop) (p : Program (Except Failure α)) :
    Nat → Workshop → Workshop → Prop
  | never (S : Workshop) : Loses me own p 0 S S
  | again {n : Nat} {S S₁ S₂ S' : Workshop} {result : Except Failure α} :
    p.Amid me own S result S₁ → hasLost result = true → Workshop.Steps (Others me own) S₁ S₂ →
    Loses me own p n S₂ S' → Loses me own p (n + 1) S S'

theorem Program.amid_attempts_succ {s : Settings} {op : OpName} {a : Lookup (Plan α)}
    {left n : Nat} {result : Except Failure α} :
    (attempts s op a (left + 1) n).Amid me own S result S' ↔
      (attempt a).Amid me own S result S' ∧ hasLost result = false ∨
      ∃ r S₁ S₂, (attempt a).Amid me own S r S₁ ∧ hasLost r = true ∧
        Workshop.Steps (Others me own) S₁ S₂ ∧
        (attempts s op a left (n + 1)).Amid me own S₂ result S' := by
  rw [attempts, amid_bind]
  constructor
  · rintro ⟨r, S₁, first, rest⟩
    cases r with
    | ok x =>
      cases rest
      exact .inl ⟨first, rfl⟩
    | error e =>
      cases lost : e.isRowContention with
      | false =>
        simp only [lost] at rest
        cases rest
        exact .inl ⟨first, lost⟩
      | true =>
        simp only [lost, if_true] at rest
        obtain ⟨_, _, counted, paused⟩ := amid_bind.1 rest
        obtain ⟨-, rfl⟩ := (Calm.count _ _ _ _ _ _).1 counted
        cases paused with
        | pause steps again => exact .inr ⟨_, _, _, first, lost, steps, again⟩
  · rintro (⟨last, kept⟩ | ⟨r, S₁, S₂, first, lost, steps, again⟩)
    · refine ⟨result, S', last, ?_⟩
      cases result with
      | ok x => exact .done _ _
      | error e =>
        have kept : e.isRowContention = false := kept
        simp only [kept]
        exact .done _ _
    · refine ⟨r, S₁, first, ?_⟩
      cases r with
      | ok x => cases lost
      | error e =>
        have lost : e.isRowContention = true := lost
        simp only [lost, if_true]
        exact amid_bind.2 ⟨(), S₁, (Calm.count _ _ _ _ _ _).2 ⟨rfl, rfl⟩, .pause steps again⟩

theorem Program.amid_attempts {s : Settings} {op : OpName} {a : Lookup (Plan α)} {left n : Nat}
    {result : Except Failure α} : (attempts s op a left n).Amid me own S result S' ↔
      ∃ lost ≤ left, ∃ S₁, (attempt a).Loses me own lost S S₁ ∧
        (attempt a).Amid me own S₁ result S' ∧ (lost = left ∨ hasLost result = false) := by
  induction left generalizing n S with
  | zero =>
    constructor
    · intro run
      exact ⟨0, Nat.le_refl 0, S, .never S, run, .inl rfl⟩
    · rintro ⟨_, none, S₁, losses, run, -⟩
      cases Nat.le_zero.1 none
      cases losses
      exact run
  | succ left ih =>
    rw [amid_attempts_succ]
    constructor
    · rintro (⟨last, kept⟩ | ⟨r, S₁, S₂, first, lost, steps, again⟩)
      · exact ⟨0, Nat.zero_le _, S, .never S, last, .inr kept⟩
      · obtain ⟨m, hm, S₃, losses, last, ended⟩ := ih.1 again
        exact ⟨m + 1, Nat.succ_le_succ hm, S₃, .again first lost steps losses, last,
          ended.imp_left (congrArg (· + 1))⟩
    · rintro ⟨_, hm, S₃, losses, last, ended⟩
      cases losses with
      | never => exact .inl ⟨last, ended.resolve_left nofun⟩
      | again first lost steps losses =>
        exact .inr ⟨_, _, _, first, lost, steps, ih.2 ⟨_, Nat.le_of_succ_le_succ hm, _, losses,
          last, ended.imp_left Nat.succ.inj⟩⟩

/-- While races are lost only others get into the tables, and at least as many as races are lost. -/
theorem Program.Loses.landed {p : Program (Except Failure α)} {idle : α → Bool} {n : Nat}
    (tried : ∀ {S result S'}, Ready me own S → p.Amid me own S result S' →
      Tried me own idle S result S')
    (h : p.Loses me own n S S') (ready : Ready me own S) :
    Ready me own S' ∧ ∃ since, S'.landed = S.landed ++ since ∧ landings me since = 0 ∧
      n ≤ since.length := by
  induction h with
  | never => exact ⟨ready, [], (List.append_nil _).symm, rfl, Nat.le_refl 0⟩
  | @again n S S₁ S₂ S' result run lost steps _ ih =>
    obtain ⟨more₁, landed₁, come⟩ := tried ready run
    cases result with
    | ok a => cases lost
    | error e =>
      obtain ⟨none₁, ready₁, why⟩ := come
      obtain ⟨some, -⟩ := why (Failure.isStale_of_isRowContention lost)
      obtain ⟨-, more₂, landed₂, theirs₂⟩ := Steps.jobs (fun _ _ => id) steps ready₁.others
      obtain ⟨ready', more₃, landed₃, none₃, enough⟩ := ih (ready₁.later steps)
      refine ⟨ready', more₁ ++ more₂ ++ more₃, ?_, ?_, ?_⟩
      · simp only [landed₃, landed₂, landed₁, List.append_assoc]
      · rw [landings_append, landings_append, none₁, landings_of_others theirs₂, none₃]
      · have one : 0 < more₁.length := List.length_pos_iff.2 some
        simp only [List.length_append]
        omega

/-! ### Operations -/

/-- The program for one attempt, tried again where it loses a race, for each number of attempts. -/
structure Program.Persists (idle : α → Bool) (p : Nat → Program (Except Failure α)) : Prop where
  amid : ∀ {me own S result S'} (k : Nat), (p k).Amid me own S result S' ↔
    ∃ lost < max 1 k, ∃ S₁, (p 1).Loses me own lost S S₁ ∧ (p 1).Amid me own S₁ result S' ∧
      (lost + 1 = max 1 k ∨ hasLost result = false)
  tried : ∀ {me own S result S'}, Ready me own S → (p 1).Amid me own S result S' →
    Tried me own idle S result S'

namespace Program

theorem amid_bind_calm {p : Program (Except Failure α)}
    {f : Except Failure α → Program (Except Failure β)} {g : α → β}
    (calm : ∀ r, Calm (f r) (r.map g)) {result : Except Failure β} :
    (p >>= f).Amid me own S result S' ↔ ∃ r, p.Amid me own S r S' ∧ result = r.map g := by
  rw [amid_bind]
  constructor
  · rintro ⟨r, S₁, run, rest⟩
    obtain ⟨rfl, rfl⟩ := (calm r _ _ _ _ _).1 rest
    exact ⟨r, run, rfl⟩
  · rintro ⟨r, run, rfl⟩
    exact ⟨r, S', run, (calm r _ _ _ _ _).2 ⟨rfl, rfl⟩⟩

theorem hasLost_map {g : α → β} (r : Except Failure α) : hasLost (r.map g) = hasLost r := by
  cases r <;> rfl

theorem loses_bind_calm {p : Program (Except Failure α)}
    {f : Except Failure α → Program (Except Failure β)} {g : α → β}
    (calm : ∀ r, Calm (f r) (r.map g)) {n : Nat} :
    (p >>= f).Loses me own n S S' ↔ p.Loses me own n S S' := by
  constructor
  · intro h
    induction h with
    | never S => exact .never S
    | again both lost steps _ ih =>
      obtain ⟨r, run, rfl⟩ := (amid_bind_calm calm).1 both
      exact .again run ((hasLost_map r).symm.trans lost) steps ih
  · intro h
    induction h with
    | never S => exact .never S
    | @again _ _ _ _ _ r run lost steps _ ih =>
      exact .again ((amid_bind_calm calm).2 ⟨r, run, rfl⟩) ((hasLost_map r).trans lost) steps ih

namespace Persists

variable {idle : α → Bool} {p : Nat → Program (Except Failure α)} {settings : Settings}
  {ctx : Context}

theorem retrying {a : Lookup (Plan α)} (careful : a.Careful idle) {op : OpName} :
    Persists idle fun k => Program.retrying { settings with capacityRetries := k } op a where
  amid := by
    intro me own S result S' k
    have most : max 1 k = k - 1 + 1 := by omega
    refine amid_attempts.trans ?_
    simp only [most, Nat.lt_succ_iff, Nat.add_right_cancel_iff]
    rfl
  tried := fun ready run => .of_attempt ready careful run

theorem refused {q : Program (Except Failure α)} {e : Failure} (calm : Calm q (.error e))
    (other : e.isStale = false) : Persists idle fun _ => q := by
  have kept : hasLost (α := α) (.error e) = false :=
    Bool.eq_false_iff.2 fun lost =>
      nomatch other.symm.trans (Failure.isStale_of_isRowContention lost)
  constructor
  · intro me own S result S' k
    constructor
    · intro run
      obtain ⟨rfl, rfl⟩ := (calm _ _ _ _ _).1 run
      exact ⟨0, Nat.lt_of_lt_of_le Nat.one_pos (Nat.le_max_left 1 k), S', .never S', run, .inr kept⟩
    · rintro ⟨_, -, S₁, losses, run, -⟩
      cases losses with
      | never => exact run
      | again first lost =>
        obtain ⟨rfl, -⟩ := (calm _ _ _ _ _).1 first
        cases kept.symm.trans lost
  · intro me own S result S' ready run
    obtain ⟨rfl, rfl⟩ := (calm _ _ _ _ _).1 run
    exact ⟨[], (List.append_nil _).symm, rfl, ready, fun stale => nomatch other.symm.trans stale⟩

theorem bind (h : Persists idle p) {f : Except Failure α → Program (Except Failure β)} {g : α → β}
    (calm : ∀ r, Calm (f r) (r.map g)) {idle' : β → Bool} (same : ∀ a, idle' (g a) = idle a) :
    Persists idle' fun k => p k >>= f where
  amid := by
    intro me own S result S' k
    simp only [amid_bind_calm calm, loses_bind_calm calm, h.amid k]
    constructor
    · rintro ⟨r, ⟨n, hn, S₁, losses, run, ended⟩, rfl⟩
      exact ⟨n, hn, S₁, losses, ⟨r, run, rfl⟩, ended.imp_right (hasLost_map r).trans⟩
    · rintro ⟨n, hn, S₁, losses, ⟨r, run, rfl⟩, ended⟩
      exact ⟨r, ⟨n, hn, S₁, losses, run, ended.imp_right (hasLost_map r).symm.trans⟩, rfl⟩
  tried := by
    intro me own S result S' ready both
    obtain ⟨r, run, rfl⟩ := (amid_bind_calm calm).1 both
    obtain ⟨since, landed, come⟩ := h.tried ready run
    refine ⟨since, landed, ?_⟩
    cases r with
    | error e => exact come
    | ok a => exact come.trans (by rw [same])

theorem observing (h : Persists idle p) {name : OpName}
    {f : Except Failure α → Program (Except Failure α)}
    (failed : ∀ e, Calm (f (.error e)) (.error e)) (passed : ∀ a, Calm (f (.ok a)) (.ok a)) :
    Persists idle fun k => p k >>= fun r => Program.observe name r >>= fun _ => f r :=
  h.bind (g := id) (fun r => by
    cases r with
    | error e => exact .bind (.count _) (failed e)
    | ok a => exact .bind (.count _) (passed a)) fun _ => rfl

theorem answering (h : Persists idle p) {f : α → Answer} {idle' : Answer → Bool}
    (same : ∀ a, idle' (f a) = idle a) : Persists idle' fun k => (p k).answering f :=
  h.bind (fun _ => .pure _) same

theorem informing {a : Lookup (Plan (Option Reservation))} (careful : a.Careful Option.isNone)
    {name : OpName} {n : Reservation → Notification} :
    Persists (!·) fun k => (match ctx.requirePrivileged with
      | .error e => return .error e
      | .ok () => do
        let result ← Program.retrying { settings with capacityRetries := k } name a
        Termination.informing result n) := by
  cases privileged : ctx.requirePrivileged with
  | error e => exact refused (.pure _) (Context.requirePrivileged_isStale e privileged)
  | ok _ =>
    refine (retrying careful).bind (g := Option.isSome) (fun r => ?_) Option.not_isSome
    match r with
    | .error e => exact .pure _
    | .ok none => exact .pure _
    | .ok (some r) => exact .bind (.inform _ _) (.pure _)

theorem telling (h : Persists (fun _ => false) p) {name : OpName}
    {f : Except Failure α → Program (Except Failure α)} {answer : α → Answer}
    (failed : ∀ e, Calm (f (.error e)) (.error e)) (passed : ∀ a, Calm (f (.ok a)) (.ok a))
    (busy : ∀ a, (answer a).isIdle = false) : Persists Answer.isIdle fun k =>
      (p k >>= fun r => Program.observe name r >>= fun _ => f r).answering answer :=
  answering (observing h failed passed) busy

end Persists

end Program

def Operation.isRetried : Operation → Bool
  | .book .. | .enter _ | .driveIn .. | .exit .. | .expire _ | .forceExit _ | .close _ => true
  | _ => false

theorem Program.Persists.operation (settings : Settings) (ctx : Context) {op : Operation}
    (retried : op.isRetried = true) : Persists Answer.isIdle fun k =>
      op.program { settings with capacityRetries := k } ctx := by
  cases op with
  | book sector start stop =>
    have same (k : Nat) : Booking.request { settings with capacityRetries := k } ctx start stop =
      Booking.request settings ctx start stop := rfl
    simp only [Operation.program, Booking.make, same]
    cases request : Booking.request settings ctx start stop with
    | error e =>
      refine telling (refused (.pure _) (Booking.request_isStale e request)) ?_ ?_ ?_
      · exact fun _ => .pure _
      · exact fun _ => .bind (.line _) (.bind (.inform _ _) (.pure _))
      · exact fun _ => rfl
    | ok made =>
      refine telling (retrying Booking.careful_makeAttempt) ?_ ?_ ?_
      · exact fun _ => .pure _
      · exact fun _ => .bind (.line _) (.bind (.inform _ _) (.pure _))
      · exact fun _ => rfl
  | enter id =>
    refine telling (retrying Gate.careful_enterAttempt) ?_ ?_ ?_
    · exact fun _ => .pure _
    · exact fun _ => .bind (.line _) (.pure _)
    · exact fun _ => rfl
  | driveIn parking anonymous =>
    refine telling (retrying Gate.careful_driveInAttempt) ?_ ?_ ?_
    · exact fun _ => .pure _
    · exact fun _ => .bind (.line _) (.pure _)
    · exact fun _ => rfl
  | exit id code ending =>
    refine telling (retrying Gate.careful_exitAttempt) ?_ ?_ ?_
    · exact fun _ => .pure _
    · exact fun _ => .bind (.line _) (.pure _)
    · exact fun _ => rfl
  | expire id => exact answering (informing Termination.careful_expireAttempt) fun _ => rfl
  | forceExit id => exact answering (informing Termination.careful_forceExitAttempt) fun _ => rfl
  | close id =>
    simp only [Operation.program, Termination.close]
    refine answering ?_ fun _ => rfl
    cases privileged : ctx.requirePrivileged with
    | error e => exact refused (.pure _) (Context.requirePrivileged_isStale e privileged)
    | ok _ => exact retrying Termination.careful_closeAttempt
  | _ => cases retried

namespace Workshop

/-- An operation that is tried again lands once if its answer says so, and otherwise never. It fails
over a version only if others have landed as often as it may try, or have deleted a row. -/
theorem retried_lands_once {store : Store} (shelved : store.tables.Shelved)
    (before : Steps (fun _ _ => True) (rest store) S)
    (others : ∀ w ∈ S.crew, Others me own w.task w.job) (fresh : ∀ u, own u → S.Unborn u)
    {settings : Settings} {ctx : Context} {op : Operation} (retried : op.isRetried = true)
    {answer : Except Failure Answer} (call : (op.program settings ctx).Amid me own S answer S') :
    let once := op.program { settings with capacityRetries := 1 } ctx
    let most := max 1 settings.capacityRetries
    ∃ since, S'.landed = S.landed ++ since ∧
      (∃ lost < most, ∃ S₁, once.Loses me own lost S S₁ ∧ once.Amid me own S₁ answer S' ∧
        (lost + 1 = most ∨ hasLost answer = false)) ∧
      landings me since = (if Answer.isTraceless answer then 0 else 1) ∧
      (since.countP (·.1 ≠ me) < most → (∀ x ∈ since, x.1 ≠ me → ∀ key, ¬ x.2.Deletes key) →
        ∀ entity id expected actual,
          answer ≠ .error (.versionMismatch entity id expected actual)) := by
  intro once most
  have sound := Sound.rest store
  have ready : Ready me own S :=
    ⟨Steps.sound before sound, Steps.shelved before sound shelved, others, fresh⟩
  have persists := Program.Persists.operation settings ctx retried
  obtain ⟨lost, few, S₁, losses, last, ended⟩ := (persists.amid settings.capacityRetries).1 call
  obtain ⟨ready₁, more₁, landed₁, none₁, enough⟩ := losses.landed persists.tried ready
  obtain ⟨more₂, landed₂, come⟩ := persists.tried ready₁ last
  refine ⟨more₁ ++ more₂, by rw [landed₂, landed₁, List.append_assoc],
    ⟨lost, few, S₁, losses, last, ended⟩, ?_, ?_⟩
  · rw [landings_append, none₁, Nat.zero_add]
    cases answer with
    | error e => exact come.1
    | ok a => exact come
  · rintro rare spared entity id expected actual rfl
    obtain ⟨none₂, -, why⟩ := come
    obtain ⟨some, again | ⟨x, hx, key, deletes⟩⟩ := why rfl
    · have lastTry : lost + 1 = most :=
        ended.resolve_right fun kept => nomatch kept.symm.trans again
      have all : landings me (more₁ ++ more₂) = 0 := by rw [landings_append, none₁, none₂]
      rw [countP_of_landings_eq_zero all, List.length_append] at rare
      have one : 0 < more₂.length := List.length_pos_iff.2 some
      omega
    · have theirs : x.1 ≠ me := by simpa using List.countP_eq_zero.1 none₂ x hx
      exact spared x (List.mem_append_right _ hx) theirs key deletes

def lapsed : Reservation :=
  ⟨.ofNat 4, none, .ofNat 1, .ofNat 2, ⟨0, 10⟩, .created, true, none, 1⟩

def lapse : Txn := [.updateReservation { lapsed with status := .expired }]

theorem lockKeys_lapse : lapse.lockKeys = [.reservation (.ofNat 4)] :=
  Txn.lockKeys_of_one rfl rfl

def lapseAt (row : Reservation) (stage : Stage) (sharing : SharedLock) (rows : RowLocks) :
    Workshop where
  shared := ⟨⟨Tables.empty.putReservation row, .opened false .empty⟩, sharing, rows, [], []⟩
  crew := [⟨0, .commit lapse, stage⟩]
  logged := if row.status = .expired then [lapse.writes] else []
  landed := if row.status = .expired then [(0, lapse)] else []

set_option maxRecDepth 10000 in
theorem retried_lands_once_expire :
    let store : Store := ⟨Tables.empty.putReservation lapsed, .opened false .empty⟩
    ∃ S', ((Operation.expire (.ofNat 4)).program {} ⟨.system, 11⟩).Amid 0 (· = .ofNat 9)
        (rest store) (.ok (.flag true)) S' ∧ landings 0 S'.landed = 1 := by
  intro store
  have begun : Steps (Others 0 (· = .ofNat 9)) (lapseAt lapsed .start .free .none)
    (lapseAt lapsed .start .free .none) := .refl
  have entered := (begun.tail (.work (.refl _) rfl)).tail (.work (.refl _) rfl)
  let inside := SharedLock.free.join 0 .shared
  have locking : Steps (Others 0 (· = .ofNat 9)) _
    (lapseAt lapsed (.locking [] lapse.lockKeys) inside .none) := entered
  rw [lockKeys_lapse] at locking
  let rows : RowLocks := ⟨[(.reservation (.ofNat 4), 0)], [⟨[0], [0]⟩]⟩
  have taken := (locking.tail (.work (.refl _) rfl)).tail (.work (.refl _) rfl)
  have locked : Steps (Others 0 (· = .ofNat 9)) _
    (lapseAt lapsed (.locking [0] []) inside rows) := taken
  have checked := locked.tail (.work (.refl _) rfl)
  have logged := checked.tail (.log store.log [] [(0, .done)])
  have written := (logged.tail (.work (.refl _) rfl)).tail (.work (.refl _) rfl)
  have unlocking := written.tail (.work (.refl _) rfl)
  let gone : Reservation := { lapsed with status := .expired, version := 2 }
  have unlocked : Steps (Others 0 (· = .ofNat 9)) _
    (lapseAt gone (.unlocking [0] (.ok 0)) inside rows) := unlocking
  have released := (unlocked.tail (.work (.refl _) rfl)).tail (.work (.refl _) rfl)
  have left := released.tail (.work (.refl _) rfl)
  let given := (rows.leave 0 0).drop 0 0
  have tidying : Steps (Others 0 (· = .ofNat 9)) _
    (lapseAt gone (.tidying lapse.lockKeys (.ok 0)) (inside.leave 0) given) := left
  rw [lockKeys_lapse] at tidying
  have finished := (tidying.tail (.work (.refl _) rfl)).tail (.work (.refl _) rfl)
  have does : Does 0 (· = .ofNat 9) (.commit lapse) (rest store) (.ok 0) _ :=
    ⟨_, [], nofun, finished, .refl _, rfl⟩
  have call : ((Operation.expire (.ofNat 4)).program {} ⟨.system, 11⟩).Amid 0 (· = .ofNat 9)
      (rest store) (.ok (.flag true)) _ :=
    .ask .refl (.ask .refl (.commit does (.done _ _)))
  have shelved : store.tables.Shelved := Tables.Indexed.empty.shelved.write (.putReservation lapsed)
  obtain ⟨since, landed, -, once, -⟩ := retried_lands_once shelved .refl (List.forall_mem_nil _)
    (fun _ hu => ⟨by rw [hu]; rfl, List.forall_mem_nil _⟩) rfl call
  exact ⟨_, call, landed ▸ once⟩

end Workshop

end Carpark
