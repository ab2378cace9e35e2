import Carpark.Proofs.Alone
import Carpark.Proofs.GateLog
import Carpark.Proofs.LaterSteps
import Carpark.Proofs.Renewal
import Mathlib.Data.List.Flatten
import Mathlib.Data.List.Nodup
import Mathlib.Logic.Relation

/-!
Operations side by side. Each attempt reads at instants of its own, and then commits at one
instant if nothing that it is compared with has changed. What it commits is what the operation
would do if it ran alone at that instant.
-/

namespace Carpark

/-- An attempt at an operation: in whose name, what it has drawn, and what is still to be read. -/
structure Attempt where
  ctx : Context
  op : Operation
  ids : List Ulid
  rest : Reading (Except Failure Txn)

structure Traffic where
  tables : Tables
  spent : Ulid → Prop
  attempts : List Attempt

namespace Traffic

inductive Step (settings : Settings) : Traffic → Traffic → Prop
  | start {t : Tables} {spent : Ulid → Prop} {as : List Attempt} (ctx : Context) (op : Operation) :
    Step settings ⟨t, spent, as⟩ ⟨t, spent, ⟨ctx, op, [], (op.staging settings ctx).run⟩ :: as⟩
  | ask {t : Tables} {spent : Ulid → Prop} {before after : List Attempt} {ctx : Context}
      {op : Operation} {ids : List Ulid} {q : Query}
      {k : q.Answer → Reading (Except Failure Txn)} :
    Step settings ⟨t, spent, before ++ ⟨ctx, op, ids, .ask q k⟩ :: after⟩
      ⟨t, spent, before ++ ⟨ctx, op, ids, k (t.answer q)⟩ :: after⟩
  | draw {t : Tables} {spent : Ulid → Prop} {before after : List Attempt} {ctx : Context}
      {op : Operation} {ids : List Ulid} {k : Ulid → Reading (Except Failure Txn)} {u : Ulid} :
    ¬ spent u →
    Step settings ⟨t, spent, before ++ ⟨ctx, op, ids, .draw k⟩ :: after⟩
      ⟨t, fun v => v = u ∨ spent v, before ++ ⟨ctx, op, ids ++ [u], k u⟩ :: after⟩
  | commit {t : Tables} {spent : Ulid → Prop} {before after : List Attempt} {ctx : Context}
      {op : Operation} {ids : List Ulid} {txn : Txn} :
    t.refusal? txn = none →
    Step settings ⟨t, spent, before ++ ⟨ctx, op, ids, .done (.ok txn)⟩ :: after⟩
      ⟨t.apply txn.writes, spent, before ++ after⟩
  /-- An attempt fails, is refused, or is given up. -/
  | leave {t : Tables} {spent : Ulid → Prop} {before after : List Attempt} {a : Attempt} :
    Step settings ⟨t, spent, before ++ a :: after⟩ ⟨t, spent, before ++ after⟩

/-- What comes about from an engine at rest. -/
inductive Reachable (settings : Settings) : Traffic → Prop
  | rest {e : Engine} {cs : List Commit} {spent : Ulid → Prop} :
    e.Reachable cs → (∀ u, ¬ spent u → e.tables.Lacks u) → Reachable settings ⟨e.tables, spent, []⟩
  | step {T T' : Traffic} : Reachable settings T → Step settings T T' → Reachable settings T'

theorem Reachable.of_engine (settings : Settings) {e : Engine} {cs : List Commit}
    (h : e.Reachable cs) : Reachable settings ⟨e.tables, fun u => ¬ e.tables.Lacks u, []⟩ :=
  .rest h fun _ hu => Classical.not_not.1 hu

def Steps (settings : Settings) : Traffic → Traffic → Prop := Relation.ReflTransGen (Step settings)

theorem Reachable.steps {settings : Settings} {T T' : Traffic} (h : Reachable settings T)
    (steps : Steps settings T T') : Reachable settings T' := by
  induction steps with
  | refl => exact h
  | tail _ step ih => exact ih.step step

theorem Steps.through {settings : Settings} {t : Tables} {spent : Ulid → Prop} {as : List Attempt}
    {ctx : Context} {op : Operation} {us : List Ulid} {x : Reading (Except Failure Txn)}
    (ids : Nat → Ulid) (n : Nat) (nodup : (Reading.drawn ids n (x.eval t ids n).2).Nodup)
    (fresh : ∀ u ∈ Reading.drawn ids n (x.eval t ids n).2, ¬ spent u) :
    ∃ spent', (∀ u, spent' u → spent u ∨ u ∈ Reading.drawn ids n (x.eval t ids n).2) ∧
      Steps settings ⟨t, spent, ⟨ctx, op, us, x⟩ :: as⟩
        ⟨t, spent', ⟨ctx, op, us ++ Reading.drawn ids n (x.eval t ids n).2,
          .done (x.eval t ids n).1⟩ :: as⟩ := by
  induction x generalizing us spent n with
  | done r =>
    refine ⟨spent, fun u hu => .inl hu, ?_⟩
    have here : Steps settings ⟨t, spent, ⟨ctx, op, us, .done r⟩ :: as⟩
      ⟨t, spent, ⟨ctx, op, us, .done r⟩ :: as⟩ := .refl
    simpa [Reading.eval, Reading.drawn] using here
  | ask q k ih =>
    obtain ⟨spent', bound, steps⟩ := ih (t.answer q) n nodup fresh
    exact ⟨spent', bound, .head (@Step.ask _ t spent [] as ctx op us q k) steps⟩
  | draw k ih =>
    have drawn : Reading.drawn ids n ((Reading.draw k).eval t ids n).2 =
        ids n :: Reading.drawn ids (n + 1) ((k (ids n)).eval t ids (n + 1)).2 :=
      Reading.drawn_succ (Reading.le_eval t ids (k (ids n)) (n + 1))
    rw [drawn] at nodup fresh ⊢
    obtain ⟨notMem, nodup⟩ := List.nodup_cons.1 nodup
    obtain ⟨spent', bound, steps⟩ := ih (ids n) (n + 1) nodup
      fun u hu (hspent : u = ids n ∨ spent u) =>
        hspent.elim (fun e => notMem (e ▸ hu)) (fresh u (.tail _ hu))
    have draws := @Step.draw settings t spent [] as ctx op us k _ (fresh _ (.head _))
    rw [List.append_cons]
    refine ⟨spent', fun u hu => ?_, .head draws steps⟩
    rcases bound u hu with (rfl | hu) | hu
    · exact .inr (.head _)
    · exact .inl hu
    · exact .inr (.tail _ hu)

theorem Reachable.through {settings : Settings} {t : Tables} {spent : Ulid → Prop}
    {as : List Attempt} {ctx : Context} {op : Operation} {us : List Ulid}
    {x : Reading (Except Failure Txn)}
    (ids : Nat → Ulid) (n : Nat) (h : Reachable settings ⟨t, spent, ⟨ctx, op, us, x⟩ :: as⟩)
    (nodup : (Reading.drawn ids n (x.eval t ids n).2).Nodup)
    (fresh : ∀ u ∈ Reading.drawn ids n (x.eval t ids n).2, ¬ spent u) :
    ∃ spent', (∀ u, spent' u → spent u ∨ u ∈ Reading.drawn ids n (x.eval t ids n).2) ∧
      Reachable settings ⟨t, spent', ⟨ctx, op, us ++ Reading.drawn ids n (x.eval t ids n).2,
        .done (x.eval t ids n).1⟩ :: as⟩ := by
  obtain ⟨spent', bound, steps⟩ := Steps.through ids n nodup fresh
  exact ⟨spent', bound, h.steps steps⟩

end Traffic

/-! ### One commit -/

namespace Transition

variable {settings : Settings} {ctx : Context} {op : Operation} {ids : List Ulid} {txn : Txn}
  {m : Moment}

def commit (h : Transition settings ctx m.tables op ids txn)
    (hok : ∀ c ∈ txn, c.suits m.tables) : Moment where
  tables := m.tables.apply txn.writes
  used u := m.used u ∨ u ∈ ids
  linked := h.linked m.linked hok
  parking_used := by
    intro id p hp
    by_cases hid : id ∈ ids
    · exact .inr hid
    · have since : Tables.Since (· ∉ ids) m.tables _ := h.since m.linked hok fun u hu h => h hu
      obtain ⟨q, hq, -⟩ := since.parkings id p hid hp
      exact .inl (m.parking_used hq)
  sector_used := by
    intro id s hs
    by_cases hid : id ∈ ids
    · exact .inr hid
    · have since : Tables.Since (· ∉ ids) m.tables _ := h.since m.linked hok fun u hu h => h hu
      obtain ⟨q, hq, -⟩ := since.sectors id s hid hs
      exact .inl (m.sector_used hq)

theorem later_commit (h : Transition settings ctx m.tables op ids txn)
    (hok : ∀ c ∈ txn, c.suits m.tables) (unused : ∀ u ∈ ids, ¬ m.used u) :
    Later m (h.commit hok) := by
  have since := h.since m.linked hok unused
  exact ⟨.inl, since.parkings _ _, since.sectors _ _, since.keeps⟩

end Transition

/-! ### One attempt -/

/-- What the attempt will have read when it is through, its operation reads at moments one after
another, the last so far no later than `now`. -/
def Attempt.Follows (settings : Settings) (a : Attempt) (now : Moment) : Prop :=
  ∃ first last, Later last now ∧ ∀ us txn m,
    Reading.Sees Moment.tables Later a.rest last us (.ok txn) m →
      Lookup.Sees Moment.tables Later (a.op.staging settings a.ctx) first (a.ids ++ us) txn m

namespace Attempt.Follows

variable {settings : Settings} {ctx : Context} {op : Operation} {ids : List Ulid} {now : Moment}

theorem start : (Attempt.mk ctx op [] (op.staging settings ctx).run).Follows settings now :=
  ⟨now, now, .refl now, fun _ _ _ h => h⟩

theorem later {a : Attempt} {now' : Moment} (h : a.Follows settings now) (h' : Later now now') :
    a.Follows settings now' := by
  obtain ⟨first, last, later, complete⟩ := h
  exact ⟨first, last, later.trans h', complete⟩

theorem ask {q : Query} {k : q.Answer → Reading (Except Failure Txn)}
    (h : (Attempt.mk ctx op ids (.ask q k)).Follows settings now) :
    (Attempt.mk ctx op ids (k (now.tables.answer q))).Follows settings now := by
  obtain ⟨first, last, later, complete⟩ := h
  exact ⟨first, now, .refl now, fun us txn m h => complete us txn m (.ask later h)⟩

theorem draw {k : Ulid → Reading (Except Failure Txn)} (u : Ulid)
    (h : (Attempt.mk ctx op ids (.draw k)).Follows settings now) :
    (Attempt.mk ctx op (ids ++ [u]) (k u)).Follows settings now := by
  obtain ⟨first, last, later, complete⟩ := h
  refine ⟨first, last, later, fun us txn m h => ?_⟩
  rw [List.append_assoc]
  exact complete (u :: us) txn m (.draw h)

/-- An attempt that is through makes a transition where its commit is accepted. -/
theorem transition {txn : Txn} (h : (Attempt.mk ctx op ids (.done (.ok txn))).Follows settings now)
    (writes : txn ≠ []) (accepted : now.tables.refusal? txn = none) :
    Transition settings ctx now.tables op ids txn := by
  obtain ⟨first, last, later, complete⟩ := h
  have sees := complete [] txn last (.done _ _)
  rw [List.append_nil] at sees
  exact .of_sees sees later accepted writes

end Attempt.Follows

/-! ### All attempts -/

/-- Every attempt follows its operation, and what it has drawn is its own. -/
structure Traffic.Sound (settings : Settings) (T : Traffic) (now : Moment) : Prop where
  tables : now.tables = T.tables
  reservation_used : ∀ {id r}, T.tables.reservations.get? id = some r → now.used id
  spent : ∀ {u}, now.used u → T.spent u
  own : ∀ a ∈ T.attempts, ∀ u ∈ a.ids, T.spent u ∧ ¬ now.used u
  apart : (T.attempts.flatMap (·.ids)).Nodup
  follows : ∀ a ∈ T.attempts, a.Follows settings now

namespace Traffic

variable {settings : Settings}

section steps

variable {t : Tables} {spent : Ulid → Prop} {before after : List Attempt} {a b : Attempt}
  {now : Moment}

theorem Sound.move {spent' : Ulid → Prop} (hs : Sound settings ⟨t, spent, before ++ a :: after⟩ now)
    (hspent : ∀ {u}, spent u → spent' u) (ids : List Ulid) (hids : b.ids = a.ids ++ ids)
    (nodup : ids.Nodup) (fresh : ∀ u ∈ ids, ¬ spent u ∧ spent' u)
    (follows : b.Follows settings now) :
    Sound settings ⟨t, spent', before ++ b :: after⟩ now := by
  have own := List.forall_mem_append.1 hs.own
  have own' := List.forall_mem_cons.1 own.2
  have others := List.forall_mem_append.1 hs.follows
  refine ⟨hs.tables, hs.reservation_used, fun hu => hspent (hs.spent hu), ?_, ?_, ?_⟩
  · refine List.forall_mem_append.2 ⟨?_, List.forall_mem_cons.2 ⟨?_, ?_⟩⟩
    · exact fun c hc u hu => ⟨hspent (own.1 c hc u hu).1, (own.1 c hc u hu).2⟩
    · rw [hids]
      refine List.forall_mem_append.2 ⟨fun u hu => ?_, fun u hu => ?_⟩
      · exact ⟨hspent (own'.1 u hu).1, (own'.1 u hu).2⟩
      · exact ⟨(fresh u hu).2, fun hused => (fresh u hu).1 (hs.spent hused)⟩
    · exact fun c hc u hu => ⟨hspent (own'.2 c hc u hu).1, (own'.2 c hc u hu).2⟩
  · have perm : ((before ++ b :: after).flatMap (·.ids)).Perm
        ((before ++ a :: after).flatMap (·.ids) ++ ids) := by
      simp only [List.flatMap_append, List.flatMap_cons, hids, List.append_assoc]
      exact (List.perm_append_comm.append_left _).append_left _
    refine perm.nodup_iff.2 (List.nodup_append.2 ⟨hs.apart, nodup, fun u hu v hv h => ?_⟩)
    obtain ⟨c, hc, hu⟩ := List.mem_flatMap.1 hu
    exact (fresh v hv).1 (h ▸ (hs.own c hc u hu).1)
  · exact List.forall_mem_append.2
      ⟨others.1, List.forall_mem_cons.2 ⟨follows, (List.forall_mem_cons.1 others.2).2⟩⟩

theorem Sound.leave (hs : Sound settings ⟨t, spent, before ++ a :: after⟩ now) :
    Sound settings ⟨t, spent, before ++ after⟩ now := by
  have rest : (before ++ after).Sublist (before ++ a :: after) :=
    (List.sublist_cons_self a after).append_left before
  exact ⟨hs.tables, hs.reservation_used, hs.spent, fun b hb => hs.own b (rest.subset hb),
    hs.apart.sublist (rest.flatMap _), fun b hb => hs.follows b (rest.subset hb)⟩

theorem Sound.commit {ctx : Context} {op : Operation} {ids : List Ulid} {txn : Txn}
    (hs : Sound settings ⟨t, spent, before ++ ⟨ctx, op, ids, .done (.ok txn)⟩ :: after⟩ now)
    (accepted : t.refusal? txn = none) (writes : txn ≠ []) :
    ∃ now', Later now now' ∧
      Sound settings ⟨t.apply txn.writes, spent, before ++ after⟩ now' := by
  obtain rfl : now.tables = t := hs.tables
  have own := (List.forall_mem_cons.1 (List.forall_mem_append.1 hs.own).2).1
  have follows := (List.forall_mem_cons.1 (List.forall_mem_append.1 hs.follows).2).1
  have transition := follows.transition writes accepted
  have hok := Tables.refusal?_eq_none.1 accepted
  have later := transition.later_commit hok fun u hu => (own u hu).2
  have left := hs.leave
  refine ⟨_, later, rfl, fun {id r} hr => ?_, fun {u} hu => ?_, fun b hb u hu => ?_, left.apart,
    fun b hb => (left.follows b hb).later later⟩
  · cases old : now.tables.reservations.get? id with
    | some r => exact .inl (hs.reservation_used old)
    | none =>
      have hid := (transition.linked now.linked hok).reservation_id hr
      obtain ⟨b, hb, row⟩ := transition.inserts now.linked hok hr old
      have drawn := (transition.of_insertReservation hb).1
      rw [row] at hid
      exact .inr (hid ▸ drawn)
  · exact hu.elim hs.spent fun hu => (own u hu).1
  · have perm : ((before ++ ⟨ctx, op, ids, .done (.ok txn)⟩ :: after).flatMap (·.ids)).Perm
        (ids ++ (before ++ after).flatMap (·.ids)) := List.perm_middle.flatMap_right _
    obtain ⟨-, -, disjoint⟩ := List.nodup_append.1 (perm.nodup_iff.1 hs.apart)
    refine ⟨(left.own b hb u hu).1, fun hused => hused.elim (left.own b hb u hu).2 fun hmem => ?_⟩
    exact disjoint u hmem u (List.mem_flatMap.2 ⟨b, hb, hu⟩) rfl

end steps

theorem Step.sound {T T' : Traffic} {now : Moment} (h : Step settings T T')
    (hs : T.Sound settings now) : ∃ now', Later now now' ∧ T'.Sound settings now' := by
  cases h with
  | start ctx op =>
    refine ⟨now, .refl now, hs.tables, hs.reservation_used, hs.spent, ?_, hs.apart, ?_⟩
    · exact List.forall_mem_cons.2 ⟨fun u hu => absurd hu List.not_mem_nil, hs.own⟩
    · exact List.forall_mem_cons.2 ⟨.start, hs.follows⟩
  | ask =>
    have follows := (List.forall_mem_cons.1 (List.forall_mem_append.1 hs.follows).2).1.ask
    rw [hs.tables] at follows
    exact ⟨now, .refl now, hs.move id [] (List.append_nil _).symm .nil
      (fun u hu => absurd hu List.not_mem_nil) follows⟩
  | @draw _ _ _ _ _ _ _ _ u fresh =>
    have follows := (List.forall_mem_cons.1 (List.forall_mem_append.1 hs.follows).2).1.draw u
    exact ⟨now, .refl now, hs.move .inr [u] rfl (List.nodup_singleton u)
      (List.forall_mem_singleton.2 ⟨fresh, .inl rfl⟩) follows⟩
  | @commit _ _ _ _ _ _ _ txn accepted =>
    cases txn with
    | nil => exact ⟨now, .refl now, hs.leave⟩
    | cons c txn => exact hs.commit accepted (List.cons_ne_nil c txn)
  | leave => exact ⟨now, .refl now, hs.leave⟩

theorem Steps.sound {T T' : Traffic} {now : Moment} (h : Steps settings T T')
    (hs : T.Sound settings now) : ∃ now', Later now now' ∧ T'.Sound settings now' := by
  induction h with
  | refl => exact ⟨now, .refl now, hs⟩
  | tail _ step ih =>
    obtain ⟨now₁, later₁, hs₁⟩ := ih
    obtain ⟨now₂, later₂, hs₂⟩ := step.sound hs₁
    exact ⟨now₂, later₁.trans later₂, hs₂⟩

theorem Reachable.sound {T : Traffic} (h : Reachable settings T) : ∃ now, T.Sound settings now := by
  induction h with
  | @rest e cs spent reachable lacks =>
    have row {u : Ulid} (h : ¬ e.tables.Lacks u) : spent u :=
      Classical.byContradiction fun hu => h (lacks u hu)
    let now : Moment := {
      tables := e.tables, used := spent, linked := reachable.linked
      parking_used := fun hp => row fun h => by cases h.1.symm.trans hp
      sector_used := fun hs => row fun h => by cases h.2.1.symm.trans hs }
    refine ⟨now, rfl, fun hr => row fun h => ?_, fun hu => hu, ?_, .nil, ?_⟩
    · cases h.2.2.symm.trans hr
    · exact fun a ha => absurd ha List.not_mem_nil
    · exact fun a ha => absurd ha List.not_mem_nil
  | step _ step ih =>
    obtain ⟨now, sound⟩ := ih
    obtain ⟨now', -, sound'⟩ := step.sound sound
    exact ⟨now', sound'⟩

/-! ### Alone -/

section alone

variable {T : Traffic} {a : Attempt} {txn : Txn} {now : Moment}

theorem Sound.transition (hs : T.Sound settings now) (ha : a ∈ T.attempts)
    (through : a.rest = .done (.ok txn)) (writes : txn ≠ [])
    (accepted : T.tables.refusal? txn = none) :
    Transition settings a.ctx T.tables a.op a.ids txn := by
  rw [← hs.tables] at accepted ⊢
  obtain ⟨ctx, op, ids, rest⟩ := a
  cases through
  exact (hs.follows _ ha).transition writes accepted

theorem Sound.lacks (hs : T.Sound settings now) (ha : a ∈ T.attempts) {u : Ulid}
    (hu : u ∈ a.ids) : T.tables.Lacks u := by
  have unused := (hs.own a ha u hu).2
  refine ⟨?_, ?_, ?_⟩
  · rw [← hs.tables]
    exact Option.eq_none_iff_forall_ne_some.2 fun p hp => unused (now.parking_used hp)
  · rw [← hs.tables]
    exact Option.eq_none_iff_forall_ne_some.2 fun s hs' => unused (now.sector_used hs')
  · exact Option.eq_none_iff_forall_ne_some.2 fun r hr => unused (hs.reservation_used hr)

/-- An attempt whose commit is accepted does what its operation does alone at that instant, up to
fresh identifiers. -/
theorem Reachable.commit_alone (h : Reachable settings T) (ha : a ∈ T.attempts)
    (through : a.rest = .done (.ok txn)) (writes : txn ≠ [])
    (accepted : T.tables.refusal? txn = none) :
    ((∀ parking anonymous, a.op ≠ .driveIn parking anonymous) →
      ∀ e : Engine, e.tables = T.tables →
        (∀ i < a.ids.length, T.tables.Lacks (e.supply (e.drawn + i))) →
        ∃ answer commit, (e.run (a.op.program settings a.ctx)).answer = .ok answer ∧
          (e.run (a.op.program settings a.ctx)).engine.tables = T.tables.apply commit ∧
          e.logged [] (a.op.program settings a.ctx) = [commit] ∧
          List.Forall₂ (Write.Renewed a.ids
            (Reading.drawn e.supply e.drawn (e.drawn + a.ids.length))) txn.writes commit) ∧
    ∀ parking anonymous, a.op = .driveIn parking anonymous →
      ∃ p s rest, T.tables.parkings.get? parking = some p ∧ s.id ∈ p.sectors ∧
        T.tables.sectors.get? s.id = some s ∧ s.isActiveAt a.ctx.now = true ∧
        0 < s.availablePlaces ∧
        txn = .updateSector { s with availablePlaces := s.availablePlaces - 1 } :: rest := by
  obtain ⟨now, sound⟩ := h.sound
  have transition := sound.transition ha through writes accepted
  constructor
  · intro hop e he fresh
    have linked : T.tables.Linked := sound.tables ▸ now.linked
    have nodup : a.ids.Nodup := (List.nodup_flatMap.1 sound.apart).1 a ha
    have fresh' : ∀ u ∈ Reading.drawn e.supply e.drawn (e.drawn + a.ids.length),
        T.tables.Lacks u := by
      simpa [Reading.drawn, List.mem_range'] using fresh
    obtain ⟨txn', transition', hok, renewed⟩ := transition.renew linked
      (Tables.refusal?_eq_none.1 accepted) hop nodup (fun _ hu => sound.lacks ha hu)
      (by simp [Reading.drawn]) fresh'
    rw [← he] at transition' hok
    obtain ⟨⟨answer, succeeds⟩, tables, logged⟩ := Engine.run_transition transition' hop hok (by
      simp +contextual [Reading.drawn, List.getElem?_eq_some_iff])
    exact ⟨answer, txn'.writes, succeeds, he ▸ tables, logged, renewed⟩
  · intro parking anonymous hop
    rw [hop] at transition
    generalize a.ids = ids at transition
    cases transition with
    | @driveIn _ _ _ _ _ p s _ hp listed hs taken =>
      obtain ⟨takes, rfl⟩ := Sector.takePlace_eq_ok.1 taken
      exact ⟨p, s, _, hp, listed, hs, (Bool.and_eq_true _ _ ▸ takes).1, Sector.canTake_pos takes,
        rfl⟩

set_option maxRecDepth 10000 in
theorem commit_alone_oneCar :
    ∃ (T : Traffic) (a b : Attempt) (e : Engine), Reachable {} T ∧ T.attempts = [b, a] ∧
      a.op = .addSector (.ofNat 1) ⟨"AB-02", .covered, 2, 1⟩ ∧ b.op = .driveIn (.ofNat 1) true ∧
      e.tables = T.tables ∧
      (∃ answer, (e.run (a.op.program {} a.ctx)).answer = .ok answer) ∧
      ∃ p s, T.tables.parkings.get? (.ofNat 1) = some p ∧ s.id ∈ p.sectors ∧
        T.tables.sectors.get? s.id = some s ∧ 0 < s.availablePlaces := by
  let oneCar : Engine := .oneCar
  obtain ⟨cs, reachable⟩ : ∃ cs, oneCar.Reachable cs := (Engine.Reachable.fresh _ _ _ _).serve _
  obtain ⟨spent, bound, first⟩ := ((Reachable.of_engine {} reachable).step (.start ⟨.system, 0⟩
    (.addSector (.ofNat 1) ⟨"AB-02", .covered, 2, 1⟩))).through .ofNat 9 (by decide) (by decide)
  obtain ⟨spent', -, second⟩ := (first.step (.start ⟨.anonymous, 0⟩
    (.driveIn (.ofNat 1) true))).through .ofNat 10 (by decide) (by
      have fresh : ∀ n ∈ [10, 11, 12],
          oneCar.tables.Lacks (.ofNat n) ∧ Ulid.ofNat n ≠ .ofNat 9 := by
        decide
      refine List.forall_mem_map.2 fun n hn hspent => ?_
      obtain ⟨lacks, apart⟩ := fresh n hn
      rcases bound _ hspent with h | h
      · exact h lacks
      · exact apart (List.mem_singleton.1 h))
  refine ⟨_, _, _, oneCar, second, rfl, rfl, rfl, rfl, ?_, ?_⟩
  · have fresh : ∀ i < 1, oneCar.tables.Lacks (oneCar.supply (oneCar.drawn + i)) := by decide
    obtain ⟨answer, -, succeeds, -⟩ := (second.commit_alone (.tail _ (.head _)) rfl (by decide)
      (show oneCar.tables.refusal? _ = none by decide)).1 (by simp) oneCar rfl fresh
    exact ⟨answer, succeeds⟩
  · obtain ⟨p, s, _, hp, listed, hs, -, free, -⟩ := (second.commit_alone (.head _) rfl (by decide)
      (show oneCar.tables.refusal? _ = none by decide)).2 _ _ rfl
    exact ⟨p, s, hp, listed, hs, free⟩

end alone

end Traffic

end Carpark
