import Carpark.Proofs.Attempt
import Carpark.Proofs.Tries

/-!
Wherever an operation can make a transition it does so when it runs there alone. A drive-in alone
follows the policy of the parking, so nothing is said of one.
-/

namespace Carpark

open Lookup

variable {t : Tables}

theorem Lookup.sees_txn_of {σ α : Type} {view : σ → Tables} {next : σ → σ → Prop}
    {a : Lookup (Plan α)} {m m' : σ} {ids : List Ulid} {txn : Txn} {answer : α}
    (h : Sees view next a m ids ⟨txn, answer⟩ m') : Sees view next a.txn m ids txn m' :=
  sees_txn.2 ⟨answer, h⟩

theorem Registry.seesUnused_alone {ss : List Sector} (h : ∀ s ∈ ss, t.hasHistory s.id = false) :
    SeesUnused id Eq t ss t := by
  induction ss with
  | nil => exact .nil t
  | cons s ss ih =>
    exact .cons rfl (h s List.mem_cons_self) (ih fun s hs => h s (List.mem_cons_of_mem _ hs))

namespace Transition

variable {settings : Settings} {ctx : Context} {op : Operation} {ids : List Ulid} {txn : Txn}

theorem sees_alone (h : Transition settings ctx t op ids txn)
    (hop : ∀ parking anonymous, op ≠ .driveIn parking anonymous) :
    Sees id Eq (op.staging settings ctx) t ids txn t := by
  cases h with
  | createParking admin valid =>
    apply sees_txn_of
    simp only [Registry.createAttempt, sees_lift_bind, sees_draw_bind, sees_pure]
    exact ⟨(), admin, (), valid, _, [], rfl, rfl, rfl, trivial⟩
  | updateParking admin valid hp current =>
    apply sees_txn_of
    simp only [Registry.updateAttempt, sees_lift_bind, sees_parking_bind, sees_pure]
    exact ⟨(), admin, (), valid, _, t, ⟨rfl, hp⟩, (), current, rfl, trivial, rfl⟩
  | @deleteParking id _ p admin hp current unused =>
    apply sees_txn_of
    simp only [Registry.deleteAttempt, sees_lift_bind, sees_parking_bind, sees_sectorsOf_bind]
    refine ⟨(), admin, p, t, ⟨rfl, hp⟩, (), current, _, t, seesRows_alone _ t _, ?_⟩
    have rest := Registry.sees_used.2 ⟨Registry.seesUnused_alone unused, rfl⟩
    exact sees_bind.2 ⟨_, t, [], [], rfl, rest, sees_pure.2 ⟨rfl, rfl, rfl⟩⟩
  | addSector admin valid hp room free =>
    apply sees_txn_of
    simp only [Registry.addSectorAttempt, sees_lift_bind, sees_parking_bind, sees_guard,
      Registry.sees_requireFreeName_bind, sees_draw_bind, sees_pure]
    exact ⟨(), admin, (), valid, _, t, ⟨rfl, hp⟩, Nat.not_le_of_lt room, _, t,
      ⟨seesRows_alone _ t _, free⟩, _, [], rfl, rfl, rfl, rfl⟩
  | updateSector admin valid hs current frozen fits same =>
    apply sees_txn_of
    simp only [Registry.updateSectorAttempt, sees_lift_bind, sees_sector_bind, sees_guard]
    refine ⟨(), admin, (), valid, _, t, ⟨rfl, hs⟩, (), current, Bool.eq_false_iff.1 frozen,
      Nat.not_lt_of_le fits, ?_⟩
    rw [if_pos same]
    exact sees_pure.2 ⟨rfl, rfl, rfl⟩
  | renameSector admin valid hs current frozen fits changes hp free =>
    apply sees_txn_of
    simp only [Registry.updateSectorAttempt, sees_lift_bind, sees_sector_bind, sees_guard]
    refine ⟨(), admin, (), valid, _, t, ⟨rfl, hs⟩, (), current, Bool.eq_false_iff.1 frozen,
      Nat.not_lt_of_le fits, ?_⟩
    rw [if_neg changes]
    simp only [sees_parking_bind, Registry.sees_requireFreeName_bind]
    exact ⟨_, t, ⟨rfl, hp⟩, _, t, ⟨seesRows_alone _ t _, free⟩, sees_pure.2 ⟨rfl, rfl, rfl⟩⟩
  | activateSector admin hs current inactive =>
    apply sees_txn_of
    simp only [Registry.activateAttempt, sees_lift_bind, sees_sector_bind, sees_guard, sees_pure]
    exact ⟨(), admin, _, t, ⟨rfl, hs⟩, (), current, Bool.eq_false_iff.1 inactive, rfl,
      trivial, rfl⟩
  | deactivateSector admin hs current begun bounded active =>
    apply sees_txn_of
    simp only [Registry.deactivateAttempt, sees_lift_bind, sees_sector_bind, sees_guard,
      sees_pure]
    exact ⟨(), admin, _, t, ⟨rfl, hs⟩, (), current, Int.not_lt.2 begun, Int.not_lt.2 bounded,
      by simpa using active, rfl, trivial, rfl⟩
  | deleteSector admin hs current unused hp =>
    apply sees_txn_of
    simp only [Registry.deleteSectorAttempt, sees_lift_bind, sees_sector_bind,
      sees_hasHistory_bind, sees_guard, sees_parking_bind, sees_pure]
    exact ⟨(), admin, _, t, ⟨rfl, hs⟩, (), current, t, rfl, Bool.eq_false_iff.1 unused, _, t,
      ⟨rfl, hp⟩, rfl, trivial, rfl⟩
  | finalize admin hs lapsed =>
    apply sees_txn_of
    simp only [Registry.finalizeAttempt, sees_lift_bind]
    refine ⟨(), admin, sees_ask_bind.2 ⟨t, rfl, ?_⟩⟩
    rw [show (id t).answer (.sector _) = some _ from hs]
    simp only [lapsed, if_true]
    exact sees_pure.2 ⟨rfl, rfl, rfl⟩
  | book request hs admits room =>
    refine sees_lift_bind.2 ⟨_, request, ?_⟩
    apply sees_txn_of
    simp only [Booking.makeAttempt, sees_sector_bind, sees_guard, sees_reservationsOfSector_bind,
      sees_draw_bind, sees_pure]
    exact ⟨_, t, ⟨rfl, hs⟩, by simpa using admits, t, rfl, _, t, seesRows_alone _ t _,
      Nat.not_le_of_lt room, _, [], rfl, rfl, rfl, rfl⟩
  | cancel hr owner created outside =>
    apply sees_txn_of
    simp only [Booking.cancelAttempt, sees_reservation_bind, sees_lift_bind, sees_guard,
      sees_events_bind, sees_pure]
    exact ⟨_, t, ⟨rfl, hr⟩, (), owner, not_not_intro created, t, rfl, Bool.eq_false_iff.1 outside,
      rfl, trivial, rfl⟩
  | enter hr owner created outside begun notOver hs taken =>
    apply sees_txn_of
    simp only [Gate.enterAttempt, sees_reservation_bind, sees_lift_bind, sees_guard,
      sees_events_bind, sees_sector_bind, sees_draw_bind, sees_pure]
    exact ⟨_, t, ⟨rfl, hr⟩, (), owner, not_not_intro created, t, rfl, Bool.eq_false_iff.1 outside,
      Int.not_lt.2 begun, Int.not_lt.2 notOver, _, t, ⟨rfl, hs⟩, _, taken, _, _, rfl, _, [], rfl,
      rfl, rfl, rfl⟩
  | driveIn => exact absurd rfl (hop _ _)
  | exit hr allowed created inside hs freed =>
    apply sees_txn_of
    simp only [Gate.exitAttempt, sees_reservation_bind, sees_lift_bind, sees_guard,
      sees_events_bind, sees_sector_bind, sees_draw_bind, sees_pure]
    exact ⟨_, t, ⟨rfl, hr⟩, (), allowed, not_not_intro created, t, rfl, by simpa using inside, _, t,
      ⟨rfl, hs⟩, _, freed, _, [], rfl, rfl, rfl, rfl⟩
  | expire admin hr due =>
    refine sees_lift_bind.2 ⟨(), admin, ?_⟩
    apply sees_txn_of
    refine sees_ask_bind.2 ⟨t, rfl, ?_⟩
    rw [show (id t).answer (.reservation _) = some _ from hr]
    refine sees_events_bind.2 ⟨t, rfl, ?_⟩
    simp only [due, id_eq, if_true]
    exact sees_pure.2 ⟨rfl, rfl, rfl⟩
  | forceExit admin hr due hs freed =>
    refine sees_lift_bind.2 ⟨(), admin, ?_⟩
    apply sees_txn_of
    refine sees_ask_bind.2 ⟨t, rfl, ?_⟩
    rw [show (id t).answer (.reservation _) = some _ from hr]
    refine sees_events_bind.2 ⟨t, rfl, ?_⟩
    simp only [due, id_eq, if_true, sees_sector_bind, sees_lift_bind, sees_draw_bind, sees_pure]
    exact ⟨_, t, ⟨rfl, hs⟩, _, freed, _, [], rfl, rfl, rfl, rfl⟩
  | close admin hr due =>
    refine sees_lift_bind.2 ⟨(), admin, ?_⟩
    apply sees_txn_of
    refine sees_ask_bind.2 ⟨t, rfl, ?_⟩
    rw [show (id t).answer (.reservation _) = some _ from hr]
    refine sees_events_bind.2 ⟨t, rfl, ?_⟩
    simp only [due, id_eq, if_true]
    exact sees_pure.2 ⟨rfl, rfl, rfl⟩

theorem isEmpty (h : Transition settings ctx t op ids txn) : txn.isEmpty = false := by
  cases h with
  | deleteParking => simp [Txn.isEmpty, Txn.writes, Change.write?]
  | _ => rfl

end Transition

/-- An operation that can make a transition, and draws the same identifiers, makes it at once. -/
theorem Engine.run_transition {settings : Settings} {ctx : Context} {op : Operation}
    {ids : List Ulid} {txn : Txn} {e : Engine}
    (h : Transition settings ctx e.tables op ids txn)
    (hop : ∀ parking anonymous, op ≠ .driveIn parking anonymous)
    (hok : ∀ c ∈ txn, c.suits e.tables)
    (hids : ∀ i u, ids[i]? = some u → e.supply (e.drawn + i) = u) :
    (∃ answer, (e.run (op.program settings ctx)).answer = .ok answer) ∧
      (e.run (op.program settings ctx)).engine.tables = e.tables.apply txn.writes ∧
      e.logged [] (op.program settings ctx) = [txn.writes] := by
  have staged := Reading.eval_of_sees (h.sees_alone hop) e.supply e.drawn hids
  have accepted := Tables.refusal?_eq_none.2 hok
  obtain ⟨succeeds, tables, logged⟩ :=
    (Program.Tries.operation ctx op e []).of_accepted staged h.isEmpty accepted
  refine ⟨?_, tables, logged⟩
  cases answer : (e.run (op.program settings ctx)).answer with
  | ok a => exact ⟨a, rfl⟩
  | error f =>
    rw [answer] at succeeds
    cases succeeds

end Carpark
