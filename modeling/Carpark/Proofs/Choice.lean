import Carpark.Proofs.Ledger
import Mathlib.Algebra.Order.Field.Rat
import Mathlib.Data.List.Induction
import Mathlib.Data.Nat.Cast.Order.Field
import Mathlib.Tactic.NormNum

/-!
Which sector a car without a booking is given: of those that can take it, the first one with the
least score.
-/

namespace Carpark

namespace Policy

/-- What a policy goes by; the least is the best. -/
def score : Policy → Sector → ℚ
  | .leastOccupied, s => s.occupied
  | .mostOccupied, s => -s.occupied
  | .leastOccupiedWeighted, s => s.occupied / s.weight

/-- Among these sectors, in this order, `s` is the first one of the best that can take a car. -/
structure FirstBest (p : Policy) (now : Ms) (before : List Sector) (s : Sector)
    (after : List Sector) : Prop where
  canTake : s.canTake now = true
  before : ∀ x ∈ before, x.canTake now = true → p.score s < p.score x
  after : ∀ x ∈ after, x.canTake now = true → p.score s ≤ p.score x

variable {p : Policy} {now : Ms} {ss : List Sector} {s a b : Sector}

theorem beats_iff (ha : 0 < a.weight) (hb : 0 < b.weight) :
    p.beats a b = true ↔ p.score a < p.score b := by
  cases p with
  | leastOccupied => simp [beats, score]
  | mostOccupied => simp [beats, score]
  | leastOccupiedWeighted =>
    have ha : (0 : ℚ) < a.weight := Nat.cast_pos.2 ha
    have hb : (0 : ℚ) < b.weight := Nat.cast_pos.2 hb
    rw [beats, score, score, decide_eq_true_iff, div_lt_div_iff₀ ha hb]
    norm_cast

theorem toNat_occupied_mul (ha : a.maxPlaces < 2 ^ 32) (hb : b.weight < 2 ^ 32) :
    (UInt64.ofNat a.occupied * UInt64.ofNat b.weight).toNat = a.occupied * b.weight := by
  have occupied : a.occupied < 2 ^ 32 := Nat.lt_of_le_of_lt (Nat.sub_le _ _) ha
  have product : a.occupied * b.weight < 2 ^ 64 := calc
    a.occupied * b.weight < 2 ^ 32 * 2 ^ 32 := Nat.mul_lt_mul'' occupied hb
    _ = 2 ^ 64 := by decide
  have word {n : Nat} (h : n < 2 ^ 32) : (UInt64.ofNat n).toNat = n :=
    UInt64.toNat_ofNat_of_lt' (h.trans (by decide))
  rw [UInt64.toNat_mul, word occupied, word hb, Nat.mod_eq_of_lt product]

/-! ### The last sector of the list -/

theorem choose_concat (p : Policy) (now : Ms) (ss : List Sector) (s : Sector) :
    p.choose now (ss ++ [s]) =
      if s.canTake now then
        match p.choose now ss with
        | none => some s
        | some b => if p.beats s b then some s else some b
      else p.choose now ss := by
  simp only [choose, List.filter_append, List.foldl_append]
  cases h : s.canTake now with
  | false => simp [h]
  | true =>
    simp only [h, List.filter_cons_of_pos, List.filter_nil]
    rfl

theorem FirstBest.concat {before after : List Sector} (h : p.FirstBest now before b after)
    (hs : s.canTake now = true → p.score b ≤ p.score s) :
    p.FirstBest now before b (after ++ [s]) where
  canTake := h.canTake
  before := h.before
  after x hx := by
    rcases List.mem_append.1 hx with hx | hx
    · exact h.after x hx
    · cases List.mem_singleton.1 hx
      exact hs

theorem FirstBest.beaten {before after : List Sector} (h : p.FirstBest now before b after)
    (hs : s.canTake now = true) (better : p.score s < p.score b) :
    p.FirstBest now (before ++ b :: after) s [] where
  canTake := hs
  before x hx can := by
    rcases List.mem_append.1 hx with hx | hx
    · exact better.trans (h.before x hx can)
    · rcases List.mem_cons.1 hx with rfl | hx
      · exact better
      · exact better.trans_le (h.after x hx can)
  after := List.forall_mem_nil _

theorem FirstBest.unique {before after before' after' : List Sector}
    (h : p.FirstBest now before a after) (h' : p.FirstBest now before' b after')
    (same : before ++ a :: after = before' ++ b :: after') : a = b := by
  -- of two that stand apart the later one would be both better than the other and no better
  have apart {before after before' after' : List Sector} {a b : Sector}
      (h : p.FirstBest now before a after) (h' : p.FirstBest now before' b after')
      (ha : a ∈ before') (hb : b ∈ after) : False :=
    absurd (h.after b hb h'.canTake) (not_le.2 (h'.before a ha h.canTake))
  rcases List.append_eq_append_iff.1 same with ⟨m, rfl, hm⟩ | ⟨m, rfl, hm⟩
  · cases m with
    | nil => exact (List.cons.inj hm).1
    | cons c m =>
      obtain ⟨rfl, rfl⟩ := List.cons.inj hm
      exact (apart h h' (by simp) (by simp)).elim
  · cases m with
    | nil => exact (List.cons.inj hm).1.symm
    | cons c m =>
      obtain ⟨rfl, rfl⟩ := List.cons.inj hm
      exact (apart h' h (by simp) (by simp)).elim

/-! ### Any list -/

theorem exists_firstBest (p : Policy) (now : Ms) (ss : List Sector)
    (weights : ∀ s ∈ ss, 0 < s.weight) :
    (p.choose now ss = none ∧ ∀ s ∈ ss, s.canTake now = false) ∨
      ∃ before s after, ss = before ++ s :: after ∧ p.choose now ss = some s ∧
        p.FirstBest now before s after := by
  induction ss using List.reverseRecOn with
  | nil => exact .inl ⟨rfl, List.forall_mem_nil _⟩
  | append_singleton ss s ih =>
    obtain ⟨weights, weight⟩ := List.forall_mem_append.1 weights
    have weight : 0 < s.weight := weight s List.mem_cons_self
    rw [choose_concat]
    rcases ih weights with ⟨none, cannot⟩ | ⟨before, b, after, rfl, best, first⟩
    · cases can : s.canTake now with
      | false =>
        refine .inl ⟨none, List.forall_mem_append.2 ⟨cannot, ?_⟩⟩
        simpa using can
      | true =>
        refine .inr ⟨ss, s, [], rfl, by simp [none], can, fun x hx can => ?_, List.forall_mem_nil _⟩
        exact absurd can (Bool.eq_false_iff.1 (cannot x hx))
    · have beats := beats_iff (p := p) weight (weights b (by simp))
      cases can : s.canTake now with
      | false => exact .inr ⟨before, b, after ++ [s], by simp, best, first.concat (by simp [can])⟩
      | true =>
        simp only [best, if_true]
        by_cases better : p.score s < p.score b
        · exact .inr ⟨before ++ b :: after, s, [], rfl, by rw [if_pos (beats.2 better)],
            first.beaten can better⟩
        · exact .inr ⟨before, b, after ++ [s], by simp, by rw [if_neg (better ∘ beats.1)],
            first.concat fun _ => not_lt.1 better⟩

/-- A policy chooses the first of the sectors with the least score that can take a car. -/
theorem choose_first_best (p : Policy) (now : Ms) {ss : List Sector}
    (weights : ∀ s ∈ ss, 0 < s.weight) :
    (p.choose now ss = none ↔ ∀ s ∈ ss, ¬ (s.isActiveAt now = true ∧ 0 < s.availablePlaces)) ∧
    (∀ s, p.choose now ss = some s ↔
      ∃ before after, ss = before ++ s :: after ∧ p.FirstBest now before s after) ∧
    (∀ s, p.choose now ss = some s →
      s.takePlace now = .ok { s with availablePlaces := s.availablePlaces - 1 }) ∧
    (∀ ss' : List Sector, ss'.filter (·.canTake now) = ss.filter (·.canTake now) →
      p.choose now ss' = p.choose now ss) ∧
    ∀ a ∈ ss, ∀ b ∈ ss, a.maxPlaces < 2 ^ 32 → b.weight < 2 ^ 32 →
      (UInt64.ofNat a.occupied * UInt64.ofNat b.weight).toNat = a.occupied * b.weight := by
  have canTake (s : Sector) :
      s.canTake now = false ↔ ¬ (s.isActiveAt now = true ∧ 0 < s.availablePlaces) := by
    simp [Sector.canTake]
  have found := exists_firstBest p now ss weights
  refine ⟨?_, fun s => ⟨fun chosen => ?_, ?_⟩, fun s chosen => ?_, fun ss' same => ?_,
    fun a _ b _ => toNat_occupied_mul⟩
  · simp only [← canTake]
    rcases found with ⟨none, cannot⟩ | ⟨before, s, after, rfl, chosen, first⟩
    · exact iff_of_true none cannot
    · refine iff_of_false (by simp [chosen]) fun cannot => ?_
      exact absurd first.canTake (Bool.eq_false_iff.1 (cannot s (by simp)))
  · rcases found with ⟨none, -⟩ | ⟨before, b, after, split, chosen', first⟩
    · cases none.symm.trans chosen
    · cases chosen'.symm.trans chosen
      exact ⟨before, after, split, first⟩
  · rintro ⟨before, after, rfl, first⟩
    rcases found with ⟨-, cannot⟩ | ⟨before', b, after', split, chosen, first'⟩
    · exact absurd first.canTake (Bool.eq_false_iff.1 (cannot s (by simp)))
    · rw [chosen, first.unique first' split]
  · rcases found with ⟨none, -⟩ | ⟨before, b, after, -, chosen', first⟩
    · cases none.symm.trans chosen
    · cases chosen'.symm.trans chosen
      exact Sector.takePlace_eq_ok.2 ⟨first.canTake, rfl⟩
  · rw [choose, same, choose]

theorem choose_first_best_weighted :
    let sector (places weight : Nat) (deactivation : Option Ms) : Sector :=
      ⟨.ofNat 2, .ofNat 1, "AB-01", .covered, 10, places, weight, true, deactivation, 1⟩
    let ss := [sector 10 1 (some 100), sector 0 9 none, sector 8 1 none, sector 6 4 (some 101),
      sector 9 1 none]
    (∀ s ∈ ss, 0 < s.weight) ∧
      leastOccupiedWeighted.choose 100 ss = some (sector 6 4 (some 101)) ∧
      ∃ before after, ss = before ++ sector 6 4 (some 101) :: after ∧
        leastOccupiedWeighted.FirstBest 100 before (sector 6 4 (some 101)) after := by
  intro sector ss
  have weights : ∀ s ∈ ss, 0 < s.weight := by decide
  have chosen : leastOccupiedWeighted.choose 100 ss = some (sector 6 4 (some 101)) := by decide
  exact ⟨weights, chosen, ((choose_first_best leastOccupiedWeighted 100 weights).2.1 _).1 chosen⟩

end Policy

end Carpark
