import Carpark.Engine.Ledger

/-!
What taking and freeing a place does to a sector, and which sector a car is given.
-/

namespace Carpark

namespace Sector

theorem takePlace_eq_ok {s s' : Sector} {now : Ms} :
    s.takePlace now = .ok s' ↔
      s.canTake now = true ∧ s' = { s with availablePlaces := s.availablePlaces - 1 } := by
  simp only [takePlace]
  split
  next h => simp [h, eq_comm]
  next h => simp [h]

theorem freePlace_eq_ok {s s' : Sector} :
    s.freePlace = .ok s' ↔ s.availablePlaces < s.maxPlaces ∧
      s' = { s with availablePlaces := s.availablePlaces + 1 } := by
  simp only [freePlace]
  split
  next h => simp [Nat.not_lt.2 h]
  next h => simp [Nat.not_le.1 h, eq_comm]

theorem canTake_pos {s : Sector} {now : Ms} (h : s.canTake now = true) : 0 < s.availablePlaces := by
  simp only [canTake, Bool.and_eq_true, decide_eq_true_eq] at h
  exact h.2

end Sector

theorem Policy.mem_of_choose {p : Policy} {now : Ms} {ss : List Sector} {s : Sector}
    (h : p.choose now ss = some s) : s ∈ ss := by
  have chosen : ∀ b, p.choose now ss = some b → b ∈ ss.filter (·.canTake now) := by
    refine List.foldlRecOn (motive := fun best => ∀ b, best = some b → b ∈ _) _ _ ?_ ?_
    · intro b hb
      cases hb
    · intro best hbest a ha b hb
      cases best with
      | none =>
        cases hb
        exact ha
      | some c =>
        simp only at hb
        split at hb
        next =>
          cases hb
          exact ha
        next => exact hbest b hb
  exact (List.mem_filter.1 (chosen s h)).1

end Carpark
