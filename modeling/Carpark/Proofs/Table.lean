import Carpark.Store.Table

/-!
Tables as finite maps: what is found after a change, which rows there are, and how many of them
satisfy a predicate.
-/

namespace Carpark.Table

variable {κ α β : Type} [Key κ]

/-! ### Looking up -/

section DecidableEq

variable [DecidableEq κ]

theorem get?_insert (t : Table κ α) (k k' : κ) (a : α) :
    (t.insert k a).get? k' = if k' = k then some a else t.get? k' := by
  by_cases h : k' = k
  · subst h
    simp
  · simp [h, get?_insert_of_ne t a h]

theorem get?_erase (t : Table κ α) (k k' : κ) :
    (t.erase k).get? k' = if k' = k then none else t.get? k' := by
  by_cases h : k' = k
  · subst h
    simp
  · simp [h, get?_erase_of_ne t h]

theorem getList_push (t : Table κ (List β)) (k k' : κ) (b : β) :
    (t.push k b).getList k' = if k' = k then t.getList k ++ [b] else t.getList k' := by
  by_cases h : k' = k <;> simp [push, getList, get?_insert, h]

theorem getList_erase (t : Table κ (List β)) (k k' : κ) :
    (t.erase k).getList k' = if k' = k then [] else t.getList k' := by
  by_cases h : k' = k <;> simp [getList, get?_erase, h]

theorem get?_foldl_erase (t : Table κ α) (ks : List κ) (k : κ) :
    (ks.foldl erase t).get? k = if k ∈ ks then none else t.get? k := by
  induction ks generalizing t with
  | nil => simp
  | cons k' ks ih =>
    simp only [List.foldl_cons, ih, get?_erase, List.mem_cons]
    by_cases h : k = k' <;> simp [h]

theorem get?_of_erase {t : Table κ α} {k k' : κ} {a : α} (h : (t.erase k).get? k' = some a) :
    t.get? k' = some a := by
  rw [get?_erase] at h
  split at h
  · cases h
  · exact h

theorem get?_of_foldl_erase {t : Table κ α} {ks : List κ} {k : κ} {a : α}
    (h : (ks.foldl erase t).get? k = some a) : t.get? k = some a := by
  rw [get?_foldl_erase] at h
  split at h
  · cases h
  · exact h

theorem getList_foldl_erase (t : Table κ (List β)) (ks : List κ) (k : κ) :
    (ks.foldl erase t).getList k = if k ∈ ks then [] else t.getList k := by
  by_cases h : k ∈ ks <;> simp [getList, get?_foldl_erase, h]

theorem get?_foldl_insert {t : Table κ α} {key : α → κ} {l : List α}
    (hl : ∀ a ∈ l, t.get? (key a) = some a) (acc : Table κ α) (k : κ) :
    (l.foldl (fun acc a => acc.insert (key a) a) acc).get? k =
      if k ∈ l.map key then t.get? k else acc.get? k := by
  induction l generalizing acc with
  | nil => rfl
  | cons a l ih =>
    have ha := hl a List.mem_cons_self
    rw [List.foldl_cons, ih fun a' ha' => hl a' (List.mem_cons_of_mem _ ha')]
    by_cases hk : k = key a
    · subst hk
      simp [ha]
    · simp [get?_insert, hk]

theorem foldl_insert_eq {t : Table κ α} {key : α → κ} {l : List α}
    (hl : ∀ a ∈ l, t.get? (key a) = some a) (hall : ∀ k a, t.get? k = some a → a ∈ l ∧ key a = k) :
    l.foldl (fun acc a => acc.insert (key a) a) empty = t := by
  apply ext
  intro k
  rw [get?_foldl_insert hl]
  split
  next => rfl
  next hk =>
    cases hget : t.get? k with
    | none => rfl
    | some a =>
      obtain ⟨ha, rfl⟩ := hall k a hget
      exact absurd (List.mem_map_of_mem ha) hk

theorem erase_eq_self {t : Table κ α} {k : κ} (h : t.get? k = none) : t.erase k = t := by
  apply ext
  intro k'
  by_cases hk : k' = k <;> simp [get?_erase, hk, h]

end DecidableEq

/-! ### Rows -/

theorem mem_of_lookup {k : κ} {a : α} {l : List (κ × α)} (h : lookup k l = some a) :
    (k, a) ∈ l := by
  induction l with
  | nil => simp [lookup] at h
  | cons hd tl ih =>
    simp only [lookup] at h
    split at h
    · cases h
    next hlt =>
      split at h
      · exact List.mem_cons_of_mem _ (ih h)
      next hgt =>
        cases h
        rw [Key.connected hlt hgt]
        exact List.mem_cons_self

theorem lookup_of_mem {k : κ} {a : α} {l : List (κ × α)} (hl : l.Pairwise (·.1 < ·.1))
    (h : (k, a) ∈ l) : lookup k l = some a := by
  induction l with
  | nil => simp at h
  | cons hd tl ih =>
    have hcons := List.pairwise_cons.1 hl
    rcases List.mem_cons.1 h with h | h
    · subst h
      simp [lookup, Key.irrefl]
    · have hgt : hd.1 < k := hcons.1 _ h
      have hlt : ¬ k < hd.1 := fun hlt => Key.irrefl _ (Key.trans hlt hgt)
      simp [lookup, hgt, hlt, ih hcons.2 h]

theorem mem_entries {t : Table κ α} {k : κ} {a : α} : (k, a) ∈ t.entries ↔ t.get? k = some a :=
  ⟨lookup_of_mem t.sorted, mem_of_lookup⟩

theorem mem_values {t : Table κ α} {a : α} : a ∈ t.values ↔ ∃ k, t.get? k = some a := by
  simp only [values, List.mem_map]
  constructor
  · rintro ⟨⟨k, b⟩, h, rfl⟩
    exact ⟨k, mem_entries.1 h⟩
  · rintro ⟨k, h⟩
    exact ⟨(k, a), mem_entries.2 h, rfl⟩

theorem keys_nodup (t : Table κ α) : t.keys.Nodup := by
  refine List.pairwise_map.2 (t.sorted.imp fun h => ?_)
  exact Key.ne_of_lt h

theorem put_perm (k : κ) (a : α) (l : List (κ × α)) : (put k a l).Perm ((k, a) :: remove k l) := by
  induction l with
  | nil => exact .refl _
  | cons hd tl ih =>
    simp only [put, remove]
    split
    · exact .refl _
    · split
      · exact (ih.cons hd).trans (.swap _ _ _)
      · exact .refl _

theorem perm_remove {k : κ} {a : α} {l : List (κ × α)} (h : lookup k l = some a) :
    l.Perm ((k, a) :: remove k l) := by
  induction l with
  | nil => simp [lookup] at h
  | cons hd tl ih =>
    simp only [lookup] at h
    simp only [remove]
    split at h
    · cases h
    next hlt =>
      split at h
      next hgt =>
        simp only [hlt, hgt, if_true, if_false]
        exact ((ih h).cons hd).trans (.swap _ _ _)
      next hgt =>
        cases h
        simp only [hlt, hgt, if_false]
        rw [Key.connected hlt hgt]

theorem values_insert_perm (t : Table κ α) (k : κ) (a : α) :
    (t.insert k a).values.Perm (a :: (t.erase k).values) :=
  (put_perm k a t.entries).map _

theorem values_perm_erase {t : Table κ α} {k : κ} {a : α} (h : t.get? k = some a) :
    t.values.Perm (a :: (t.erase k).values) :=
  (perm_remove h).map _

omit [Key κ] in
theorem map_filterMap {f : κ → Option α} {key : α → κ} {ks : List κ}
    (h : ∀ k ∈ ks, ∃ a, f k = some a ∧ key a = k) : (ks.filterMap f).map key = ks := by
  induction ks with
  | nil => rfl
  | cons k ks ih =>
    obtain ⟨a, ha, hk⟩ := h k List.mem_cons_self
    rw [List.filterMap_cons_some ha, List.map_cons, hk,
      ih fun k' hk' => h k' (List.mem_cons_of_mem _ hk')]

theorem nodup_of_map {α β : Type} {f : α → β} {l : List α} (h : (l.map f).Nodup) : l.Nodup :=
  (List.pairwise_map.1 h).imp fun hne e => hne (congrArg f e)

/-! ### Counting -/

theorem countP_insert [DecidableEq κ] (t : Table κ α) (k : κ) (a : α) (P Q : α → Bool)
    (h : ∀ k' b, k' ≠ k → t.get? k' = some b → Q b = P b) :
    (t.insert k a).values.countP Q + ((t.get? k).elim 0 fun b => (P b).toNat) =
      t.values.countP P + (Q a).toNat := by
  have rest : (t.erase k).values.countP Q = (t.erase k).values.countP P := by
    apply List.countP_congr
    intro b hb
    obtain ⟨k', hk'⟩ := mem_values.1 hb
    rw [get?_erase] at hk'
    split at hk'
    · cases hk'
    next hne => rw [h k' b hne hk']
  have head (R : α → Bool) (b : α) (l : List α) :
      (b :: l).countP R = l.countP R + (R b).toNat := by
    cases hR : R b <;> simp [hR]
  rw [(values_insert_perm t k a).countP_eq, head, rest]
  cases hk : t.get? k with
  | none =>
    rw [erase_eq_self hk]
    rfl
  | some b =>
    rw [(values_perm_erase hk).countP_eq, head]
    simp only [Option.elim_some]
    omega

theorem countP_eq_zero_of {t : Table κ α} {P : α → Bool}
    (h : ∀ k a, t.get? k = some a → P a = false) : t.values.countP P = 0 := by
  apply List.countP_eq_zero.2
  intro a ha
  obtain ⟨k, hk⟩ := mem_values.1 ha
  simp [h k a hk]

end Carpark.Table
