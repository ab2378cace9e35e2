import Carpark.Ulid

/-!
Finite maps kept in key order. A table is what can be looked up in it (`Table.ext`), and listing
one lists its rows by ascending key.
-/

namespace Carpark

class Key (κ : Type) extends LT κ where
  decLt : DecidableLT κ
  irrefl (a : κ) : ¬ a < a
  trans {a b c : κ} : a < b → b < c → a < c
  connected {a b : κ} : ¬ a < b → ¬ b < a → a = b

instance Key.instDecidableLT (κ : Type) [Key κ] : DecidableLT κ := Key.decLt

instance : Key Ulid where
  decLt := inferInstance
  irrefl a := Nat.lt_irrefl a.val
  trans := Nat.lt_trans
  connected h h' := Ulid.ext_val (Nat.le_antisymm (Nat.not_lt.1 h') (Nat.not_lt.1 h))

instance : Key String where
  decLt := inferInstance
  irrefl := String.lt_irrefl
  trans := String.lt_trans
  connected h h' := String.le_antisymm (String.not_lt.1 h') (String.not_lt.1 h)

theorem Key.ne_of_lt {κ : Type} [Key κ] {a b : κ} (h : a < b) : a ≠ b :=
  fun e => Key.irrefl a (e ▸ h)

structure Table (κ α : Type) [Key κ] where
  entries : List (κ × α)
  sorted : entries.Pairwise (·.1 < ·.1)

namespace Table

variable {κ α : Type} [Key κ]

def lookup (k : κ) : List (κ × α) → Option α
  | [] => none
  | (k', a) :: rest => if k < k' then none else if k' < k then lookup k rest else some a

def put (k : κ) (a : α) : List (κ × α) → List (κ × α)
  | [] => [(k, a)]
  | (k', a') :: rest =>
    if k < k' then (k, a) :: (k', a') :: rest
    else if k' < k then (k', a') :: put k a rest
    else (k, a) :: rest

def remove (k : κ) : List (κ × α) → List (κ × α)
  | [] => []
  | (k', a) :: rest =>
    if k < k' then (k', a) :: rest
    else if k' < k then (k', a) :: remove k rest
    else rest

theorem mem_put {k : κ} {a : α} {l : List (κ × α)} {e : κ × α} (h : e ∈ put k a l) :
    e = (k, a) ∨ e ∈ l := by
  induction l with
  | nil => simpa [put] using h
  | cons hd tl ih =>
    simp only [put] at h
    split at h
    · simpa using h
    · split at h
      · rcases List.mem_cons.1 h with h | h
        · exact .inr (h ▸ List.mem_cons_self)
        · exact (ih h).imp id (List.mem_cons_of_mem _)
      · rcases List.mem_cons.1 h with h | h
        · exact .inl h
        · exact .inr (List.mem_cons_of_mem _ h)

theorem mem_of_mem_remove {k : κ} {l : List (κ × α)} {e : κ × α} (h : e ∈ remove k l) : e ∈ l := by
  induction l with
  | nil => simp [remove] at h
  | cons hd tl ih =>
    simp only [remove] at h
    split at h
    · exact h
    · split at h
      · rcases List.mem_cons.1 h with h | h
        · exact h ▸ List.mem_cons_self
        · exact List.mem_cons_of_mem _ (ih h)
      · exact List.mem_cons_of_mem _ h

theorem sorted_put {k : κ} {a : α} {l : List (κ × α)} (h : l.Pairwise (·.1 < ·.1)) :
    (put k a l).Pairwise (·.1 < ·.1) := by
  induction l with
  | nil => simp [put]
  | cons hd tl ih =>
    have hcons := List.pairwise_cons.1 h
    simp only [put]
    split
    next hlt =>
      refine List.pairwise_cons.2 ⟨fun e he => ?_, h⟩
      rcases List.mem_cons.1 he with he | he
      · exact he ▸ hlt
      · exact Key.trans hlt (hcons.1 e he)
    next hlt =>
      split
      next hgt =>
        refine List.pairwise_cons.2 ⟨fun e he => ?_, ih hcons.2⟩
        rcases mem_put he with he | he
        · exact he ▸ hgt
        · exact hcons.1 e he
      next hgt =>
        have hk : k = hd.1 := Key.connected hlt hgt
        exact List.pairwise_cons.2 ⟨fun e he => hk ▸ hcons.1 e he, hcons.2⟩

theorem sorted_remove {k : κ} {l : List (κ × α)} (h : l.Pairwise (·.1 < ·.1)) :
    (remove k l).Pairwise (·.1 < ·.1) := by
  induction l with
  | nil => simp [remove]
  | cons hd tl ih =>
    have hcons := List.pairwise_cons.1 h
    simp only [remove]
    split
    · exact h
    · split
      · exact List.pairwise_cons.2 ⟨fun e he => hcons.1 e (mem_of_mem_remove he), ih hcons.2⟩
      · exact hcons.2

def empty : Table κ α := ⟨[], .nil⟩

def get? (t : Table κ α) (k : κ) : Option α := lookup k t.entries

def insert (t : Table κ α) (k : κ) (a : α) : Table κ α := ⟨put k a t.entries, sorted_put t.sorted⟩

def erase (t : Table κ α) (k : κ) : Table κ α := ⟨remove k t.entries, sorted_remove t.sorted⟩

def values (t : Table κ α) : List α := t.entries.map (·.2)

def keys (t : Table κ α) : List κ := t.entries.map (·.1)

def getList {β : Type} (t : Table κ (List β)) (k : κ) : List β := (t.get? k).getD []

def push {β : Type} (t : Table κ (List β)) (k : κ) (b : β) : Table κ (List β) :=
  t.insert k (t.getList k ++ [b])

/-! ### The view `get?` -/

theorem lookup_put (k k' : κ) (a : α) (l : List (κ × α)) :
    lookup k' (put k a l) = if k' < k ∨ k < k' then lookup k' l else some a := by
  induction l with
  | nil =>
    simp only [put, lookup]
    by_cases h : k' < k <;> by_cases h' : k < k' <;> simp [h, h']
  | cons hd tl ih =>
    simp only [put]
    split
    next hlt =>
      by_cases h : k' < k
      · have := Key.trans h hlt
        simp [lookup, h, this]
      · by_cases h' : k < k' <;> simp [lookup, h, h']
    next hlt =>
      split
      next hgt =>
        simp only [lookup, ih]
        by_cases h : k' < hd.1
        · have : k' < k := Key.trans h hgt
          simp [h, this]
        · by_cases h' : hd.1 < k'
          · simp [h, h']
          · have e : k' = hd.1 := Key.connected h h'
            have : k' < k := e ▸ hgt
            simp [h, h', this]
      next hgt =>
        have e : k = hd.1 := Key.connected hlt hgt
        simp only [lookup, ← e]
        by_cases h : k' < k <;> by_cases h' : k < k' <;> simp [h, h']

@[simp] theorem get?_empty (k : κ) : (empty : Table κ α).get? k = none := rfl

@[simp] theorem get?_insert_self (t : Table κ α) (k : κ) (a : α) :
    (t.insert k a).get? k = some a := by
  simp [get?, insert, lookup_put, Key.irrefl]

theorem get?_insert_of_ne (t : Table κ α) {k k' : κ} (a : α) (h : k' ≠ k) :
    (t.insert k a).get? k' = t.get? k' := by
  have : k' < k ∨ k < k' := by
    by_cases h1 : k' < k
    · exact .inl h1
    · by_cases h2 : k < k'
      · exact .inr h2
      · exact absurd (Key.connected h1 h2) h
  simp [get?, insert, lookup_put, this]

theorem lookup_eq_none {k : κ} {l : List (κ × α)} (h : ∀ e ∈ l, k < e.1) : lookup k l = none := by
  cases l with
  | nil => rfl
  | cons hd tl => simp [lookup, h hd List.mem_cons_self]

theorem lookup_remove (k k' : κ) {l : List (κ × α)} (h : l.Pairwise (·.1 < ·.1)) :
    lookup k' (remove k l) = if k' < k ∨ k < k' then lookup k' l else none := by
  induction l with
  | nil => simp [remove, lookup]
  | cons hd tl ih =>
    have hcons := List.pairwise_cons.1 h
    simp only [remove]
    split
    next hlt =>
      by_cases h1 : k' < k
      · simp [h1]
      · by_cases h2 : k < k'
        · simp [h2]
        · have e : k' = k := Key.connected h1 h2
          simp [lookup, e, hlt, Key.irrefl]
    next hlt =>
      split
      next hgt =>
        simp only [lookup, ih hcons.2]
        by_cases h1 : k' < hd.1
        · simp [h1]
        · by_cases h2 : hd.1 < k'
          · simp [h1, h2]
          · have e : k' = hd.1 := Key.connected h1 h2
            have : k' < k := e ▸ hgt
            simp [h1, h2, this]
      next hgt =>
        have e : k = hd.1 := Key.connected hlt hgt
        by_cases h1 : k' < k
        · have h2 : k' < hd.1 := e ▸ h1
          have h3 : lookup k' tl = none := lookup_eq_none fun x hx => Key.trans h2 (hcons.1 x hx)
          simp [lookup, h1, h2, h3]
        · by_cases h2 : k < k'
          · have h3 : hd.1 < k' := e ▸ h2
            have h4 : ¬ k' < hd.1 := e ▸ h1
            simp [lookup, h2, h3, h4]
          · have h3 : k' = k := Key.connected h1 h2
            have h4 : lookup k tl = none := lookup_eq_none fun x hx => e ▸ hcons.1 x hx
            simp [h3, h4, Key.irrefl]

@[simp] theorem get?_erase_self (t : Table κ α) (k : κ) : (t.erase k).get? k = none := by
  simp [get?, erase, lookup_remove k k t.sorted, Key.irrefl]

theorem get?_erase_of_ne (t : Table κ α) {k k' : κ} (h : k' ≠ k) :
    (t.erase k).get? k' = t.get? k' := by
  have : k' < k ∨ k < k' := by
    by_cases h1 : k' < k
    · exact .inl h1
    · by_cases h2 : k < k'
      · exact .inr h2
      · exact absurd (Key.connected h1 h2) h
  simp [get?, erase, lookup_remove k k' t.sorted, this]

theorem eq_of_lookup_eq {l m : List (κ × α)} (hl : l.Pairwise (·.1 < ·.1))
    (hm : m.Pairwise (·.1 < ·.1)) (h : ∀ k, lookup k l = lookup k m) : l = m := by
  induction l generalizing m with
  | nil =>
    cases m with
    | nil => rfl
    | cons hd tl => simpa [lookup, Key.irrefl] using h hd.1
  | cons hd tl ih =>
    have hl' := List.pairwise_cons.1 hl
    cases m with
    | nil => simpa [lookup, Key.irrefl] using h hd.1
    | cons hd' tl' =>
      have hm' := List.pairwise_cons.1 hm
      have head : hd = hd' := by
        have h1 := h hd.1
        have h2 := h hd'.1
        simp only [lookup, Key.irrefl, if_false] at h1 h2
        by_cases lt : hd.1 < hd'.1
        · simp [lt] at h1
        · by_cases gt : hd'.1 < hd.1
          · simp [gt] at h2
          · simp only [lt, gt, if_false, Option.some.injEq] at h1
            exact Prod.ext (Key.connected lt gt) h1
      subst head
      refine congrArg _ (ih hl'.2 hm'.2 fun k => ?_)
      have hk := h k
      simp only [lookup] at hk
      by_cases lt : k < hd.1
      · rw [lookup_eq_none fun x hx => Key.trans lt (hl'.1 x hx),
          lookup_eq_none fun x hx => Key.trans lt (hm'.1 x hx)]
      · by_cases gt : hd.1 < k
        · simpa [lt, gt] using hk
        · have e : k = hd.1 := Key.connected lt gt
          rw [lookup_eq_none fun x hx => e ▸ hl'.1 x hx,
            lookup_eq_none fun x hx => e ▸ hm'.1 x hx]

theorem ext {s t : Table κ α} (h : ∀ k, s.get? k = t.get? k) : s = t := by
  cases s with
  | mk l hl =>
    cases t with
    | mk m hm =>
      obtain rfl := eq_of_lookup_eq hl hm h
      rfl

end Table

end Carpark
