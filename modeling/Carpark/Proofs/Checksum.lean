import Carpark.Log.Crc32
import Mathlib.Algebra.Group.Nat.Defs

/-!
What the checksum notices. It is linear in exclusive or, and its shift loses nothing, so texts of
one length that differ within four bytes in a row never have the same checksum.
-/

namespace Carpark.Crc32

/-! ### The shift -/

theorem toNat_and_one (s : UInt32) : (s &&& 1).toNat = s.toNat % 2 := by
  rw [UInt32.toNat_and]
  exact Nat.and_one_is_mod _

theorem and_one_cases (s : UInt32) : s &&& 1 = 0 ∨ s &&& 1 = 1 := by
  have bit := toNat_and_one s
  rcases Nat.mod_two_eq_zero_or_one s.toNat with h | h
  · exact .inl (UInt32.toNat_inj.1 (bit.trans h))
  · exact .inr (UInt32.toNat_inj.1 (bit.trans h))

theorem xor_and_one (a b : UInt32) : (a ^^^ b) &&& 1 = (a &&& 1) ^^^ (b &&& 1) := by
  apply UInt32.toNat_inj.1
  simp only [UInt32.toNat_and, UInt32.toNat_xor]
  exact Nat.and_xor_distrib_right ..

theorem shift_xor (a b : UInt32) : shift (a ^^^ b) = shift a ^^^ shift b := by
  have twice (x y p : UInt32) : x ^^^ p ^^^ (y ^^^ p) = x ^^^ y := by
    rw [UInt32.xor_assoc, UInt32.xor_comm y, ← UInt32.xor_assoc p, UInt32.xor_self,
      UInt32.zero_xor]
  have once (x y p : UInt32) : x ^^^ y ^^^ p = x ^^^ p ^^^ y := by
    rw [UInt32.xor_assoc, UInt32.xor_comm y, UInt32.xor_assoc]
  rcases and_one_cases a with ha | ha <;> rcases and_one_cases b with hb | hb <;>
    simp [shift, xor_and_one, ha, hb, UInt32.shiftRight_xor, twice, once, UInt32.xor_assoc]

theorem shift_of_even {s : UInt32} (h : s.toNat % 2 = 0) : (shift s).toNat = s.toNat / 2 := by
  have low : s &&& 1 ≠ 1 := by
    intro one
    have := toNat_and_one s
    rw [one, h] at this
    cases this
  rw [shift, if_neg low, UInt32.toNat_shiftRight, Nat.shiftRight_eq_div_pow]
  rfl

theorem eq_zero_of_shift {s : UInt32} (h : shift s = 0) : s = 0 := by
  rcases and_one_cases s with low | low
  · have even : s.toNat % 2 = 0 := by rw [← toNat_and_one, low]; rfl
    have half := shift_of_even even
    rw [h] at half
    apply UInt32.toNat_inj.1
    simp at half ⊢
    omega
  · rw [shift, if_pos low, UInt32.xor_eq_zero_iff] at h
    have high := congrArg UInt32.toNat h
    rw [UInt32.toNat_shiftRight, Nat.shiftRight_eq_div_pow] at high
    have small := UInt32.toNat_lt s
    simp at high
    omega

theorem shift_injective {a b : UInt32} (h : shift a = shift b) : a = b := by
  rw [← UInt32.xor_eq_zero_iff, ← shift_xor] at h
  exact UInt32.xor_eq_zero_iff.1 (eq_zero_of_shift h)

/-! ### Bytes -/

def shiftByte (s : UInt32) : UInt32 :=
  shift <| shift <| shift <| shift <| shift <| shift <| shift <| shift s

theorem step_eq (s : UInt32) (b : UInt8) : step s b = shiftByte (s ^^^ b.toUInt32) := rfl

theorem shiftByte_xor (a b : UInt32) : shiftByte (a ^^^ b) = shiftByte a ^^^ shiftByte b := by
  simp only [shiftByte, shift_xor]

theorem shiftByte_injective {a b : UInt32} (h : shiftByte a = shiftByte b) : a = b := by
  simp only [shiftByte] at h
  iterate 8 replace h := shift_injective h
  exact h

theorem toNat_shiftByte {s : UInt32} {n : Nat} (h : s.toNat = 256 * n) :
    (shiftByte s).toNat = n := by
  have half {s : UInt32} {m : Nat} (h : s.toNat = 2 * m) : (shift s).toNat = m := by
    rw [shift_of_even (by omega), h]
    omega
  exact half (half (half (half (half (half (half (half (by omega))))))))

/-! ### A few bytes in a row -/

theorem toNat_xor_of_step {a b : UInt32} {x y : UInt8}
    (h : (step a x ^^^ step b y).toNat < 2 ^ 24) :
    (a ^^^ b ^^^ (x.toUInt32 ^^^ y.toUInt32)).toNat = 256 * (step a x ^^^ step b y).toNat := by
  generalize hd : step a x ^^^ step b y = d at h ⊢
  have raised : (d <<< 8).toNat = 256 * d.toNat := by
    rw [UInt32.toNat_shiftLeft, Nat.shiftLeft_eq]
    simp
    omega
  have begun : a ^^^ b ^^^ (x.toUInt32 ^^^ y.toUInt32) = d <<< 8 := by
    apply shiftByte_injective
    rw [← UInt32.toNat_inj, toNat_shiftByte raised, ← hd, step_eq, step_eq, ← shiftByte_xor]
    congr 2
    ac_rfl
  rw [begun, raised]

theorem toNat_byte_xor (x y : UInt8) : (x.toUInt32 ^^^ y.toUInt32).toNat < 2 ^ 8 := by
  rw [UInt32.toNat_xor]
  exact Nat.xor_lt_two_pow x.toNat_lt y.toNat_lt

theorem toNat_xor_of_foldl {a b : UInt32} {l l' : List UInt8} (hlength : l.length = l'.length)
    (few : l.length ≤ 4) (h : l.foldl step a = l'.foldl step b) :
    (a ^^^ b).toNat < 2 ^ (8 * l.length) := by
  induction l generalizing a b l' with
  | nil =>
    obtain rfl := List.eq_nil_of_length_eq_zero hlength.symm
    rw [show a ^^^ b = 0 from UInt32.xor_eq_zero_iff.2 h]
    decide
  | cons x l ih =>
    cases l' with
    | nil => cases hlength
    | cons y l' =>
      simp only [List.length_cons] at few hlength ⊢
      have low := ih (Nat.succ.inj hlength) (by omega) h
      have small : 2 ^ (8 * l.length) ≤ 2 ^ 24 := Nat.pow_le_pow_right (by decide) (by omega)
      have begun := toNat_xor_of_step (Nat.lt_of_lt_of_le low small)
      have apart : a ^^^ b =
          (a ^^^ b ^^^ (x.toUInt32 ^^^ y.toUInt32)) ^^^ (x.toUInt32 ^^^ y.toUInt32) := by
        rw [UInt32.xor_assoc, UInt32.xor_self, UInt32.xor_zero]
      rw [apart, UInt32.toNat_xor, begun]
      have power : 2 ^ (8 * (l.length + 1)) = 256 * 2 ^ (8 * l.length) := by
        rw [Nat.mul_add, Nat.pow_add, Nat.mul_comm]
      refine Nat.xor_lt_two_pow (by omega) (Nat.lt_of_lt_of_le (toNat_byte_xor x y) ?_)
      exact Nat.pow_le_pow_right (by decide) (by omega)

theorem eq_of_foldl_few {s : UInt32} {l l' : List UInt8} (hlength : l.length = l'.length)
    (few : l.length ≤ 4) (h : l.foldl step s = l'.foldl step s) : l = l' := by
  induction l generalizing s l' with
  | nil => exact (List.eq_nil_of_length_eq_zero hlength.symm).symm
  | cons x l ih =>
    cases l' with
    | nil => cases hlength
    | cons y l' =>
      simp only [List.length_cons] at few hlength
      have low := toNat_xor_of_foldl (Nat.succ.inj hlength) (by omega) h
      have small : 2 ^ (8 * l.length) ≤ 2 ^ 24 := Nat.pow_le_pow_right (by decide) (by omega)
      have begun := toNat_xor_of_step (Nat.lt_of_lt_of_le low small)
      rw [UInt32.xor_self, UInt32.zero_xor] at begun
      have bytes := toNat_byte_xor x y
      have same : (x.toUInt32 ^^^ y.toUInt32).toNat = 0 := by omega
      obtain rfl : x = y :=
        UInt8.toUInt32_inj.1 (UInt32.xor_eq_zero_iff.1 (UInt32.toNat_inj.1 same))
      rw [ih (Nat.succ.inj hlength) (by omega) h]

theorem eq_of_foldl {a b : UInt32} {bytes : List UInt8}
    (h : bytes.foldl step a = bytes.foldl step b) : a = b := by
  induction bytes generalizing a b with
  | nil => exact h
  | cons x bytes ih => exact (UInt32.xor_left_inj x.toUInt32).1 (shiftByte_injective (ih h))

/-- Wherever up to four bytes in a row are exchanged for others, the checksum is another one. -/
theorem ofList_ne {front l l' back : List UInt8} (hlength : l.length = l'.length)
    (few : l.length ≤ 4) (hne : l ≠ l') :
    ofList (front ++ (l ++ back)) ≠ ofList (front ++ (l' ++ back)) := by
  intro same
  have states := UInt32.not_inj.1 same
  simp only [List.foldl_append] at states
  exact hne (eq_of_foldl_few hlength few (eq_of_foldl states))

end Carpark.Crc32
