/-!
Identifiers: 128-bit numbers, ordered as numbers, written as 26 digits in base 32.
-/

namespace Carpark

structure Ulid where
  val : Nat
  isLt : val < 1 <<< 128
  deriving DecidableEq, Repr

namespace Ulid

instance : LT Ulid := ⟨fun a b => a.val < b.val⟩

instance : DecidableLT Ulid := fun a b => inferInstanceAs (Decidable (a.val < b.val))

instance : Inhabited Ulid := ⟨⟨0, by decide⟩⟩

theorem ext_val {a b : Ulid} (h : a.val = b.val) : a = b := by
  cases a; cases b; cases h; rfl

def ofNat (n : Nat) : Ulid := ⟨n % (1 <<< 128), Nat.mod_lt _ (by decide)⟩

/-! ### Text -/

def alphabet : List Char := "0123456789ABCDEFGHJKMNPQRSTVWXYZ".toList

def digitChar (d : Nat) : Char := alphabet.getD (d % 32) '0'

def digitValue? (c : Char) : Option Nat := alphabet.findIdx? (· == c.toUpper)

def digits : Nat → Nat → List Char
  | 0, _ => []
  | k + 1, n => digits k (n / 32) ++ [digitChar n]

def text (u : Ulid) : String := String.ofList (digits 26 u.val)

def parse? (s : String) : Option Ulid :=
  let cs := s.toList
  if cs.length = 26 then
    (cs.mapM digitValue?).map fun ds => ofNat (ds.foldl (fun n d => 32 * n + d) 0)
  else none

instance : ToString Ulid := ⟨text⟩

def code (u : Ulid) : String := String.ofList (digits 8 u.val)

def series (time start n : Nat) : Ulid := ofNat (time <<< 80 + start + n)

end Ulid

end Carpark
