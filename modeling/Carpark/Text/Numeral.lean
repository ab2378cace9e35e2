/-!
Whole numbers in decimal: an optional sign, then one or more of the digits 0 to 9. A numeral
outside the bounds asked for reads as nothing.
-/

namespace Carpark.Text

def digit? (c : Char) : Option Nat :=
  if '0' ≤ c ∧ c ≤ '9' then some (c.toNat - '0'.toNat) else none

def digits? : List Char → Option Nat
  | [] => none
  | cs => (cs.mapM digit?).map fun ds => ds.foldl (fun n d => 10 * n + d) 0

def natural? (most : Nat) (s : String) : Option Nat :=
  let read cs := (digits? cs).filter (· ≤ most)
  match s.toList with
  | '+' :: cs => read cs
  | cs => read cs

def integer? (least most : Int) (s : String) : Option Int :=
  let inside n := least ≤ n && n ≤ most
  match s.toList with
  | '-' :: cs => ((digits? cs).map fun n => -(n : Int)).filter inside
  | '+' :: cs => ((digits? cs).map fun n => (n : Int)).filter inside
  | cs => ((digits? cs).map fun n => (n : Int)).filter inside

end Carpark.Text
