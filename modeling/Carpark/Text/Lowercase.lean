import Carpark.Text.Lowercase.Table

/-!
Lower-casing of texts. Each character has its own lower-case form but for two: `İ` becomes `i`
and a combining dot, and a capital sigma at the end of a word becomes `ς`.
-/

namespace Carpark.Text

def isCased (c : Char) : Bool :=
  if c.toNat < 0x80 then c.isAlpha else casedRanges.has c

def isCaseIgnorable (c : Char) : Bool :=
  if c.toNat < 0x80 then c ∈ ['\x27', '.', ':', '^', '\x60'] else caseIgnorableRanges.has c

def lowerChar (c : Char) : List Char :=
  if c.toNat < 0x80 then [c.toLower]
  else if c = 'İ' then ['i', '\u0307']
  else [((caseRuns.findSome? (·.lower? c.toNat)).map Char.ofNat).getD c]

def meetsCased (cs : List Char) : Bool :=
  match cs.dropWhile isCaseIgnorable with
  | [] => false
  | c :: _ => isCased c

def lowerFrom (before : List Char) : List Char → List Char
  | [] => []
  | c :: rest =>
    let low := if c = 'Σ' then [if meetsCased before && !meetsCased rest then 'ς' else 'σ']
      else lowerChar c
    low ++ lowerFrom (c :: before) rest

def lowercase (s : String) : String := String.ofList (lowerFrom [] s.toList)

def asciiLowercase (s : String) : String := String.ofList (s.toList.map Char.toLower)

end Carpark.Text
