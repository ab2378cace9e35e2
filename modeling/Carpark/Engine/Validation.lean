import Carpark.Failure
import Carpark.Limits
import Carpark.Text.Blank

/-!
The rules that requests are held to before anything is read.
-/

namespace Carpark

namespace Address

def fieldViolations (field value : String) (most : Nat) : List Violation :=
  if Text.isBlankText value then [⟨field, "must not be blank"⟩]
  else if most < value.utf8ByteSize then [⟨field, "at most " ++ toString most ++ " characters"⟩]
  else []

def isZipChar (c : Char) : Bool := c.isAlphanum || c == '-' || c == ' '

def violations (a : Address) : List Violation :=
  fieldViolations "city" a.city Limits.city ++ fieldViolations "zip" a.zip Limits.zip ++
    fieldViolations "street" a.street Limits.street ++
    if a.zip.toList.all isZipChar then []
    else [⟨"zip", "letters, digits, dashes and spaces only"⟩]

end Address

structure SectorSpec where
  name : String
  kind : SectorKind
  maxPlaces : Nat
  weight : Nat
  deriving DecidableEq, Repr

namespace SectorSpec

def boundViolations (field : String) (n most : Nat) : List Violation :=
  if n = 0 ∨ most < n then [⟨field, "must be between 1 and " ++ toString most⟩] else []

def violations (s : SectorSpec) : List Violation :=
  (if Sector.isValidName s.name then []
    else [⟨"name", "expected two letters, a dash and two digits, e.g. AB-01"⟩]) ++
    boundViolations "max_places" s.maxPlaces Limits.placesPerSector ++
    boundViolations "weight" s.weight Limits.sectorWeight

end SectorSpec

def requireValid (violations : List Violation) : Except Failure Unit :=
  if violations.isEmpty then .ok () else .error (.invalid violations)

def Span.ofRequest (start stop now most : Ms) : Except Failure Span :=
  if start < Limits.earliest ∨ Limits.latest < stop then
    .error (.limitExceeded "timestamp out of range")
  else if stop ≤ start then .error .invalidTimeframe
  else if most < stop - start then .error (.durationExceeded most)
  else if start < now then .error .beginInPast
  else .ok ⟨start, stop⟩

end Carpark
