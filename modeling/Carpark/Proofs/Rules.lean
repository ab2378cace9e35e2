import Carpark.Proofs.Addresses
import Carpark.Proofs.Padding

/-!
What an address is refused for. Its fields may be too long, and how long they are is counted in
bytes, while those who are refused are told of characters.
-/

namespace Carpark

namespace Address

/-! ### Faults -/

inductive Field
  | city
  | zip
  | street
  deriving DecidableEq, Repr

namespace Field

def name : Field → String
  | .city => "city"
  | .zip => "zip"
  | .street => "street"

def most : Field → Nat
  | .city => Limits.city
  | .zip => Limits.zip
  | .street => Limits.street

def value (a : Address) : Field → String
  | .city => a.city
  | .zip => a.zip
  | .street => a.street

end Field

inductive Fault
  | blank (field : Field)
  | long (field : Field)
  | zipCharacter
  deriving DecidableEq, Repr

def InZip (c : Char) : Prop :=
  'a' ≤ c ∧ c ≤ 'z' ∨ 'A' ≤ c ∧ c ≤ 'Z' ∨ '0' ≤ c ∧ c ≤ '9' ∨ c = '-' ∨ c = ' '

theorem isZipChar_iff {c : Char} : isZipChar c = true ↔ InZip c := by
  have upper : c.isUpper = true ↔ 'A' ≤ c ∧ c ≤ 'Z' := decide_eq_true_iff
  have lower : c.isLower = true ↔ 'a' ≤ c ∧ c ≤ 'z' :=
    Bool.and_eq_true_iff.trans (and_congr decide_eq_true_iff decide_eq_true_iff)
  have digit : c.isDigit = true ↔ '0' ≤ c ∧ c ≤ '9' :=
    Bool.and_eq_true_iff.trans (and_congr decide_eq_true_iff decide_eq_true_iff)
  have letter : c.isAlpha = true ↔ c.isUpper = true ∨ c.isLower = true := Bool.or_eq_true_iff
  have either : c.isAlphanum = true ↔ c.isAlpha = true ∨ c.isDigit = true := Bool.or_eq_true_iff
  rw [isZipChar, Bool.or_eq_true, Bool.or_eq_true, beq_iff_eq, beq_iff_eq, either, letter, upper,
    lower, digit, InZip, or_comm (a := 'A' ≤ c ∧ c ≤ 'Z')]
  simp only [or_assoc]

instance : DecidablePred InZip := fun c => decidable_of_iff (isZipChar c = true) isZipChar_iff

namespace Fault

def all : List Fault :=
  [.blank .city, .long .city, .blank .zip, .long .zip, .blank .street, .long .street,
    .zipCharacter]

def violation : Fault → Violation
  | .blank field => ⟨field.name, "must not be blank"⟩
  | .long field => ⟨field.name, "at most " ++ toString field.most ++ " characters"⟩
  | .zipCharacter => ⟨"zip", "letters, digits, dashes and spaces only"⟩

/-- `size` is how long a text is. A blank field is not too long besides. -/
def IsIn (size : String → Nat) (a : Address) : Fault → Prop
  | .blank field => Text.trim (field.value a) = ""
  | .long field => Text.trim (field.value a) ≠ "" ∧ field.most < size (field.value a)
  | .zipCharacter => ∃ c ∈ a.zip.toList, ¬ InZip c

instance (size : String → Nat) (a : Address) : DecidablePred (IsIn size a)
  | .blank _ => inferInstanceAs (Decidable (_ = _))
  | .long _ => inferInstanceAs (Decidable (_ ∧ _))
  | .zipCharacter => List.decidableBEx _ _

end Fault

def faults (size : String → Nat) (a : Address) : List Fault :=
  Fault.all.filter (Fault.IsIn size a ·)

variable {a : Address} {size : String → Nat}

theorem mem_faults {fault : Fault} : fault ∈ a.faults size ↔ fault.IsIn size a := by
  have listed : fault ∈ Fault.all := by
    cases fault with
    | blank field | long field => cases field <;> decide
    | zipCharacter => decide
  simp [faults, listed]

theorem fieldViolations_eq (a : Address) (field : Field) :
    fieldViolations field.name (field.value a) field.most =
      ([.blank field, .long field].filter (Fault.IsIn String.utf8ByteSize a ·)).map
        Fault.violation := by
  rw [fieldViolations]
  by_cases blank : Text.trim (field.value a) = ""
  · simp [Text.trim_eq_empty.1 blank, Fault.IsIn, blank, Fault.violation]
  · have shown : Text.isBlankText (field.value a) = false :=
      Bool.eq_false_iff.2 fun h => blank (Text.trim_eq_empty.2 h)
    by_cases long : field.most < (field.value a).utf8ByteSize
    · simp [shown, Fault.IsIn, blank, long, Fault.violation]
    · simp [shown, Fault.IsIn, blank, long]

theorem zipViolation_eq (a : Address) :
    (if a.zip.toList.all isZipChar then []
      else [⟨"zip", "letters, digits, dashes and spaces only"⟩]) =
      ([.zipCharacter].filter (Fault.IsIn String.utf8ByteSize a ·)).map Fault.violation := by
  by_cases other : ∃ c ∈ a.zip.toList, ¬ InZip c
  · have some : a.zip.toList.all isZipChar = false := by
      obtain ⟨c, hc, out⟩ := other
      exact List.all_eq_false.2 ⟨c, hc, fun h => out (isZipChar_iff.1 h)⟩
    rw [some]
    simp [Fault.IsIn, other, Fault.violation]
  · have all : a.zip.toList.all isZipChar = true :=
      List.all_eq_true.2 fun c hc => isZipChar_iff.2 (not_not.1 fun out => other ⟨c, hc, out⟩)
    rw [all]
    simp [Fault.IsIn, other]

theorem violations_eq (a : Address) :
    a.violations = (a.faults String.utf8ByteSize).map Fault.violation := by
  have all : Fault.all = [.blank .city, .long .city] ++ [.blank .zip, .long .zip] ++
      [.blank .street, .long .street] ++ [.zipCharacter] := rfl
  rw [faults, all]
  simp only [List.filter_append, List.map_append, ← fieldViolations_eq, ← zipViolation_eq]
  rfl

/-! ### Characters and bytes -/

theorem faults_sublist (a : Address) : (a.faults String.length).Sublist
    (a.faults String.utf8ByteSize) := by
  refine List.monotone_filter_right _ fun fault broken => ?_
  simp only [decide_eq_true_eq] at broken ⊢
  cases fault with
  | blank field => exact broken
  | long field => exact ⟨broken.1, Nat.lt_of_lt_of_le broken.2 (Text.length_le_utf8ByteSize _)⟩
  | zipCharacter => exact broken

theorem faults_eq_iff (a : Address) : a.faults String.length = a.faults String.utf8ByteSize ↔
    ∀ field : Field, Text.trim (field.value a) ≠ "" →
      field.most < (field.value a).utf8ByteSize → field.most < (field.value a).length := by
  constructor
  · intro same field shown long
    have told : .long field ∈ a.faults String.utf8ByteSize := mem_faults.2 ⟨shown, long⟩
    rw [← same] at told
    exact (mem_faults.1 told).2
  · intro all
    refine (a.faults_sublist).eq_of_length_le ?_
    rw [faults, faults]
    refine (List.monotone_filter_right _ fun fault broken => ?_).length_le
    simp only [decide_eq_true_eq] at broken ⊢
    cases fault with
    | blank field => exact broken
    | long field => exact ⟨broken.1, all field broken.1 broken.2⟩
    | zipCharacter => exact broken

end Address

/-! ### Refusals -/

theorem requireValid_of_ne_nil {violations : List Violation} (h : violations ≠ []) :
    requireValid violations = .error (.invalid violations) := by
  rw [requireValid, List.isEmpty_eq_false_iff.2 h]
  rfl

theorem Failure.ofCommit_ne_invalid (e : CommitError) (vs : List Violation) :
    ofCommit e ≠ .invalid vs := by
  cases e with
  | versionMismatch key => cases key <;> nofun
  | addressTaken | log => nofun

namespace Engine

open Address

section

variable (e : Engine) (ctx : Context) (admin : ctx.caller.isPrivileged = true) (address : Address)
  (policy : Option Policy)

include admin

theorem createParking_refused_iff (vs : List Violation) :
    (e.run ((Operation.createParking address policy).program e.settings ctx)).answer =
        .error (.invalid vs) ↔
      address.faults String.utf8ByteSize ≠ [] ∧
        vs = (address.faults String.utf8ByteSize).map Fault.violation := by
  have privileged : ctx.requirePrivileged = .ok () := if_pos admin
  have run := run_once e .createParking (Registry.createAttempt ctx e.settings address policy)
  have nil : address.violations = [] ↔ address.faults String.utf8ByteSize = [] := by
    rw [violations_eq, List.map_eq_nil_iff]
  refine (Eq.congr_left (run _ .parking)).trans ?_
  by_cases valid : address.violations = []
  · -- the address is let through, and no commit fails in this way
    have staged := Registry.eval_createAttempt (t := e.tables) privileged valid e.settings policy
      e.supply e.drawn
    rw [(run_attempt_ok staged []).1]
    refine iff_of_false (fun refused => ?_) fun h => h.1 (nil.1 valid)
    cases commit : (e.store.commit _).1 with
    | ok _ =>
      rw [commit] at refused
      cases refused
    | error error =>
      rw [commit] at refused
      exact Failure.ofCommit_ne_invalid error vs (Except.error.inj refused)
  · have staged : (Registry.createAttempt ctx e.settings address policy).run.eval e.tables e.supply
        e.drawn = (.error (.invalid address.violations), e.drawn) := by
      rw [Registry.createAttempt, privileged, requireValid_of_ne_nil valid]
      rfl
    rw [(run_attempt_error staged []).1, violations_eq]
    refine ⟨fun refused => ⟨fun none => valid (nil.2 none), ?_⟩, fun h => h.2 ▸ rfl⟩
    exact (Failure.invalid.inj (Except.error.inj refused)).symm

/-- The addresses with faults are refused, and all faults are told. Lengths count bytes, so the
answer is right by the characters unless a field has few enough of them and too many bytes. -/
theorem createParking_invalid :
    let told := address.faults String.utf8ByteSize
    let meant := address.faults String.length
    (∀ vs, (e.run ((Operation.createParking address policy).program e.settings ctx)).answer =
        .error (.invalid vs) ↔ told ≠ [] ∧ vs = told.map Fault.violation) ∧
      meant.Sublist told ∧
      (meant = told ↔ ∀ field : Field, Text.trim (field.value address) ≠ "" →
        field.most < (field.value address).utf8ByteSize →
          field.most < (field.value address).length) :=
  ⟨e.createParking_refused_iff ctx admin address policy, address.faults_sublist,
    address.faults_eq_iff⟩

end

def threeFields : Address := ⟨"\u3000", "ąąąąąąąąą", ""⟩

theorem faults_threeFields :
    threeFields.faults String.utf8ByteSize =
        [.blank .city, .long .zip, .blank .street, .zipCharacter] ∧
      threeFields.faults String.length = [.blank .city, .blank .street, .zipCharacter] := by
  decide

theorem createParking_invalid_threeFields :
    let e := fresh {} .silent .ofNat false
    (e.run ((Operation.createParking threeFields none).program e.settings ⟨.system, 0⟩)).answer =
        .error (.invalid [⟨"city", "must not be blank"⟩, ⟨"zip", "at most 16 characters"⟩,
          ⟨"street", "must not be blank"⟩, ⟨"zip", "letters, digits, dashes and spaces only"⟩]) ∧
      ∃ field : Field, field.most < (field.value threeFields).utf8ByteSize ∧
        (field.value threeFields).length ≤ field.most := by
  intro e
  obtain ⟨told, meant⟩ := faults_threeFields
  obtain ⟨refused, -, right⟩ := createParking_invalid e ⟨.system, 0⟩ rfl threeFields none
  constructor
  · rw [refused, told]
    decide
  · have wrong : threeFields.faults String.length ≠ threeFields.faults String.utf8ByteSize := by
      rw [told, meant]
      decide
    have some := mt right.2 wrong
    simp only [not_forall, Nat.not_lt] at some
    obtain ⟨field, -, long, short⟩ := some
    exact ⟨field, long, short⟩

def somewhere (city : String) : Address := ⟨city, "90-001", "Piotrkowska 1"⟩

theorem faults_somewhere {city : String} (shown : Text.trim city ≠ "") (size : String → Nat)
    (zip : size "90-001" ≤ 16) (street : size "Piotrkowska 1" ≤ 128) :
    (somewhere city).faults size = if 64 < size city then [.long .city] else [] := by
  have wrong : ∀ fault, Fault.IsIn size (somewhere city) fault ↔
      fault = .long .city ∧ 64 < size city := by
    intro fault
    cases fault with
    | blank field =>
      refine iff_of_false ?_ nofun
      cases field with
      | city => exact shown
      | zip => exact (by decide : Text.trim "90-001" ≠ "")
      | street => exact (by decide : Text.trim "Piotrkowska 1" ≠ "")
    | long field =>
      cases field with
      | city => exact ⟨fun long => ⟨rfl, long.2⟩, fun long => ⟨shown, long.2⟩⟩
      | zip => exact iff_of_false (fun long => Nat.not_lt.2 zip long.2) nofun
      | street => exact iff_of_false (fun long => Nat.not_lt.2 street long.2) nofun
    | zipCharacter =>
      have fine : "90-001".toList.all isZipChar = true := by decide
      refine iff_of_false (fun ⟨c, hc, other⟩ => other ?_) nofun
      exact isZipChar_iff.1 (List.all_eq_true.1 fine c hc)
  simp only [faults, wrong]
  by_cases long : 64 < size city
  · simp only [long, and_true, ↓reduceIte]
    decide
  · simp [long]

/-- A city of 33 letters of two bytes each is too long. -/
theorem short_city_refused :
    let city := String.ofList (List.replicate 33 'ł')
    let e := fresh {} .silent .ofNat false
    city.length = 33 ∧ (somewhere city).faults String.length = [] ∧
      (e.run ((Operation.createParking (somewhere city) none).program e.settings
        ⟨.system, 0⟩)).answer = .error (.invalid [⟨"city", "at most 64 characters"⟩]) := by
  intro city e
  have characters : city.length = 33 := by rw [String.length_ofList, List.length_replicate]
  have bytes : city.utf8ByteSize = 66 := Text.utf8ByteSize_repeated 'ł' 33
  have shown : Text.trim city ≠ "" := by
    rw [Ne, Text.trim_eq_empty, Text.isBlankText, String.toList_ofList]
    decide
  generalize city = city at characters bytes shown
  have meant := faults_somewhere shown String.length (by decide) (by decide)
  have told := faults_somewhere shown String.utf8ByteSize (by decide) (by decide)
  rw [characters] at meant
  rw [bytes] at told
  refine ⟨characters, meant, ?_⟩
  rw [e.createParking_refused_iff ⟨.system, 0⟩ rfl, told]
  decide

end Engine

end Carpark
