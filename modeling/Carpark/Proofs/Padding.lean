import Carpark.Config
import Mathlib.Data.List.DropRight

/-!
White space around the values of variables. It does not count, but for the one number that is read
as it stands.
-/

namespace Carpark

/-! ### Trimming -/

namespace Text

theorem trimList_eq (cs : List Char) :
    trimList cs = (cs.dropWhile isBlank).rdropWhile isBlank := rfl

theorem toList_trim (s : String) : (trim s).toList = trimList s.toList := String.toList_ofList

theorem trimList_eq_nil {cs : List Char} : trimList cs = [] ↔ ∀ c ∈ cs, isBlank c = true := by
  rw [trimList_eq, List.rdropWhile_eq_nil_iff]
  refine ⟨fun rest c hc => ?_, fun all c hc => all c ((List.dropWhile_sublist _).subset hc)⟩
  rw [← List.takeWhile_append_dropWhile (p := isBlank) (l := cs)] at hc
  rcases List.mem_append.1 hc with hc | hc
  · exact List.mem_takeWhile_imp hc
  · exact rest c hc

theorem trimList_append {front cs back : List Char} (hf : ∀ c ∈ front, isBlank c = true)
    (hb : ∀ c ∈ back, isBlank c = true) : trimList (front ++ cs ++ back) = trimList cs := by
  by_cases blank : ∀ c ∈ cs, isBlank c = true
  · rw [trimList_eq_nil.2 blank, trimList_eq_nil]
    exact List.forall_mem_append.2 ⟨List.forall_mem_append.2 ⟨hf, blank⟩, hb⟩
  · have rest : (cs.dropWhile isBlank).isEmpty = false := by
      rw [List.isEmpty_eq_false_iff]
      exact fun nil => blank (List.dropWhile_eq_nil_iff.1 nil)
    rw [List.append_assoc, trimList, List.dropWhile_append_of_pos hf, List.dropWhile_append, rest]
    simp only [Bool.false_eq_true, ↓reduceIte, List.reverse_append]
    rw [List.dropWhile_append_of_pos fun c hc => hb c (List.mem_reverse.1 hc), trimList]

theorem exists_eq_append_trimList (cs : List Char) : ∃ front back,
    (∀ c ∈ front, isBlank c = true) ∧ (∀ c ∈ back, isBlank c = true) ∧
      cs = front ++ trimList cs ++ back := by
  refine ⟨cs.takeWhile isBlank, (cs.dropWhile isBlank).rtakeWhile isBlank,
    fun _ => List.mem_takeWhile_imp, fun _ => List.mem_rtakeWhile_imp, ?_⟩
  rw [trimList_eq, List.append_assoc, List.rdropWhile_append_rtakeWhile,
    List.takeWhile_append_dropWhile]

/-- The text is `core` with white space at its ends, or with none. -/
def Pads (s core : String) : Prop :=
  ∃ front back, (∀ c ∈ front, isBlank c = true) ∧ (∀ c ∈ back, isBlank c = true) ∧
    s.toList = front ++ core.toList ++ back

/-- Texts that differ in nothing but the white space at their ends. -/
def Alike (s s' : String) : Prop := ∃ core, Pads s core ∧ Pads s' core

theorem pads_trim (s : String) : Pads s (trim s) := by
  rw [Pads, toList_trim]
  exact exists_eq_append_trimList s.toList

theorem Pads.trim {s core : String} (h : Pads s core) : Text.trim s = Text.trim core := by
  obtain ⟨front, back, hf, hb, hs⟩ := h
  rw [← String.toList_inj, toList_trim, toList_trim, hs, trimList_append hf hb]

theorem alike_iff {s s' : String} : Alike s s' ↔ trim s = trim s' := by
  constructor
  · rintro ⟨core, h, h'⟩
    rw [h.trim, h'.trim]
  · exact fun same => ⟨trim s, pads_trim s, same ▸ pads_trim s'⟩

theorem trim_trim (s : String) : trim (trim s) = trim s := (pads_trim s).trim.symm

theorem trim_eq_empty {s : String} : trim s = "" ↔ isBlankText s = true := by
  rw [← String.toList_inj, toList_trim, isBlankText, List.all_eq_true]
  exact trimList_eq_nil

theorem isBlankText_congr {s s' : String} (h : trim s = trim s') :
    isBlankText s = isBlankText s' := by
  rw [Bool.eq_iff_iff, ← trim_eq_empty, ← trim_eq_empty, h]

theorem exists_isBlank_of_trim_ne {s : String} (h : trim s ≠ s) :
    ∃ c ∈ s.toList, isBlank c = true := by
  obtain ⟨front, back, hf, hb, hs⟩ := pads_trim s
  by_contra none
  have free : ∀ c ∈ front ++ back, False := fun c hc => by
    rcases List.mem_append.1 hc with hc | hc
    · exact none ⟨c, by simp [hs, hc], hf c hc⟩
    · exact none ⟨c, by simp [hs, hc], hb c hc⟩
  obtain ⟨rfl, rfl⟩ := List.append_eq_nil_iff.1 (List.eq_nil_iff_forall_not_mem.2 free)
  rw [List.nil_append, List.append_nil, String.toList_inj] at hs
  exact h hs.symm

/-! ### Numerals -/

theorem not_isBlank_of_digit? {c : Char} {d : Nat} (h : digit? c = some d) : isBlank c = false := by
  simp only [digit?, Option.ite_none_right_eq_some] at h
  obtain ⟨⟨least, most⟩, -⟩ := h
  have least : 48 ≤ c.toNat := UInt32.le_iff_toNat_le.1 least
  have most : c.toNat ≤ 57 := UInt32.le_iff_toNat_le.1 most
  simp only [isBlank]
  rw [Bool.eq_false_iff]
  simp
  omega

theorem digits?_eq_none {cs : List Char} (h : ∃ c ∈ cs, isBlank c = true) : digits? cs = none := by
  have unread : cs.mapM digit? = none := by
    obtain ⟨c, hc, blank⟩ := h
    induction cs with
    | nil => cases hc
    | cons d cs ih =>
      rw [List.mapM_cons]
      cases hd : digit? d with
      | none => rfl
      | some n =>
        rcases List.mem_cons.1 hc with rfl | hc
        · rw [not_isBlank_of_digit? hd] at blank
          cases blank
        · rw [ih hc]
          rfl
  cases cs with
  | nil => rfl
  | cons d cs => rw [digits?, unread, Option.map_none]; simp

theorem natural?_eq_none {most : Nat} {s : String} (h : ∃ c ∈ s.toList, isBlank c = true) :
    natural? most s = none := by
  have plus : isBlank '+' = false := by decide
  rw [natural?]
  split
  next cs front =>
    obtain ⟨c, hc, blank⟩ := h
    rw [front] at hc
    rcases List.mem_cons.1 hc with rfl | hc
    · rw [plus] at blank
      cases blank
    · simp only [digits?_eq_none ⟨c, hc, blank⟩, Option.filter_none]
  next => simp only [digits?_eq_none h, Option.filter_none]

end Text

/-! ### Names of policies -/

theorem Policy.parse_trim (s : String) : parse (Text.trim s) = parse s := by
  rw [parse, parse, normal, normal, Text.trim_trim]

/-! ### Variables -/

namespace Variables

variable {vars vars' : Variables} {key v v' : String}

def set (vars : Variables) (key value : String) : Variables :=
  ⟨fun k => if k = key then some value else vars.get? k⟩

def Alike (vars vars' : Variables) : Prop :=
  ∀ key, (vars.value? key).map Text.trim = (vars'.value? key).map Text.trim

theorem value?_set_of_ne {k : String} (h : k ≠ key) :
    (vars.set key v').value? k = vars.value? k := by
  simp [value?, set, h]

theorem alike_set (hv : vars.get? key = some v) (alike : Text.Alike v v') :
    (vars.set key v').Alike vars := by
  have same := Text.alike_iff.1 alike
  intro k
  by_cases hk : k = key
  · subst hk
    simp only [value?, set, ↓reduceIte, hv, Option.filter, Text.isBlankText_congr same]
    split
    · exact congrArg some same.symm
    · rfl
  · rw [value?_set_of_ne hk]

namespace Alike

variable (h : vars.Alike vars')

include h

theorem bind {α : Type} (key : String) (read : String → Option α) :
    ((vars.value? key).bind fun v => read (Text.trim v)) =
      (vars'.value? key).bind fun v => read (Text.trim v) := by
  have same := congrArg (Option.bind · read) (h key)
  simpa only [Option.bind_map, Function.comp_def] using same

theorem natural (key : String) (bits fallback : Nat) :
    vars.natural key bits fallback = vars'.natural key bits fallback := by
  rw [Variables.natural, h.bind key, Variables.natural]

theorem minutes (key : String) (fallback : Ms) :
    vars.minutes key fallback = vars'.minutes key fallback := by
  rw [Variables.minutes, h.bind key, Variables.minutes]

theorem grace : vars.grace = vars'.grace := by
  rw [Variables.grace, h.minutes, Variables.grace]

theorem sweepInterval : vars.sweepInterval = vars'.sweepInterval := by
  rw [Variables.sweepInterval, h.natural, Variables.sweepInterval]

theorem maxReservation : vars.maxReservation = vars'.maxReservation := by
  rw [Variables.maxReservation, h.minutes, Variables.maxReservation]

theorem capacityRetries : vars.capacityRetries = vars'.capacityRetries := by
  rw [Variables.capacityRetries, h.natural, Variables.capacityRetries]

theorem defaultPolicy : vars.defaultPolicy = vars'.defaultPolicy := by
  have same := congrArg (Option.map Policy.parse) (h "PARKD_DEFAULT_POLICY")
  simp only [Option.map_map, Function.comp_def, Policy.parse_trim] at same
  simp only [Variables.defaultPolicy, same]

theorem warnings : Config.warnings vars = Config.warnings vars' := by
  rw [Config.warnings, h.grace, h.defaultPolicy, h.sweepInterval, h.maxReservation,
    h.capacityRetries, Config.warnings]

theorem ofVariables (directory : vars.value? "PARKD_DATA_DIR" = vars'.value? "PARKD_DATA_DIR") :
    Config.ofVariables vars =
      { Config.ofVariables vars' with metricsPort := vars.metricsPort } := by
  simp only [Config.ofVariables, directory, h.sweepInterval, h.natural, h.maxReservation, h.grace,
    h.defaultPolicy, h.capacityRetries]

end Alike

theorem set_self (hv : vars.get? key = some v) : vars.set key v = vars := by
  obtain ⟨get?⟩ := vars
  have same : (fun k => if k = key then some v else get? k) = get? := by
    funext k
    split
    next h => exact h ▸ hv.symm
    next => rfl
  exact congrArg Variables.mk same

theorem metricsPort_set (vars : Variables) (v : String) :
    (vars.set "PARKD_METRICS_PORT" v).metricsPort =
      if Text.trim v = v then Text.natural? 0xFFFF (Text.trim v) else none := by
  have shown : (vars.set "PARKD_METRICS_PORT" v).metricsPort =
      ((some v).filter (!Text.isBlankText ·)).bind (Text.natural? 0xFFFF) := by
    simp [metricsPort, value?, set]
  rw [shown]
  split
  next bare =>
    cases blank : Text.isBlankText v with
    | true =>
      have unread : Text.natural? 0xFFFF "" = none := rfl
      simp [Option.filter, blank, Text.trim_eq_empty.2 blank, unread]
    | false => simp [Option.filter, blank, bare]
  next padded =>
    rw [Option.filter]
    split
    · exact Text.natural?_eq_none (Text.exists_isBlank_of_trim_ne padded)
    · rfl

theorem metricsPort_set_of_ne (h : key ≠ "PARKD_METRICS_PORT") :
    (vars.set key v).metricsPort = vars.metricsPort := by
  rw [metricsPort, value?_set_of_ne h.symm, metricsPort]

end Variables

namespace Config

open Variables

def trimmed : List String :=
  ["PARKD_SWEEP_INTERVAL_SECS", "PARKD_COMPACT_THRESHOLD", "PARKD_MAX_RESERVATION_MINUTES",
    "PARKD_GRACE_MINUTES", "PARKD_DEFAULT_POLICY", "PARKD_CAPACITY_RETRIES",
    "PARKD_RETRY_BACKOFF_MS"]

/-- White space at the ends of a value goes unnoticed wherever the value is trimmed, which the
number of the port is not. -/
theorem padding_unnoticed (vars : Variables) {key v v' : String} (hv : vars.get? key = some v)
    (alike : Text.Alike v v') :
    (key ∈ trimmed → ofVariables (vars.set key v') = ofVariables vars ∧
      warnings (vars.set key v') = warnings vars) ∧
    (key = "PARKD_METRICS_PORT" →
      ofVariables (vars.set key v') =
        { ofVariables vars with
          metricsPort := if Text.trim v' = v' then Text.natural? 0xFFFF (Text.trim v) else none } ∧
      warnings (vars.set key v') = warnings vars ∧
      (ofVariables (vars.set key v') = ofVariables vars ↔
        Text.natural? 0xFFFF (Text.trim v) = none ∨ (Text.trim v = v ↔ Text.trim v' = v'))) := by
  have same : (vars.set key v').Alike vars := alike_set hv alike
  have core : Text.trim v' = Text.trim v := (Text.alike_iff.1 alike).symm
  have config (other : key ≠ "PARKD_DATA_DIR") := same.ofVariables (value?_set_of_ne other.symm)
  refine ⟨fun known => ⟨?_, same.warnings⟩, ?_⟩
  · have others : ∀ key ∈ trimmed, key ≠ "PARKD_DATA_DIR" ∧ key ≠ "PARKD_METRICS_PORT" := by decide
    obtain ⟨directory, port⟩ := others key known
    rw [config directory, metricsPort_set_of_ne port]
    rfl
  · rintro rfl
    have before := metricsPort_set vars v
    rw [set_self hv] at before
    have after := metricsPort_set vars v'
    rw [core] at after
    have now := config (by decide)
    refine ⟨?_, same.warnings, ?_⟩
    · rw [now, after, core]
    · have ports : ofVariables (vars.set "PARKD_METRICS_PORT" v') = ofVariables vars ↔
          (vars.set "PARKD_METRICS_PORT" v').metricsPort = vars.metricsPort :=
        ⟨congrArg metricsPort, fun h => by rw [now, h]; rfl⟩
      rw [ports, after, before, core]
      cases Text.natural? 0xFFFF (Text.trim v) with
      | none => simp
      | some port =>
        by_cases bare : Text.trim v = v <;> by_cases bare' : Text.trim v = v' <;> simp [bare, bare']

def twoNumbers : Variables where
  get? key :=
    if key = "PARKD_SWEEP_INTERVAL_SECS" then some "30"
    else if key = "PARKD_METRICS_PORT" then some "9100" else none

theorem alike_padded : Text.Alike "30" "\t30\u3000" ∧ Text.Alike "9100" " 9100" := by
  rw [Text.alike_iff, Text.alike_iff]
  decide

theorem padding_unnoticed_twoNumbers :
    ofVariables (twoNumbers.set "PARKD_SWEEP_INTERVAL_SECS" "\t30\u3000") = ofVariables twoNumbers ∧
      (ofVariables twoNumbers).sweepInterval = 30 ∧
      ofVariables (twoNumbers.set "PARKD_METRICS_PORT" " 9100") =
        { ofVariables twoNumbers with metricsPort := none } := by
  have given : twoNumbers.get? "PARKD_SWEEP_INTERVAL_SECS" = some "30" ∧
      twoNumbers.get? "PARKD_METRICS_PORT" = some "9100" := ⟨rfl, rfl⟩
  obtain ⟨interval, -⟩ := padding_unnoticed twoNumbers given.1 alike_padded.1
  obtain ⟨-, port⟩ := padding_unnoticed twoNumbers given.2 alike_padded.2
  refine ⟨(interval (by decide)).1, by decide, (port rfl).1.trans ?_⟩
  rw [if_neg (by decide)]

/-- With a blank in front of its number there is no port. -/
theorem padded_port_lost :
    twoNumbers.get? "PARKD_METRICS_PORT" = some "9100" ∧ Text.Alike "9100" " 9100" ∧
      (ofVariables twoNumbers).metricsPort = some 9100 ∧
      (ofVariables (twoNumbers.set "PARKD_METRICS_PORT" " 9100")).metricsPort = none :=
  ⟨rfl, alike_padded.2, by decide, by decide⟩

end Config

end Carpark
