import Carpark.Proofs.Departure
import Carpark.Proofs.Integrity

/-!
The key under which an address is taken. Its fields are joined by bars, and a bar may stand in a
city and in a street, so addresses of different places can have one key.
-/

namespace Carpark

/-! ### Texts -/

namespace Text

theorem mem_of_mem_trimList {cs : List Char} {c : Char} (h : c ∈ trimList cs) : c ∈ cs := by
  rw [trimList, List.mem_reverse] at h
  have front := (List.dropWhile_sublist isBlank).subset h
  exact (List.dropWhile_sublist isBlank).subset (List.mem_reverse.1 front)

theorem exists_of_mem_lowerFrom {before cs : List Char} (ascii : ∀ c ∈ cs, c.toNat < 0x80)
    {c : Char} (h : c ∈ lowerFrom before cs) : ∃ d ∈ cs, c = d.toLower := by
  induction cs generalizing before with
  | nil => cases h
  | cons d cs ih =>
    obtain ⟨small, ascii⟩ := List.forall_mem_cons.1 ascii
    have plain : d ≠ 'Σ' := by
      rintro rfl
      exact absurd small (by decide)
    rw [lowerFrom, if_neg plain, lowerChar, if_pos small] at h
    rcases List.mem_append.1 h with h | h
    · exact ⟨d, List.mem_cons_self, List.mem_singleton.1 h⟩
    · obtain ⟨e, he, lowered⟩ := ih ascii h
      exact ⟨e, List.mem_cons_of_mem _ he, lowered⟩

theorem exists_of_append_bar {z w s y : List Char} (hz : '|' ∉ z)
    (h : z ++ '|' :: s = w ++ '|' :: y) : ∃ m, w = z ++ m ∧ '|' :: s = m ++ '|' :: y := by
  rcases List.append_eq_append_iff.1 h with ⟨m, hw, hs⟩ | ⟨m, hw, hs⟩
  · exact ⟨m, hw, hs⟩
  · cases m with
    | nil => exact ⟨[], by simpa using hw.symm, by simpa using hs.symm⟩
    | cons x m =>
      obtain ⟨rfl, -⟩ := List.cons.inj hs
      exact absurd (by simp [hw]) hz

theorem append_bar_inj {a b c d : List Char} (ha : '|' ∉ a) (hb : '|' ∉ b)
    (h : a ++ '|' :: c = b ++ '|' :: d) : a = b ∧ c = d := by
  obtain ⟨m, front, rest⟩ := exists_of_append_bar ha h
  cases m with
  | nil => exact ⟨by simpa using front.symm, (List.cons.inj rest).2⟩
  | cons x m =>
    obtain ⟨rfl, -⟩ := List.cons.inj rest
    exact absurd (by simp [front]) hb

end Text

namespace Address

variable {a b : Address}

/-! ### Characters of a postal code -/

theorem toNat_lt_of_isZipChar {c : Char} (h : isZipChar c = true) : c.toNat < 0x80 := by
  delta isZipChar Char.isAlphanum Char.isAlpha Char.isUpper Char.isLower Char.isDigit at h
  simp only [Bool.or_eq_true, Bool.and_eq_true, decide_eq_true_eq, beq_iff_eq, ge_iff_le,
    UInt32.le_iff_toNat_le] at h
  rw [Char.toNat]
  rcases h with (((h | h) | h) | rfl) | rfl
  · exact Nat.lt_of_le_of_lt h.2 (by decide)
  · exact Nat.lt_of_le_of_lt h.2 (by decide)
  · exact Nat.lt_of_le_of_lt h.2 (by decide)
  · decide
  · decide

theorem toLower_ne_of_isZipChar {c : Char} (h : isZipChar c = true) : c.toLower ≠ '|' := by
  have small : ∀ n < 0x80, isZipChar (.ofNat n) = true → (Char.ofNat n).toLower ≠ '|' := by decide
  rw [← Char.ofNat_toNat c] at h ⊢
  exact small _ (toNat_lt_of_isZipChar (by simpa using h)) h

theorem isZipChar_of_violations (h : a.violations = []) {c : Char} (hc : c ∈ a.zip.toList) :
    isZipChar c = true := by
  have zip := (List.append_eq_nil_iff.1 h).2
  by_cases all : a.zip.toList.all isZipChar = true
  · exact List.all_eq_true.1 all c hc
  · rw [if_neg all] at zip
    cases zip

theorem bar_notMem_zip (h : a.violations = []) : '|' ∉ (normal a.zip).toList := by
  intro bar
  rw [normal, Text.lowercase, Text.trim, String.toList_ofList, String.toList_ofList] at bar
  have zip {c : Char} (hc : c ∈ Text.trimList a.zip.toList) : isZipChar c = true :=
    isZipChar_of_violations h (Text.mem_of_mem_trimList hc)
  obtain ⟨c, hc, lowered⟩ :=
    Text.exists_of_mem_lowerFrom (fun c hc => toNat_lt_of_isZipChar (zip hc)) bar
  exact toLower_ne_of_isZipChar (zip hc) lowered.symm

/-! ### Equal keys -/

structure Same (a b : Address) : Prop where
  city : normal a.city = normal b.city
  zip : normal a.zip = normal b.zip
  street : normal a.street = normal b.street

/-- The city of `a` has absorbed the postal code of `b` and what its street begins with, up to
some bar of the street; what follows that bar is the postal code and the street of `a`. -/
def Absorbs (a b : Address) : Prop :=
  ∃ m, normal a.city = normal b.city ++ "|" ++ normal b.zip ++ m ∧
    "|" ++ normal b.street = m ++ "|" ++ normal a.zip ++ "|" ++ normal a.street

def bars (a : Address) : Nat := (normal a.city).toList.count '|'

theorem toList_key (a : Address) : a.key.toList =
    (normal a.city).toList ++
      '|' :: ((normal a.zip).toList ++ '|' :: (normal a.street).toList) := by
  simp [key]

theorem Same.key (h : a.Same b) : a.key = b.key := by
  rw [Address.key, Address.key, h.city, h.zip, h.street]

theorem Absorbs.key (h : a.Absorbs b) : a.key = b.key := by
  obtain ⟨m, city, street⟩ := h
  have rest : "|" ++ normal b.street = m ++ ("|" ++ normal a.zip ++ "|" ++ normal a.street) := by
    rw [street]
    simp only [String.append_assoc]
  rw [Address.key, Address.key, city]
  simp only [String.append_assoc] at rest ⊢
  rw [rest]

theorem Absorbs.bars_lt (h : a.Absorbs b) : b.bars < a.bars := by
  obtain ⟨m, city, -⟩ := h
  simp only [bars, city, String.toList_append, List.count_append]
  have one : "|".toList.count '|' = 1 := by decide
  omega

theorem same_of_append (ha : a.violations = []) (hb : b.violations = [])
    (city : (normal a.city).toList = (normal b.city).toList)
    (rest : (normal a.zip).toList ++ '|' :: (normal a.street).toList =
      (normal b.zip).toList ++ '|' :: (normal b.street).toList) : a.Same b := by
  obtain ⟨zip, street⟩ := Text.append_bar_inj (bar_notMem_zip ha) (bar_notMem_zip hb) rest
  exact ⟨String.toList_inj.1 city, String.toList_inj.1 zip, String.toList_inj.1 street⟩

theorem absorbs_of_append {m : List Char} (hb : b.violations = [])
    (city : (normal a.city).toList = (normal b.city).toList ++ '|' :: m)
    (rest : (normal b.zip).toList ++ '|' :: (normal b.street).toList =
      m ++ '|' :: ((normal a.zip).toList ++ '|' :: (normal a.street).toList)) : a.Absorbs b := by
  obtain ⟨n, front, street⟩ := Text.exists_of_append_bar (bar_notMem_zip hb) rest
  have city' : normal a.city = normal b.city ++ "|" ++ normal b.zip ++ .ofList n := by
    rw [← String.toList_inj]
    simp [city, front]
  have street' : "|" ++ normal b.street = .ofList n ++ "|" ++ normal a.zip ++ "|" ++
      normal a.street := by
    rw [← String.toList_inj]
    simp [street]
  exact ⟨_, city', street'⟩

theorem key_eq_iff (ha : a.violations = []) (hb : b.violations = []) :
    a.key = b.key ↔ a.Same b ∨ a.Absorbs b ∨ b.Absorbs a := by
  refine ⟨fun h => ?_, ?_⟩
  · rw [← String.toList_inj, toList_key, toList_key] at h
    rcases List.append_eq_append_iff.1 h with ⟨m, city, rest⟩ | ⟨m, city, rest⟩
    · cases m with
      | nil =>
        rw [List.append_nil] at city
        rw [List.nil_append, List.cons_inj_right] at rest
        exact .inl (same_of_append ha hb city.symm rest)
      | cons x m =>
        rw [List.cons_append, List.cons.injEq] at rest
        obtain ⟨rfl, rest⟩ := rest
        exact .inr (.inr (absorbs_of_append ha city rest))
    · cases m with
      | nil =>
        rw [List.append_nil] at city
        rw [List.nil_append, List.cons_inj_right] at rest
        exact .inl (same_of_append ha hb city rest.symm)
      | cons x m =>
        rw [List.cons_append, List.cons.injEq] at rest
        obtain ⟨rfl, rest⟩ := rest
        exact .inr (.inl (absorbs_of_append hb city rest))
  · rintro (same | absorbs | absorbs)
    · exact same.key
    · exact absorbs.key
    · exact absorbs.key.symm

/-- Addresses that the registry takes for one: the same address, or one that absorbs the other. -/
def Meets (a b : Address) : Prop := a.Same b ∨ a.Absorbs b ∨ b.Absorbs a

theorem meets_iff_same (bars : a.bars = b.bars) : a.Meets b ↔ a.Same b := by
  refine ⟨?_, .inl⟩
  rintro (same | absorbs | absorbs)
  · exact same
  · exact absurd absorbs.bars_lt (by omega)
  · exact absurd absorbs.bars_lt (by omega)

end Address

/-! ### Addresses of parkings -/

namespace Tables

def Addressed (t : Tables) : Prop :=
  ∀ ⦃id p⦄, t.parkings.get? id = some p → p.address.violations = []

def Crowded (t : Tables) (id : Ulid) (address : Address) : Prop :=
  ∃ k p, t.parkings.get? k = some p ∧ k ≠ id ∧ p.address.Meets address

theorem Linked.crowded_iff {t : Tables} (ht : t.Linked) (hr : t.Addressed) {id : Ulid}
    {address : Address}
    (valid : address.violations = []) :
    t.Crowded id address ↔ ∃ o, t.addresses.get? address.key = some o ∧ o ≠ id := by
  constructor
  · rintro ⟨k, p, hp, other, meets⟩
    exact ⟨k, ht.address.2 ⟨p, hp, (Address.key_eq_iff (hr hp) valid).2 meets⟩, other⟩
  · rintro ⟨k, row, other⟩
    obtain ⟨p, hp, key⟩ := ht.address.1 row
    exact ⟨k, p, hp, other, (Address.key_eq_iff (hr hp) valid).1 key⟩

end Tables

theorem Transition.addressed {settings : Settings} {ctx : Context} {t : Tables} {op : Operation}
    {ids : List Ulid} {txn : Txn} (h : Transition settings ctx t op ids txn)
    (hr : t.Addressed) : (t.apply txn.writes).Addressed := by
  intro k q hq
  rcases Tables.parkings_of_apply hq with there | put
  · exact hr there
  cases h with
  | createParking _ valid | updateParking _ valid =>
    simp only [Txn.writes, Change.write?, List.filterMap_cons, List.filterMap_nil,
      List.mem_singleton, Write.putParking.injEq] at put
    rw [put]
    exact requireValid_eq_ok.1 valid
  | addSector _ _ hp | renameSector _ _ _ _ _ _ _ hp | deleteSector _ _ _ _ hp =>
    simp only [Txn.writes, Change.write?, List.filterMap_cons, List.filterMap_nil,
      List.mem_cons, List.not_mem_nil, or_false, Write.putParking.injEq, reduceCtorEq] at put
    have kept := hr hp
    rw [put]
    exact kept
  | deleteParking => simp [Txn.writes_deleteSectors] at put
  | _ => simp [Txn.writes, Change.write?] at put

/-! ### Claiming an address -/

theorem Tables.refusal?_claimAddress {t : Tables} {key : String} {id : Ulid} {c : Change}
    (row : c.suits t) (taken : ∃ o, t.addresses.get? key = some o ∧ o ≠ id) :
    t.refusal? [.claimAddress key id, c] = some (.addressTaken key) := by
  obtain ⟨o, ho, other⟩ := taken
  have current : t.staleRow? [.claimAddress key id, c] = none := by
    have suits : t.refusal? [c] = none := refusal?_eq_none.2 (by simpa using row)
    exact (Option.or_eq_none_iff.1 suits).1
  rw [refusal?, current, Option.none_or]
  simp [takenAddress?, Txn.claims, Change.claims?, ho, other]

namespace Registry

variable {ctx : Context} {t : Tables} {address : Address}
  (admin : ctx.requirePrivileged = .ok ()) (valid : address.violations = [])

include admin valid

theorem eval_createAttempt (settings : Settings) (policy : Option Policy) (ids : Nat → Ulid)
    (n : Nat) :
    let p : Parking := {
      id := ids n, address, sectors := [], policy := policy.getD settings.defaultPolicy
      version := 1 }
    (createAttempt ctx settings address policy).run.eval t ids n =
      (.ok ⟨[.claimAddress address.key (ids n), .insertParking p], p⟩, n + 1) := by
  rw [createAttempt, admin, requireValid_eq_ok.2 valid]
  rfl

theorem eval_updateAttempt {id : Ulid} {p : Parking} (hp : t.parkings.get? id = some p)
    (policy : Policy) (ids : Nat → Ulid) (n : Nat) :
    (updateAttempt ctx id p.version address policy).run.eval t ids n =
      (.ok ⟨[.claimAddress address.key id, .updateParking { p with address, policy }],
        { p with address, policy, version := p.version + 1 }⟩, n) := by
  have found : (Lookup.parking id).run.eval t ids n = (.ok p, n) :=
    Reading.eval_of_sees (Lookup.sees_parking.2 ⟨⟨rfl, hp⟩, rfl⟩) ids n (by simp)
  rw [updateAttempt, admin, requireValid_eq_ok.2 valid]
  change (Lookup.parking id >>= _).run.eval t ids n = _
  rw [Lookup.eval_bind_of found, requireVersion, if_pos rfl]
  rfl

end Registry

namespace Engine

variable {e : Engine} {cs : List Commit}

theorem run_once {α : Type} (e : Engine) (name : OpName) (a : Lookup (Plan α))
    (line : α → Option String) (answer : α → Answer) :
    (e.run ((Registry.once name a line).answering answer)).answer =
      (e.run (Program.attempt a)).answer.map answer := by
  refine (run_bind_answering e (Program.attempt a) (g := fun r => r) (fun r => ?_) answer).1
  cases r with
  | error _ => exact .bind (.count _) (.pure _)
  | ok x =>
    refine .bind (.count _) ?_
    simp only
    cases line x with
    | none => exact .pure _
    | some message => exact .bind (.line _) (.pure _)

structure Awards (e : Engine) (id : Ulid) (address : Address)
    (answer : Except Failure Answer) : Prop where
  taken : e.tables.Crowded id address → answer = .error (.addressTaken address.key)
  free : ¬ e.tables.Crowded id address →
    ∃ p, answer = .ok (.parking p) ∧ p.id = id ∧ p.address = address

theorem Reachable.addressed (h : e.Reachable cs) : e.tables.Addressed :=
  h.invariant (fun _ _ hp => by simp [Tables.empty] at hp)
    (fun same valid _ _ hp => valid (same.parkings ▸ hp))
    (fun _ less valid _ _ hp => valid (less.parkings ▸ hp)) fun _ transition _ valid =>
      transition.addressed valid

theorem Reachable.awards (h : e.Reachable cs) {address : Address} (valid : address.violations = [])
    {a : Lookup (Plan Parking)} {id : Ulid} {c : Change} {p : Parking} {n : Nat}
    (staged : a.run.eval e.tables e.supply e.drawn =
      (.ok ⟨[.claimAddress address.key id, c], p⟩, n))
    (row : c.suits e.tables) (writes : Txn.isEmpty [.claimAddress address.key id, c] = false)
    (hp : p.id = id ∧ p.address = address) (name : OpName) (line : Parking → Option String) :
    e.Awards id address (e.run ((Registry.once name a line).answering .parking)).answer := by
  obtain ⟨commit, -⟩ := run_attempt_ok staged []
  have crowded : e.tables.Crowded id address ↔ _ := h.linked.crowded_iff h.addressed valid
  rw [run_once, commit]
  constructor
  · intro taken
    have refusal := Tables.refusal?_claimAddress row (crowded.1 taken)
    rw [(Store.commit_of_refusal writes refusal []).1]
    rfl
  · intro free
    have accepted : e.tables.refusal? [.claimAddress address.key id, c] = none := by
      refine Tables.refusal?_eq_none.2 (List.forall_mem_cons.2 ⟨fun o ho => ?_, by simpa using row⟩)
      exact not_not.1 fun other => free (crowded.2 ⟨o, ho, other⟩)
    rw [(Store.commit_of_accepted writes accepted []).1]
    exact ⟨p, rfl, hp⟩

section

variable (h : e.Reachable cs) (ctx : Context) (admin : ctx.caller.isPrivileged = true)
  {address : Address} (valid : address.violations = [])

include h admin valid

theorem Reachable.awards_createParking (policy : Option Policy)
    (new : e.tables.parkings.get? (e.supply e.drawn) = none) :
    e.Awards (e.supply e.drawn) address
      (e.run ((Operation.createParking address policy).program e.settings ctx)).answer := by
  have privileged : ctx.requirePrivileged = .ok () := if_pos admin
  exact h.awards valid (Registry.eval_createAttempt privileged valid _ policy _ _) new rfl
    ⟨rfl, rfl⟩ _ _

theorem Reachable.awards_updateParking {id : Ulid} {p : Parking}
    (hp : e.tables.parkings.get? id = some p) (policy : Policy) :
    e.Awards id address
      (e.run ((Operation.updateParking id p.version address policy).program e.settings
        ctx)).answer := by
  have privileged : ctx.requirePrivileged = .ok () := if_pos admin
  have own := h.linked.parking_id hp
  have row : Change.suits e.tables (.updateParking { p with address, policy }) :=
    ⟨p, own ▸ hp, rfl⟩
  exact h.awards valid (Registry.eval_updateAttempt privileged valid hp policy _ _) row rfl
    ⟨own, rfl⟩ _ _

end

/-- Creating or moving a parking is refused exactly if another parking has the same key: that of the
same address, or of one that the longer city absorbs. -/
theorem Reachable.address_taken (h : e.Reachable cs) (ctx : Context)
    (admin : ctx.caller.isPrivileged = true) {address : Address}
    (valid : address.violations = []) :
    (∀ a b : Address, a.violations = [] → b.violations = [] →
      (a.key = b.key ↔ a.Meets b) ∧ (a.bars = b.bars → (a.key = b.key ↔ a.Same b))) ∧
    e.tables.Addressed ∧
    (∀ policy, e.tables.parkings.get? (e.supply e.drawn) = none →
      e.Awards (e.supply e.drawn) address
        (e.run ((Operation.createParking address policy).program e.settings ctx)).answer) ∧
    ∀ id p policy, e.tables.parkings.get? id = some p →
      e.Awards id address
        (e.run ((Operation.updateParking id p.version address policy).program e.settings
          ctx)).answer := by
  refine ⟨fun a b ha hb => ?_, h.addressed,
    fun policy new => h.awards_createParking ctx admin valid policy new,
    fun id p policy hp => h.awards_updateParking ctx admin valid hp policy⟩
  have meets := Address.key_eq_iff ha hb
  exact ⟨meets, fun bars => meets.trans (Address.meets_iff_same bars)⟩

def twoCities : Engine :=
  (fresh {} .silent (fun n => .ofNat (n + 1)) false).serve [
    .operation ⟨.system, 0⟩ (.createParking ⟨" Rome|1", "2", "3"⟩ none),
    .operation ⟨.system, 0⟩ (.createParking ⟨"Rome", "1", "2"⟩ none)]

set_option maxRecDepth 10000 in
theorem address_taken_twoCities :
    let address : Address := ⟨"ROME", "1", "2|3 "⟩
    let answer (op : Operation) :=
      (twoCities.run (op.program twoCities.settings ⟨.system, 0⟩)).answer
    answer (.createParking address none) = .error (.addressTaken "rome|1|2|3") ∧
      answer (.updateParking (.ofNat 2) 1 address .leastOccupied) =
        .error (.addressTaken "rome|1|2|3") ∧
      ∃ p, answer (.updateParking (.ofNat 1) 1 address .leastOccupied) = .ok (.parking p) := by
  intro address answer
  obtain ⟨cs, reachable⟩ : ∃ cs, twoCities.Reachable cs := (Reachable.fresh _ _ _ _).serve _
  have valid : address.violations = [] := by decide
  obtain ⟨keys, allowed, created, moved⟩ :=
    Reachable.address_taken reachable ⟨.system, 0⟩ rfl valid
  have first : twoCities.tables.parkings.get? (.ofNat 1) =
      some ⟨.ofNat 1, ⟨" Rome|1", "2", "3"⟩, [], .leastOccupied, 1⟩ := by decide
  have second : twoCities.tables.parkings.get? (.ofNat 2) =
      some ⟨.ofNat 2, ⟨"Rome", "1", "2"⟩, [], .leastOccupied, 1⟩ := by decide
  have key : address.key = "rome|1|2|3" := by decide +kernel
  have holder : Address.key ⟨" Rome|1", "2", "3"⟩ = "rome|1|2|3" := by decide +kernel
  have meets := (keys _ _ (allowed first) valid).1.1 (holder.trans key.symm)
  have own : ¬ twoCities.tables.Crowded (.ofNat 1) address := by
    rw [reachable.linked.crowded_iff reachable.addressed valid, key]
    rintro ⟨o, ho, other⟩
    exact other (Option.some.inj (ho.symm.trans (by decide)))
  rw [← key]
  obtain ⟨p, answered, -⟩ := (moved _ _ .leastOccupied first).free own
  exact ⟨(created none (by decide)).taken ⟨_, _, first, by decide, meets⟩,
    (moved _ _ .leastOccupied second).taken ⟨_, _, first, by decide, meets⟩, p, answered⟩

set_option maxRecDepth 10000 in
/-- Two addresses have one key, so the second is refused although no parking stands there. -/
theorem address_not_identified_by_key :
    ∃ (e : Engine) (cs : List Commit) (a b : Address), e.Reachable cs ∧
      a.violations = [] ∧ b.violations = [] ∧ a.key = b.key ∧
      Address.normal a.city ≠ Address.normal b.city ∧
      Address.normal a.street ≠ Address.normal b.street ∧
      e.tables.parkings.values.map (·.address) = [a] ∧
      (e.run ((Operation.createParking b none).program e.settings ⟨.system, 0⟩)).answer =
        .error (.addressTaken b.key) := by
  let a : Address := ⟨"Rome|1", "2", "3"⟩
  let b : Address := ⟨"Rome", "1", "2|3"⟩
  let create : Request := .operation ⟨.system, 0⟩ (.createParking a none)
  let e := (fresh {} .silent (fun n => .ofNat (n + 1)) false).serve [create]
  obtain ⟨cs, reachable⟩ : ∃ cs, e.Reachable cs := (Reachable.fresh _ _ _ _).serve _
  have key : b.key = "rome|1|2|3" := by decide +kernel
  have holder : a.key = "rome|1|2|3" := by decide +kernel
  have same : a.key = b.key := holder.trans key.symm
  have valid : a.violations = [] ∧ b.violations = [] := by decide
  have only : e.tables.parkings.values.map (·.address) = [a] := by decide
  have first : e.tables.parkings.get? (.ofNat 1) = some ⟨.ofNat 1, a, [], .leastOccupied, 1⟩ := by
    decide
  have refused := reachable.awards_createParking ⟨.system, 0⟩ rfl valid.2 none
    (by decide)
  have meets := (Address.key_eq_iff valid.1 valid.2).1 same
  exact ⟨e, cs, a, b, reachable, valid.1, valid.2, same, by decide, by decide, only,
    refused.taken ⟨_, _, first, by decide, meets⟩⟩

end Engine

end Carpark
