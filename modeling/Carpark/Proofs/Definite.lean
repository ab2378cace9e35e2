import Carpark.Proofs.Codec

/-!
What a reader takes off the front of some bytes does not depend on what follows. So the form of a
commit that is cut short is not the form of any commit.
-/

namespace Carpark.Binary

variable {α β : Type}

/-- Where the reader finds a value, it would find the same one in those bytes before anything. -/
def Definite (read : Reader α) : Prop :=
  ∀ s a rest, read.run s = some (a, rest) → ∃ used, s = used ++ rest ∧ Reads read used a

namespace Definite

theorem pure (a : α) : Definite (Pure.pure a : Reader α) := by
  intro s b rest h
  cases h
  exact ⟨[], rfl, .pure a⟩

theorem bind {read : Reader α} {f : α → Reader β} (h : Definite read) (hf : ∀ a, Definite (f a)) :
    Definite (read >>= f) := by
  intro s b rest hrun
  rw [StateT.run_bind] at hrun
  obtain ⟨⟨a, middle⟩, hread, hrest⟩ := Option.bind_eq_some_iff.1 hrun
  obtain ⟨used, rfl, reads⟩ := h _ _ _ hread
  obtain ⟨used', rfl, reads'⟩ := hf a _ _ _ hrest
  exact ⟨used ++ used', (List.append_assoc ..).symm, reads.bind reads'⟩

theorem map {read : Reader α} (h : Definite read) (f : α → β) :
    Definite (do return f (← read)) :=
  h.bind fun a => pure (f a)

theorem lift (o : Option α) : Definite (liftM o : Reader α) := by
  cases o with
  | none =>
    intro s a rest h
    cases h
  | some a => exact pure a

theorem failure : Definite (Alternative.failure : Reader α) := lift none

end Definite

/-! ### Numbers and texts -/

theorem definite_take (n : Nat) : Definite (take n) := by
  intro s
  induction n generalizing s with
  | zero =>
    intro bytes rest h
    cases h
    exact ⟨[], rfl, reads_take rfl⟩
  | succ n ih =>
    intro bytes rest h
    cases s with
    | nil => cases h
    | cons b s =>
      obtain ⟨⟨taken, _⟩, htake, heq⟩ := Option.map_eq_some_iff.1 h
      cases heq
      obtain ⟨used, rfl, reads⟩ := ih s taken rest htake
      refine ⟨b :: used, rfl, fun rest => ?_⟩
      exact Option.map_eq_some_iff.2 ⟨_, reads rest, rfl⟩

theorem definite_nat (width : Nat) : Definite (readNat width) := (definite_take width).map toNat

theorem definite_int : Definite readInt := (definite_nat 8).map _

theorem definite_tag : Definite readTag := by
  refine (definite_nat 1).bind fun n => ?_
  split
  · exact .pure false
  · exact .pure true
  · exact .failure

theorem definite_string : Definite readString :=
  (definite_nat 8).bind fun n => (definite_take n).bind fun _ => .lift _

theorem definite_ulid : Definite readUlid := definite_string.bind fun _ => .lift _

/-! ### Options and lists -/

theorem definite_option {read : Reader α} (h : Definite read) : Definite (readOption read) := by
  refine definite_tag.bind fun b => ?_
  split
  · exact h.map some
  · exact .pure none

theorem definite_many {read : Reader α} (h : Definite read) (n : Nat) :
    Definite (readMany read n) := by
  induction n with
  | zero => exact .pure []
  | succ n ih => exact h.bind fun a => ih.map (a :: ·)

theorem definite_list {read : Reader α} (h : Definite read) : Definite (readList read) :=
  (definite_nat 8).bind (definite_many h)

theorem definite_case (cases : List α) : Definite (readCase cases) :=
  (definite_nat 4).bind fun _ => .lift _

/-! ### Rows -/

theorem definite_address : Definite readAddress :=
  definite_string.bind fun _ => definite_string.bind fun _ => definite_string.map _

theorem definite_parking : Definite readParking :=
  definite_ulid.bind fun _ => definite_address.bind fun _ =>
    (definite_list definite_ulid).bind fun _ => (definite_case _).bind fun _ =>
      (definite_nat 8).map _

theorem definite_sector : Definite readSector :=
  definite_ulid.bind fun _ => definite_ulid.bind fun _ => definite_string.bind fun _ =>
    (definite_case _).bind fun _ => (definite_nat 4).bind fun _ => (definite_nat 4).bind fun _ =>
      (definite_nat 4).bind fun _ => definite_tag.bind fun _ =>
        (definite_option definite_int).bind fun _ => (definite_nat 8).map _

theorem definite_span : Definite readSpan := definite_int.bind fun _ => definite_int.map _

theorem definite_reservation : Definite readReservation :=
  definite_ulid.bind fun _ => (definite_option definite_ulid).bind fun _ =>
    definite_ulid.bind fun _ => definite_ulid.bind fun _ => definite_span.bind fun _ =>
      (definite_case _).bind fun _ => definite_tag.bind fun _ =>
        (definite_option definite_string).bind fun _ => (definite_nat 8).map _

theorem definite_event : Definite readEvent :=
  definite_ulid.bind fun _ => definite_ulid.bind fun _ => definite_int.bind fun _ =>
    (definite_case _).bind fun _ => definite_tag.map _

/-! ### Commits -/

theorem definite_write : Definite readWrite := by
  refine (definite_nat 4).bind fun n => ?_
  split
  · exact definite_parking.map _
  · exact definite_ulid.map _
  · exact definite_sector.map _
  · exact definite_ulid.map _
  · exact definite_reservation.map _
  · exact definite_event.map _
  · exact .failure

theorem definite_commit : Definite readCommit := definite_list definite_write

theorem commit?_append {c : Commit} (h : c.Fits) (rest : List UInt8) :
    commit? (commit c ++ rest) = some c := by
  rw [commit?, reads_commit h rest]
  rfl

theorem commit?_take {c : Commit} (h : c.Fits) {n : Nat} (hn : n < (commit c).length) :
    commit? ((commit c).take n) = none := by
  cases hrun : readCommit.run ((commit c).take n) with
  | none => rw [commit?, hrun]; rfl
  | some result =>
    obtain ⟨d, rest⟩ := result
    obtain ⟨used, htake, reads⟩ := definite_commit _ _ _ hrun
    -- The same bytes lead the whole form, of which nothing may be left over.
    have whole : commit c = used ++ (rest ++ (commit c).drop n) := by
      rw [← List.append_assoc, ← htake, List.take_append_drop]
    have read := reads (rest ++ (commit c).drop n)
    have full := reads_commit h []
    rw [List.append_nil, whole, read] at full
    obtain ⟨-, nothing⟩ := List.append_eq_nil_iff.1 (congrArg Prod.snd (Option.some.inj full))
    rw [List.drop_eq_nil_iff] at nothing
    omega

end Carpark.Binary
