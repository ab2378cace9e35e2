import Carpark.Proofs.Definite

/-!
What has been read is written back as it stood, except for the texts of identifiers. These are
written in capitals, and with the two bits that they have beyond 128 cleared.
-/

namespace Carpark.Binary

variable {α β : Type}

/-! ### Layouts -/

/-- A stretch of a binary form: bytes that have to be so, or the 26 bytes of an identifier. -/
inductive Piece
  | bytes (b : List UInt8)
  | text (u : Ulid)

def textBytes (s : String) : List UInt8 := s.toByteArray.data.toList

/-- Laid out in these pieces, the first spells identifiers anyhow and the second properly. -/
inductive Respelled : List Piece → List UInt8 → List UInt8 → Prop
  | nil : Respelled [] [] []
  | bytes {l : List Piece} {s t : List UInt8} (b : List UInt8) (h : Respelled l s t) :
      Respelled (.bytes b :: l) (b ++ s) (b ++ t)
  | text {l : List Piece} {s t : List UInt8} {x : String} {u : Ulid} (h : Respelled l s t)
      (size : (textBytes x).length = 26) (number : Ulid.parse? x = some u) :
      Respelled (.text u :: l) (textBytes x ++ s) (textBytes u.text ++ t)

namespace Layout

def ulid (u : Ulid) : List Piece := [.bytes (nat 8 26), .text u]

def option (layout : α → List Piece) : Option α → List Piece
  | none => [.bytes (bool false)]
  | some a => .bytes (bool true) :: layout a

def list (layout : α → List Piece) (l : List α) : List Piece :=
  .bytes (nat 8 l.length) :: l.flatMap layout

def parking (p : Parking) : List Piece :=
  ulid p.id ++ .bytes (address p.address) :: list ulid p.sectors ++
    [.bytes (case Policy.all p.policy ++ nat 8 p.version)]

def sector (s : Sector) : List Piece :=
  ulid s.id ++ ulid s.parking ++ [.bytes (string s.name ++ case sectorKinds s.kind ++
    nat 4 s.maxPlaces ++ nat 4 s.availablePlaces ++ nat 4 s.weight ++ bool s.active ++
      Binary.option int s.deactivation ++ nat 8 s.version)]

def reservation (r : Reservation) : List Piece :=
  ulid r.id ++ option ulid r.client ++ ulid r.parking ++ ulid r.sector ++
    [.bytes (span r.window ++ case statuses r.status ++ bool r.booked ++
      Binary.option string r.code ++ nat 8 r.version)]

def event (e : GateEvent) : List Piece :=
  ulid e.id ++ ulid e.reservation ++ [.bytes (int e.time ++ case gateKinds e.kind ++ bool e.forced)]

def write : Write → List Piece
  | .putParking p => .bytes (nat 4 0) :: parking p
  | .deleteParking id => .bytes (nat 4 1) :: ulid id
  | .putSector s => .bytes (nat 4 2) :: sector s
  | .deleteSector id => .bytes (nat 4 3) :: ulid id
  | .putReservation r => .bytes (nat 4 4) :: reservation r
  | .appendEvent e => .bytes (nat 4 5) :: event e

def commit (c : Commit) : List Piece := list write c

end Layout

namespace Respelled

theorem same (b : List UInt8) : Respelled [.bytes b] b b := by
  simpa using Respelled.nil.bytes b

theorem append {l l' : List Piece} {s s' t t' : List UInt8} (h : Respelled l s t)
    (h' : Respelled l' s' t') : Respelled (l ++ l') (s ++ s') (t ++ t') := by
  induction h with
  | nil => exact h'
  | bytes b _ ih => simpa using ih.bytes b
  | text _ size number ih => simpa using ih.text size number

end Respelled

/-! ### What a reader takes -/

/-- Where the reader finds a value, the bytes that it takes are as the property says. -/
def Takes (read : Reader α) (P : α → List UInt8 → Prop) : Prop :=
  ∀ s a rest, read.run s = some (a, rest) → ∃ used, s = used ++ rest ∧ P a used

namespace Takes

variable {read : Reader α} {P : α → List UInt8 → Prop} {Q : β → List UInt8 → Prop}

theorem pure {a : α} (h : P a []) : Takes (Pure.pure a) P := by
  intro s b rest hrun
  cases hrun
  exact ⟨[], rfl, h⟩

theorem bind {f : α → Reader β} (h : Takes read P)
    (hf : ∀ a used, P a used → Takes (f a) fun b used' => Q b (used ++ used')) :
    Takes (read >>= f) Q := by
  intro s b rest hrun
  rw [StateT.run_bind] at hrun
  obtain ⟨⟨a, middle⟩, hread, hrest⟩ := Option.bind_eq_some_iff.1 hrun
  obtain ⟨used, rfl, ha⟩ := h _ _ _ hread
  obtain ⟨used', rfl, hb⟩ := hf a used ha _ _ _ hrest
  exact ⟨used ++ used', (List.append_assoc ..).symm, hb⟩

theorem map {f : α → β} (h : Takes read P) (hf : ∀ a used, P a used → Q (f a) used) :
    Takes (do return f (← read)) Q :=
  h.bind fun a used ha => pure (by simpa using hf a used ha)

theorem lift {o : Option α} (h : ∀ a, o = some a → P a []) : Takes (liftM o : Reader α) P := by
  cases o with
  | none =>
    intro s a rest hrun
    cases hrun
  | some a => exact pure (h a rfl)

theorem failure : Takes (Alternative.failure : Reader α) P :=
  lift (o := none) nofun

end Takes

/-! ### Numbers and texts -/

theorem takes_take (n : Nat) :
    Takes (take n) fun bytes used => used = bytes ∧ bytes.length = n := by
  intro s
  induction n generalizing s with
  | zero =>
    intro bytes rest h
    cases h
    exact ⟨[], rfl, rfl, rfl⟩
  | succ n ih =>
    intro bytes rest h
    cases s with
    | nil => cases h
    | cons b s =>
      obtain ⟨⟨taken, _⟩, htake, heq⟩ := Option.map_eq_some_iff.1 h
      cases heq
      obtain ⟨used, rfl, rfl, rfl⟩ := ih s taken rest htake
      exact ⟨b :: used, rfl, rfl, rfl⟩

theorem takes_nat (width : Nat) :
    Takes (readNat width) fun n used => n < 256 ^ width ∧ used = nat width n := by
  refine (takes_take width).map fun bytes used h => ?_
  obtain ⟨rfl, rfl⟩ := h
  exact ⟨toNat_lt used, (nat_toNat used).symm⟩

theorem takes_int : Takes readInt fun n used => FitsInt n ∧ used = int n := by
  refine (takes_nat 8).map fun m used h => ?_
  obtain ⟨small, rfl⟩ := h
  have small : m < 0x1_0000_0000_0000_0000 := small
  have value : ((if m < 0x8000_0000_0000_0000 then (m : Int)
      else (m : Int) - 0x1_0000_0000_0000_0000) % 0x1_0000_0000_0000_0000).toNat = m := by
    split <;> omega
  refine ⟨?_, by rw [int, value]⟩
  unfold FitsInt
  split <;> omega

theorem takes_tag : Takes readTag fun b used => used = bool b := by
  refine (takes_nat 1).bind fun n used h => ?_
  obtain ⟨-, rfl⟩ := h
  split
  · exact .pure (List.append_nil _)
  · exact .pure (List.append_nil _)
  · exact .failure

theorem takes_string : Takes readString fun s used => FitsText s ∧ used = string s := by
  refine (takes_nat 8).bind fun n used h => (takes_take n).bind fun bytes used' h' => .lift ?_
  obtain ⟨small, rfl⟩ := h
  obtain ⟨rfl, rfl⟩ := h'
  intro s hs
  have bytes : s.toByteArray = ⟨used'.toArray⟩ := by
    rw [String.fromUTF8?] at hs
    split at hs
    · cases hs; rfl
    · cases hs
  have size : s.toByteArray.size = used'.length := by rw [bytes]; rfl
  refine ⟨?_, ?_⟩
  · rw [FitsText, ← String.size_toByteArray, size]
    exact small
  · rw [string, size, bytes, List.append_nil]

theorem takes_case [DecidableEq α] {cases : List α} (nodup : cases.Nodup) :
    Takes (readCase cases) fun a used => used = case cases a := by
  refine (takes_nat 4).bind fun n used h => .lift fun a ha => ?_
  obtain ⟨-, rfl⟩ := h
  obtain ⟨hn, rfl⟩ := List.getElem?_eq_some_iff.1 ha
  rw [List.append_nil, case, nodup.idxOf_getElem]

/-! ### Identifiers -/

theorem utf8Size_of_digit {c : Char} {d : Nat} (h : Ulid.digitValue? c = some d) :
    c.utf8Size = 1 := by
  have ascii : Ulid.alphabet.all (·.val ≤ 127) = true := rfl
  obtain ⟨hd, found, -⟩ := List.findIdx?_eq_some_iff_getElem.1 h
  have upper : c.toUpper.val ≤ 127 := by
    rw [← beq_iff_eq.1 found]
    exact of_decide_eq_true (List.all_eq_true.1 ascii _ (List.getElem_mem hd))
  rw [Char.utf8Size_eq_one_iff]
  unfold Char.toUpper at upper
  split at upper
  · rename_i lower
    exact UInt32.le_trans lower.2 (by decide)
  · exact upper

theorem utf8ByteSize_of_digits {l : List Char} {ds : List Nat}
    (h : l.mapM Ulid.digitValue? = some ds) : (String.ofList l).utf8ByteSize = l.length := by
  induction l generalizing ds with
  | nil => rfl
  | cons c l ih =>
    rw [List.mapM_cons] at h
    obtain ⟨d, hd, h⟩ := Option.bind_eq_some_iff.1 h
    obtain ⟨ds, hds, -⟩ := Option.bind_eq_some_iff.1 h
    rw [String.ofList_cons, String.utf8ByteSize_append, String.utf8ByteSize_singleton,
      utf8Size_of_digit hd, ih hds, List.length_cons, Nat.add_comm]

theorem length_textBytes_of_parse? {s : String} {u : Ulid} (h : Ulid.parse? s = some u) :
    (textBytes s).length = 26 := by
  rw [Ulid.parse?] at h
  split at h
  · rename_i length
    obtain ⟨ds, hds, -⟩ := Option.map_eq_some_iff.1 h
    have size := utf8ByteSize_of_digits hds
    rw [String.ofList_toList, length] at size
    rw [textBytes, Array.length_toList, ← ByteArray.size, String.size_toByteArray, size]
  · cases h

theorem string_of_parse? {s : String} {u : Ulid} (h : Ulid.parse? s = some u) :
    string s = nat 8 26 ++ textBytes s := by
  rw [string, ← ByteArray.size_data, ← Array.length_toList]
  exact congrArg (fun n => nat 8 n ++ textBytes s) (length_textBytes_of_parse? h)

theorem Respelled.ulid {s : String} {u : Ulid} (h : Ulid.parse? s = some u) :
    Respelled (Layout.ulid u) (string s) (Binary.ulid u) := by
  rw [Binary.ulid, string_of_parse? h, string_of_parse? (parse?_text u)]
  simpa [Layout.ulid] using (Respelled.nil.text (length_textBytes_of_parse? h) h).bytes (nat 8 26)

theorem Respelled.length {l : List Piece} {s t : List UInt8} (h : Respelled l s t) :
    s.length = t.length := by
  induction h with
  | nil => rfl
  | bytes b _ ih => rw [List.length_append, List.length_append, ih]
  | @text l s t x u _ size _ ih =>
    have proper := length_textBytes_of_parse? (parse?_text u)
    rw [List.length_append, List.length_append, size, proper, ih]

theorem takes_ulid : Takes readUlid fun u used => Respelled (Layout.ulid u) used (ulid u) := by
  refine takes_string.bind fun s used h => .lift fun u hu => ?_
  obtain ⟨-, rfl⟩ := h
  rw [List.append_nil]
  exact .ulid hu

/-! ### Options and lists -/

theorem takes_option {read : Reader α} {P : α → List UInt8 → Prop}
    {Q : Option α → List UInt8 → Prop} (h : Takes read P) (unset : Q none (bool false))
    (set : ∀ a used, P a used → Q (some a) (bool true ++ used)) : Takes (readOption read) Q := by
  refine takes_tag.bind fun b used hb => ?_
  subst hb
  cases b with
  | false => exact .pure (by simpa using unset)
  | true => exact h.map set

theorem takes_option_plain {read : Reader α} {write : α → List UInt8} {fits : α → Prop}
    (h : Takes read fun a used => fits a ∧ used = write a) :
    Takes (readOption read) fun o used => (∀ a, o = some a → fits a) ∧ used = option write o := by
  refine takes_option h ⟨nofun, rfl⟩ fun a used ha => ?_
  exact ⟨fun _ heq => Option.some.inj heq ▸ ha.1, congrArg (bool true ++ ·) ha.2⟩

theorem takes_many {read : Reader α} {write : α → List UInt8} {layout : α → List Piece}
    {fits : α → Prop} (h : Takes read fun a used => fits a ∧ Respelled (layout a) used (write a))
    (n : Nat) :
    Takes (readMany read n) fun l used => l.length = n ∧ (∀ a ∈ l, fits a) ∧
      Respelled (l.flatMap layout) used (l.flatMap write) := by
  induction n with
  | zero => exact .pure ⟨rfl, by simp, .nil⟩
  | succ n ih =>
    refine h.bind fun a used ha => ih.map fun l used' hl => ?_
    obtain ⟨rfl, fits, respelled⟩ := hl
    exact ⟨rfl, List.forall_mem_cons.2 ⟨ha.1, fits⟩, ha.2.append respelled⟩

theorem takes_list {read : Reader α} {write : α → List UInt8} {layout : α → List Piece}
    {fits : α → Prop} (h : Takes read fun a used => fits a ∧ Respelled (layout a) used (write a)) :
    Takes (readList read) fun l used => (l.length < 2 ^ 64 ∧ ∀ a ∈ l, fits a) ∧
      Respelled (Layout.list layout l) used (list write l) := by
  refine (takes_nat 8).bind fun n used hn => ?_
  obtain ⟨small, rfl⟩ := hn
  intro s l rest hrun
  obtain ⟨used, hs, rfl, fits, respelled⟩ := takes_many h n s l rest hrun
  exact ⟨used, hs, ⟨small, fits⟩, respelled.bytes _⟩

/-! ### Rows -/

theorem takes_address : Takes readAddress fun a used => a.Fits ∧ used = address a := by
  refine takes_string.bind fun city _ hcity => takes_string.bind fun zip _ hzip =>
    takes_string.map fun street _ hstreet => ?_
  obtain ⟨city, rfl⟩ := hcity
  obtain ⟨zip, rfl⟩ := hzip
  obtain ⟨street, rfl⟩ := hstreet
  exact ⟨⟨city, zip, street⟩, by simp only [address, List.append_assoc]⟩

theorem takes_ulids : Takes (readList readUlid) fun l used => (l.length < 2 ^ 64 ∧ ∀ u ∈ l, True) ∧
    Respelled (Layout.list Layout.ulid l) used (list ulid l) :=
  takes_list fun s u rest h => (takes_ulid s u rest h).imp fun _ h => ⟨h.1, trivial, h.2⟩

theorem takes_parking : Takes readParking fun p used =>
    p.Fits ∧ Respelled (Layout.parking p) used (parking p) := by
  refine takes_ulid.bind fun id _ hid => takes_address.bind fun a _ ha =>
    takes_ulids.bind fun l _ hl => (takes_case (by decide)).bind fun policy _ hpolicy =>
      (takes_nat 8).map fun version _ hversion => ?_
  obtain ⟨ha, rfl⟩ := ha
  obtain ⟨hversion, rfl⟩ := hversion
  subst hpolicy
  refine ⟨⟨ha, hl.1.1, hversion⟩, ?_⟩
  simpa [Layout.parking, parking] using
    hid.append ((Respelled.same _).append (hl.2.append (.same _)))

theorem takes_sector : Takes readSector fun s used =>
    s.Fits ∧ Respelled (Layout.sector s) used (sector s) := by
  refine takes_ulid.bind fun id _ hid => takes_ulid.bind fun parking _ hparking =>
    takes_string.bind fun name _ hname => (takes_case (by decide)).bind fun kind _ hkind =>
      (takes_nat 4).bind fun most _ hmost => (takes_nat 4).bind fun free _ hfree =>
        (takes_nat 4).bind fun weight _ hweight => takes_tag.bind fun active _ hactive =>
          (takes_option_plain takes_int).bind fun time _ htime =>
            (takes_nat 8).map fun version _ hversion => ?_
  obtain ⟨hname, rfl⟩ := hname
  obtain ⟨hmost, rfl⟩ := hmost
  obtain ⟨hfree, rfl⟩ := hfree
  obtain ⟨hweight, rfl⟩ := hweight
  obtain ⟨htime, rfl⟩ := htime
  obtain ⟨hversion, rfl⟩ := hversion
  subst hkind hactive
  refine ⟨⟨hname, hmost, hfree, hweight, htime, hversion⟩, ?_⟩
  simpa [Layout.sector, sector] using hid.append (hparking.append (.same _))

theorem takes_span : Takes readSpan fun w used =>
    (FitsInt w.start ∧ FitsInt w.stop) ∧ used = span w := by
  refine takes_int.bind fun start _ hstart => takes_int.map fun stop _ hstop => ?_
  obtain ⟨hstart, rfl⟩ := hstart
  obtain ⟨hstop, rfl⟩ := hstop
  exact ⟨⟨hstart, hstop⟩, rfl⟩

theorem takes_reservation : Takes readReservation fun r used =>
    r.Fits ∧ Respelled (Layout.reservation r) used (reservation r) := by
  have client : Takes (readOption readUlid) fun o used =>
      Respelled (Layout.option Layout.ulid o) used (option ulid o) :=
    takes_option takes_ulid (.same _) fun _ _ h => h.bytes _
  refine takes_ulid.bind fun id _ hid => client.bind fun client _ hclient =>
    takes_ulid.bind fun parking _ hparking => takes_ulid.bind fun sector _ hsector =>
      takes_span.bind fun window _ hwindow => (takes_case (by decide)).bind fun status _ hstatus =>
        takes_tag.bind fun booked _ hbooked =>
          (takes_option_plain takes_string).bind fun code _ hcode =>
            (takes_nat 8).map fun version _ hversion => ?_
  obtain ⟨hwindow, rfl⟩ := hwindow
  obtain ⟨hcode, rfl⟩ := hcode
  obtain ⟨hversion, rfl⟩ := hversion
  subst hstatus hbooked
  refine ⟨⟨hwindow.1, hwindow.2, hcode, hversion⟩, ?_⟩
  simpa [Layout.reservation, reservation] using
    hid.append (hclient.append (hparking.append (hsector.append (.same _))))

theorem takes_event : Takes readEvent fun e used =>
    e.Fits ∧ Respelled (Layout.event e) used (event e) := by
  refine takes_ulid.bind fun id _ hid => takes_ulid.bind fun reservation _ hreservation =>
    takes_int.bind fun time _ htime => (takes_case (by decide)).bind fun kind _ hkind =>
      takes_tag.map fun forced _ hforced => ?_
  obtain ⟨htime, rfl⟩ := htime
  subst hkind hforced
  refine ⟨htime, ?_⟩
  simpa [Layout.event, event] using hid.append (hreservation.append (.same _))

/-! ### Commits -/

theorem takes_write : Takes readWrite fun w used =>
    w.Fits ∧ Respelled (Layout.write w) used (write w) := by
  refine (takes_nat 4).bind fun n used hn => ?_
  obtain ⟨-, rfl⟩ := hn
  split
  · exact takes_parking.map fun _ _ h => ⟨h.1, h.2.bytes _⟩
  · exact takes_ulid.map fun _ _ h => ⟨trivial, h.bytes _⟩
  · exact takes_sector.map fun _ _ h => ⟨h.1, h.2.bytes _⟩
  · exact takes_ulid.map fun _ _ h => ⟨trivial, h.bytes _⟩
  · exact takes_reservation.map fun _ _ h => ⟨h.1, h.2.bytes _⟩
  · exact takes_event.map fun _ _ h => ⟨h.1, h.2.bytes _⟩
  · exact .failure

theorem takes_commit : Takes readCommit fun c used =>
    c.Fits ∧ Respelled (Layout.commit c) used (commit c) :=
  takes_list takes_write

/-- Forms of commits delimit themselves, and are unique but for the spelling of identifiers. -/
theorem commit_roundtrip :
    (∀ (c : Commit) (t : List UInt8), c.Fits →
      readCommit.run (commit c ++ t) = some (c, t) ∧ commit? (commit c ++ t) = some c) ∧
    ∀ (p : List UInt8) (c : Commit), commit? p = some c →
      c.Fits ∧ ∃ used rest, p = used ++ rest ∧ readCommit.run p = some (c, rest) ∧
        used.length = (commit c).length ∧ Respelled (Layout.commit c) used (commit c) := by
  refine ⟨fun c t h => ⟨reads_commit h t, commit?_append h t⟩, fun p c h => ?_⟩
  obtain ⟨⟨_, rest⟩, hrun, rfl⟩ := Option.map_eq_some_iff.1 h
  obtain ⟨used, hp, fits, respelled⟩ := takes_commit p _ rest hrun
  exact ⟨fits, used, rest, hp, hrun, respelled.length, respelled⟩

def lowerCase : List UInt8 :=
  nat 8 1 ++ nat 4 3 ++ string "8000000000000000000000000a"

theorem commit_roundtrip_lowerCase :
    commit? (commit [.deleteSector ⟨10, by decide⟩] ++ [7]) =
      some [.deleteSector ⟨10, by decide⟩] ∧
    ∃ used rest, lowerCase ++ [7] = used ++ rest ∧
      Respelled (Layout.commit [.deleteSector ⟨10, by decide⟩]) used
        (commit [.deleteSector ⟨10, by decide⟩]) := by
  refine ⟨(commit_roundtrip.1 _ [7] (by decide)).2, ?_⟩
  obtain ⟨-, used, rest, hp, -, -, respelled⟩ :=
    commit_roundtrip.2 (lowerCase ++ [7]) [.deleteSector ⟨10, by decide⟩] (by decide +kernel)
  exact ⟨used, rest, hp, respelled⟩

end Carpark.Binary
