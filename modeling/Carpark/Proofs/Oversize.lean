import Carpark.Proofs.Intact
import Carpark.Proofs.Sizes

/-!
The limit of a frame is checked where it is read and not where it is written. A commit over it is
taken on by the log and acknowledged; it is then cut off like a frame that a crash has cut short,
or, with anything behind it, the whole log is refused.
-/

namespace Carpark

namespace Frame

variable {file : ByteArray} {pos : Nat} {c : Commit} {rest : List UInt8}

theorem nat_mod_eq (n : Nat) : Binary.nat 4 (n % 2 ^ 32) = Binary.nat 4 n := by
  have same := Binary.nat_toNat (Binary.nat 4 n)
  rwa [Binary.length_nat, Binary.toNat_nat] at same

theorem size_of_drop_encode (h : file.data.toList.drop pos = encode c ++ rest) :
    file.size = pos + 8 + (Binary.commit c).length + rest.length := by
  have length := length_drop_toList file pos
  rw [h, List.length_append, length_encode] at length
  omega

theorem not_sealed_of_over (hword : word file pos = (Binary.commit c).length)
    (hover : mostBytes < (Binary.commit c).length) : ¬ Sealed file pos := by
  rintro ⟨allowed, -⟩
  omega

theorem read_over_last (h : file.data.toList.drop pos = encode c ++ [])
    (hover : mostBytes < (Binary.commit c).length) (hlt : (Binary.commit c).length < 2 ^ 32) :
    read file pos = .torn := by
  have size := size_of_drop_encode h
  rw [encode_eq, List.append_assoc] at h
  have word := word_eq h hlt
  exact read_of_last (by rw [word, size]; rfl) (not_sealed_of_over word hover)

/-- Any other frame over the limit is a fault. A length that does not fit its four bytes comes out
smaller than the form. -/
theorem read_over (h : file.data.toList.drop pos = encode c ++ rest) (hc : c.Fits)
    (hover : mostBytes < (Binary.commit c).length)
    (hrest : 2 ^ 32 ≤ (Binary.commit c).length ∨ rest ≠ []) :
    ∃ fault, read file pos = .faulty fault := by
  have size := size_of_drop_encode h
  rw [encode_eq, List.append_assoc] at h
  by_cases wide : 2 ^ 32 ≤ (Binary.commit c).length
  · have small : (Binary.commit c).length % 2 ^ 32 < 2 ^ 32 := Nat.mod_lt _ (by decide)
    rw [← nat_mod_eq] at h
    exact read_shortened h hc small (Nat.lt_of_lt_of_le small wide)
  · have word := word_eq h (Nat.not_le.1 wide)
    have more := List.length_pos_iff.2 (hrest.resolve_left wide)
    exact read_of_not_sealed (by omega) (not_sealed_of_over word hover)

end Frame

namespace Replay

variable {file : ByteArray} {kept rest : List UInt8} {cs ds : List Commit} {c : Commit}

section

variable (hkept : Framed kept cs) (h : file.data.toList = kept ++ (Frame.encode c ++ rest))
  (hover : Frame.mostBytes < (Binary.commit c).length)

include hkept h hover

theorem ofFile_over_last (hrest : rest = []) (hlt : (Binary.commit c).length < 2 ^ 32) :
    ofFile file = .ok ⟨cs, kept.length⟩ := by
  subst hrest
  have read := Frame.read_over_last (by rw [h, List.drop_left' rfl]) hover hlt
  rw [ofFile_framed hkept h, scan, read]
  simp [Except.map]

theorem ofFile_over (hc : c.Fits) (hrest : 2 ^ 32 ≤ (Binary.commit c).length ∨ rest ≠ []) :
    ∃ cause, ofFile file = .error ⟨cause, cs.length, kept.length⟩ := by
  obtain ⟨cause, read⟩ := Frame.read_over (by rw [h, List.drop_left' rfl]) hc hover hrest
  refine ⟨cause, ?_⟩
  rw [ofFile_framed hkept h, scan, read]
  rfl

end

/-! ### Commits behind others -/

/-- The commit `d` is the first one of them that is over the limit. -/
structure FirstOver (ds before : List Commit) (d : Commit) (after : List Commit) : Prop where
  split : ds = before ++ d :: after
  before : ∀ b ∈ before, (Binary.commit b).length ≤ Frame.mostBytes
  large : Frame.mostBytes < (Binary.commit d).length

theorem exists_firstOver (h : ¬ ∀ d ∈ ds, (Binary.commit d).length ≤ Frame.mostBytes) :
    ∃ before d after, FirstOver ds before d after := by
  induction ds with
  | nil => exact absurd (List.forall_mem_nil _) h
  | cons d ds ih =>
    by_cases beyond : Frame.mostBytes < (Binary.commit d).length
    · exact ⟨[], d, ds, rfl, List.forall_mem_nil _, beyond⟩
    · have small := Nat.not_lt.1 beyond
      obtain ⟨before, d', after, first⟩ := ih fun all => h (List.forall_mem_cons.2 ⟨small, all⟩)
      exact ⟨d :: before, d', after, by rw [first.split]; rfl,
        List.forall_mem_cons.2 ⟨small, first.before⟩, first.large⟩

/-- All commits come back exactly if none is over the limit. The first that is over it is cut off if
it stands last and its length fits four bytes; otherwise the file is refused. -/
structure ReadBack (file : ByteArray) (start : Nat) (cs ds : List Commit) : Prop where
  whole : ofFile file = .ok ⟨cs ++ ds, file.size⟩ ↔
    ∀ d ∈ ds, (Binary.commit d).length ≤ Frame.mostBytes
  cut : ∀ before d, FirstOver ds before d [] → (Binary.commit d).length < 2 ^ 32 →
    ofFile file = .ok ⟨cs ++ before, start + (LogWriter.fileOf before).size⟩
  refused : ∀ before d after, FirstOver ds before d after →
    2 ^ 32 ≤ (Binary.commit d).length ∨ after ≠ [] →
    ∃ cause, ofFile file =
      .error ⟨cause, (cs ++ before).length, start + (LogWriter.fileOf before).size⟩

section

variable (hkept : Framed kept cs) (h : file.data.toList = kept ++ ds.flatMap Frame.encode)
  (hds : ∀ d ∈ ds, d.Fits)

include hkept h hds

theorem framed_before {before after : List Commit} {d : Commit}
    (first : FirstOver ds before d after) :
    Framed (kept ++ before.flatMap Frame.encode) (cs ++ before) ∧
      file.data.toList = kept ++ before.flatMap Frame.encode ++
        (Frame.encode d ++ after.flatMap Frame.encode) ∧
      (kept ++ before.flatMap Frame.encode).length =
        kept.length + (LogWriter.fileOf before).size := by
  have readable : ∀ b ∈ before, b.Readable := fun b hb =>
    ⟨hds b (first.split ▸ List.mem_append_left _ hb), first.before b hb⟩
  refine ⟨hkept.append (framed_encode readable), ?_, ?_⟩
  · rw [h, first.split, List.flatMap_append, List.flatMap_cons, List.append_assoc]
  · rw [List.length_append, LogWriter.size_fileOf]

theorem ofFile_cut {before : List Commit} {d : Commit} (first : FirstOver ds before d [])
    (hlt : (Binary.commit d).length < 2 ^ 32) :
    ofFile file = .ok ⟨cs ++ before, kept.length + (LogWriter.fileOf before).size⟩ := by
  obtain ⟨framed, bytes, size⟩ := framed_before hkept h hds first
  rw [← size]
  exact ofFile_over_last framed bytes first.large rfl hlt

theorem ofFile_refused {before after : List Commit} {d : Commit}
    (first : FirstOver ds before d after)
    (hafter : 2 ^ 32 ≤ (Binary.commit d).length ∨ after ≠ []) :
    ∃ cause, ofFile file =
      .error ⟨cause, (cs ++ before).length, kept.length + (LogWriter.fileOf before).size⟩ := by
  obtain ⟨framed, bytes, size⟩ := framed_before hkept h hds first
  have fits : d.Fits := hds d (first.split ▸ List.mem_append_right _ List.mem_cons_self)
  rw [← size]
  refine ofFile_over framed bytes first.large fits (hafter.imp_right fun more => ?_)
  obtain ⟨d', after', rfl⟩ := List.exists_cons_of_ne_nil more
  rw [List.flatMap_cons]
  refine List.append_ne_nil_of_left_ne_nil (List.ne_nil_of_length_pos ?_) _
  rw [Frame.length_encode]
  omega

theorem readBack : ReadBack file kept.length cs ds := by
  refine ⟨⟨fun read => ?_, fun small => ?_⟩, fun _ _ first => ofFile_cut hkept h hds first,
    fun _ _ _ first => ofFile_refused hkept h hds first⟩
  · by_contra large
    obtain ⟨before, d, after, first⟩ := exists_firstOver large
    by_cases last : after = [] ∧ (Binary.commit d).length < 2 ^ 32
    · obtain ⟨rfl, hlt⟩ := last
      have cut := ofFile_cut hkept h hds first hlt
      rw [read, first.split] at cut
      simp at cut
    · rw [not_and_or, Nat.not_lt] at last
      obtain ⟨cause, refused⟩ := ofFile_refused hkept h hds first last.symm
      cases read.symm.trans refused
  · rw [ofFile_eq_ok_size, h]
    exact hkept.append (framed_encode fun d hd => ⟨hds d hd, small d hd⟩)

end

/-- The log reads back what it has acknowledged exactly if all forms are within the limit. -/
theorem read_back {f : LogFile} (intact : ofFile f.bytes = .ok ⟨cs, f.bytes.size⟩)
    (flushed : f.writer.buffer = .empty) (hds : ∀ d ∈ ds, d.Fits) :
    ReadBack (ds.foldl LogFile.append f).flush.bytes f.bytes.size cs ds ∧
      ((f.replace ds).1 = .done → ReadBack (f.replace ds).2.bytes 0 [] ds) := by
  constructor
  · have framed := ofFile_eq_ok_size.1 intact
    rw [size_eq_length]
    refine readBack framed ?_ hds
    obtain ⟨-, bytes⟩ :=
      LogWriter.total_flush (ds.foldl LogFile.append f).writer (ds.foldl LogFile.append f).bytes
    have total := LogFile.total_foldl_append f ds
    rw [← bytes] at total
    refine total.trans ?_
    rw [LogWriter.total, flushed]
    simp
  · intro done
    rw [LogFile.replace] at done ⊢
    split at done
    · cases done
    · rw [if_neg (by assumption)]
      exact readBack .nil rfl hds

end Replay

/-! ### Opening a store -/

namespace Store

variable {cs : List Commit} {obstructed : Bool} {store : Store} {r : Replay}

theorem ofFile_fileOf (hcs : ∀ c ∈ cs, c.Readable) (obstructed : Bool) :
    ofFile obstructed (LogWriter.fileOf cs) =
      .ok (⟨.ofCommits cs, .opened obstructed (LogWriter.fileOf cs)⟩,
        ⟨cs, (LogWriter.fileOf cs).size⟩) := by
  rw [ofFile, Replay.ofFile_fileOf hcs]
  simp [Except.map, Replay.rest]

theorem ofFile_cut (hcs : ∀ c ∈ cs, c.Fits) {before : List Commit} {d : Commit}
    (first : Replay.FirstOver cs before d []) (hlt : (Binary.commit d).length < 2 ^ 32)
    (obstructed : Bool) :
    ofFile obstructed (LogWriter.fileOf cs) =
      .ok (⟨.ofCommits before, .opened obstructed (LogWriter.fileOf before)⟩,
        ⟨before, (LogWriter.fileOf before).size⟩) := by
  have bytes : (LogWriter.fileOf cs).data.toList = [] ++ cs.flatMap Frame.encode := rfl
  have split : (LogWriter.fileOf cs).data.toList =
      before.flatMap Frame.encode ++ Frame.encode d := by
    rw [bytes, first.split, List.nil_append, List.flatMap_append, List.flatMap_cons,
      List.flatMap_nil, List.append_nil]
  have cut := Replay.ofFile_cut .nil bytes hcs first hlt
  rw [List.nil_append, List.length_nil, Nat.zero_add] at cut
  rw [ofFile, cut, Except.map, Replay.rest_frames split]

theorem ofFile_cases (hcs : ∀ c ∈ cs, c.Fits)
    (h : ofFile obstructed (LogWriter.fileOf cs) = .ok (store, r)) :
    store = ⟨.ofCommits r.commits, .opened obstructed (LogWriter.fileOf r.commits)⟩ ∧
      (∀ c ∈ r.commits, c.Readable) ∧ (cs = r.commits ∨ ∃ d, cs = r.commits ++ [d] ∧
        Frame.mostBytes < (Binary.commit d).length) := by
  have bytes : (LogWriter.fileOf cs).data.toList = [] ++ cs.flatMap Frame.encode := rfl
  by_cases small : ∀ c ∈ cs, (Binary.commit c).length ≤ Frame.mostBytes
  · have readable : ∀ c ∈ cs, c.Readable := fun c hc => ⟨hcs c hc, small c hc⟩
    cases h.symm.trans (ofFile_fileOf readable obstructed)
    exact ⟨rfl, readable, .inl rfl⟩
  obtain ⟨before, d, after, first⟩ := Replay.exists_firstOver small
  by_cases last : after = [] ∧ (Binary.commit d).length < 2 ^ 32
  · obtain ⟨rfl, hlt⟩ := last
    cases h.symm.trans (ofFile_cut hcs first hlt obstructed)
    refine ⟨rfl, fun c hc => ⟨hcs c ?_, first.before c hc⟩, .inr ⟨d, first.split, first.large⟩⟩
    exact first.split ▸ List.mem_append_left _ hc
  · rw [not_and_or, Nat.not_lt] at last
    obtain ⟨cause, refused⟩ := Replay.ofFile_refused .nil bytes hcs first last.symm
    rw [ofFile, refused] at h
    cases h

end Store

namespace Replay

variable {cs ds : List Commit}

/-! ### Commits that are over the limit -/

theorem length_commit_replicate (w : Write) (n : Nat) :
    (Binary.commit (List.replicate n w)).length = 8 + n * (Binary.write w).length := by
  rw [Binary.commit, Binary.length_list, Binary.length_flatMap_replicate]

theorem fits_replicate {w : Write} (hw : w.Fits) {n : Nat} (hn : n < 2 ^ 64) :
    Commit.Fits (List.replicate n w) :=
  ⟨by rwa [List.length_replicate], fun _ h => List.eq_of_mem_replicate h ▸ hw⟩

theorem read_back_two_million :
    let first : Commit :=
      [.putParking ⟨.ofNat 1, ⟨"Rome", "00100", "Corso 1"⟩, [], .leastOccupied, 1⟩]
    let large : Commit := List.replicate 2000000 (.deleteParking (.ofNat 1))
    let f : LogFile := .opened false (LogWriter.fileOf [first])
    first.Readable ∧ large.Fits ∧ f.writer.buffer = .empty ∧
      ofFile f.bytes = .ok ⟨[first], f.bytes.size⟩ ∧
      ofFile (f.append large).flush.bytes = .ok ⟨[first], f.bytes.size⟩ ∧
      (f.replace [first]).1 = .done ∧
      ofFile (f.replace [first]).2.bytes = .ok ⟨[first], (f.replace [first]).2.bytes.size⟩ := by
  intro first large f
  have readable : first.Readable := by decide
  have fits : large.Fits :=
    fits_replicate (w := .deleteParking (.ofNat 1)) trivial (by decide)
  have one : (Binary.write (.deleteParking (.ofNat 1))).length = 38 := by decide
  have length : (Binary.commit large).length = 8 + 2000000 * 38 :=
    one ▸ length_commit_replicate _ _
  clear_value large
  have intact : ofFile f.bytes = .ok ⟨[first], f.bytes.size⟩ :=
    ofFile_fileOf (by simp [readable])
  obtain ⟨appended, -⟩ := read_back intact rfl (List.forall_mem_singleton.2 fits)
  obtain ⟨-, replaced⟩ := read_back intact rfl (List.forall_mem_singleton.2 readable.fits)
  have oversized : FirstOver [large] [] large [] :=
    ⟨rfl, List.forall_mem_nil _, by rw [length]; decide⟩
  have lost := appended.cut [] large oversized (by rw [length]; decide)
  rw [List.foldl_cons, List.foldl_nil, List.append_nil] at lost
  exact ⟨readable, fits, rfl, intact, lost, rfl,
    (replaced rfl).whole.2 (by simp [readable.length])⟩

/-! ### A store that cannot be opened again -/

namespace Crowd

variable (n : Nat) (name : String)

def parking : Parking :=
  ⟨.ofNat 1, ⟨"Rome", "00100", "Corso 1"⟩, List.replicate n (.ofNat 2), .leastOccupied, 1⟩

def sector : Sector := ⟨.ofNat 2, .ofNat 1, name, .covered, 1, 1, 1, true, none, 1⟩

def reservation : Reservation :=
  ⟨.ofNat 3, none, .ofNat 1, .ofNat 2, ⟨0, 10⟩, .created, true, none, 1⟩

def rows : Commit :=
  [.putParking (parking n), .putSector (sector name), .putReservation reservation]

theorem snapshot_rows : (Tables.ofCommits [rows n name]).snapshot =
    [.putParking (parking n) :: List.replicate n (.putSector (sector name)),
      [.putReservation reservation]] := by
  generalize ht : Tables.ofCommits [rows n name] = t
  have parkings : t.parkings.values = [parking n] := ht ▸ rfl
  have reservations : t.reservations.values = [reservation] := ht ▸ rfl
  have found : t.sectors.get? (.ofNat 2) = some (sector name) := ht ▸ rfl
  have events : t.eventsOf reservation.id = [] := ht ▸ rfl
  have sectors : t.sectorsOf (parking n) = List.replicate n (sector name) := by
    rw [Tables.sectorsOf, parking, List.filterMap_replicate_of_some found]
  rw [Tables.snapshot, parkings, reservations, List.map_singleton, List.map_singleton, sectors,
    events, List.map_replicate, List.map_nil, List.singleton_append]

theorem length_parking : (Binary.write (.putParking (parking n))).length = 98 + n * 34 := by
  have first : (Binary.ulid (.ofNat 1)).length = 34 := by decide
  have second : (Binary.ulid (.ofNat 2)).length = 34 := by decide
  have address : (Binary.address ⟨"Rome", "00100", "Corso 1"⟩).length = 40 := by decide
  simp only [Binary.write, Binary.parking, Binary.case, parking, List.length_append,
    Binary.length_nat, Binary.length_list, Binary.length_flatMap_replicate, first, second, address]
  omega

theorem length_sector :
    (Binary.write (.putSector (sector name))).length = 106 + name.utf8ByteSize := by
  have first : (Binary.ulid (.ofNat 1)).length = 34 := by decide
  have second : (Binary.ulid (.ofNat 2)).length = 34 := by decide
  simp only [Binary.write, Binary.sector, Binary.case, Binary.bool, Binary.option, sector,
    List.length_append, Binary.length_nat, Binary.length_string, first, second]
  omega

theorem length_reservation : (Binary.write (.putReservation reservation)).length = 137 := by
  have ids : (Binary.ulid (.ofNat 1)).length = 34 ∧ (Binary.ulid (.ofNat 2)).length = 34 ∧
      (Binary.ulid (.ofNat 3)).length = 34 := by decide
  simp only [Binary.write, Binary.reservation, Binary.case, Binary.bool, Binary.option, Binary.span,
    Binary.int, reservation, List.length_append, Binary.length_nat, ids]

theorem length_rows : (Binary.commit (rows n name)).length = 349 + n * 34 + name.utf8ByteSize := by
  simp only [Binary.commit, Binary.length_list, rows, List.flatMap_cons, List.flatMap_nil,
    List.length_append, List.length_nil, length_parking, length_sector, length_reservation]
  omega

theorem length_snapshot :
    (Binary.commit
        (.putParking (parking n) :: List.replicate n (.putSector (sector name)))).length =
      106 + n * 34 + n * (106 + name.utf8ByteSize) := by
  simp only [Binary.commit, Binary.length_list, List.flatMap_cons, List.length_append,
    Binary.length_flatMap_replicate, length_parking, length_sector]
  omega

variable {n name}

theorem fits_parking (hn : n < 2 ^ 64) : (parking n).Fits where
  address := (by decide : Address.Fits ⟨"Rome", "00100", "Corso 1"⟩)
  sectors := by rwa [parking, List.length_replicate]
  version := (by decide : 1 < 2 ^ 64)

theorem fits_sector (hname : Binary.FitsText name) : (sector name).Fits where
  name := hname
  maxPlaces := (by decide : 1 < 2 ^ 32)
  availablePlaces := (by decide : 1 < 2 ^ 32)
  weight := (by decide : 1 < 2 ^ 32)
  deactivation _ h := nomatch h
  version := (by decide : 1 < 2 ^ 64)

theorem fits_rows (hn : n < 2 ^ 64) (hname : Binary.FitsText name) : (rows n name).Fits := by
  have length : (rows n name).length < 2 ^ 64 := (by decide : 3 < 2 ^ 64)
  refine ⟨length, fun w hw => ?_⟩
  simp only [rows, List.mem_cons, List.not_mem_nil, or_false] at hw
  rcases hw with rfl | rfl | rfl
  · exact fits_parking hn
  · exact fits_sector hname
  · decide

theorem fits_snapshot (hn : n < 2 ^ 64 - 1) (hname : Binary.FitsText name) :
    ∀ c ∈ (Tables.ofCommits [rows n name]).snapshot, c.Fits := by
  rw [snapshot_rows]
  refine List.forall_mem_cons.2 ⟨⟨?_, List.forall_mem_cons.2 ⟨?_, fun w hw => ?_⟩⟩,
    List.forall_mem_singleton.2 (by decide)⟩
  · rw [List.length_cons, List.length_replicate]
    omega
  · exact fits_parking (by omega)
  · rw [List.eq_of_mem_replicate hw]
    exact fits_sector hname

theorem reopen (hn : n < 2 ^ 64 - 1) (hname : Binary.FitsText name)
    (hrows : 349 + n * 34 + name.utf8ByteSize ≤ Frame.mostBytes)
    (hsnapshot : Frame.mostBytes < 106 + n * 34 + n * (106 + name.utf8ByteSize)) :
    let file := LogWriter.fileOf [rows n name]
    let store : Store := ⟨.ofCommits [rows n name], .opened false file⟩
    (rows n name).Readable ∧
      Store.ofFile false file = .ok (store, ⟨[rows n name], file.size⟩) ∧
      store.compact.1 = .ok () ∧
      ∃ cause, Store.ofFile false store.compact.2.log.bytes = .error ⟨cause, 0, 0⟩ := by
  intro file store
  have readable : (rows n name).Readable :=
    ⟨fits_rows (by omega) hname, by rwa [length_rows]⟩
  have first : FirstOver (Tables.ofCommits [rows n name]).snapshot []
      (.putParking (parking n) :: List.replicate n (.putSector (sector name)))
      [[.putReservation reservation]] :=
    ⟨snapshot_rows n name, List.forall_mem_nil _, by rwa [length_snapshot]⟩
  have written (cs : List Commit) :
      (LogWriter.fileOf cs).data.toList = [] ++ cs.flatMap Frame.encode := rfl
  obtain ⟨cause, refused⟩ := ofFile_refused .nil (written _) (fits_snapshot hn hname) first
    (.inr (List.cons_ne_nil _ _))
  have compacted : store.compact.2.log.bytes =
      LogWriter.fileOf (Tables.ofCommits [rows n name]).snapshot := rfl
  have opened := Store.ofFile_fileOf (List.forall_mem_singleton.2 readable) false
  refine ⟨readable, opened, rfl, cause, ?_⟩
  rw [compacted, Store.ofFile, refused]
  rfl

/-- The compaction succeeds, and the store cannot be opened again. -/
theorem compacted_refused :
    let rows := rows 1600 (String.ofList (List.replicate 42000 'A'))
    let file := LogWriter.fileOf [rows]
    let store : Store := ⟨.ofCommits [rows], .opened false file⟩
    rows.Readable ∧ Store.ofFile false file = .ok (store, ⟨[rows], file.size⟩) ∧
      store.compact.1 = .ok () ∧
      ∃ cause, Store.ofFile false store.compact.2.log.bytes = .error ⟨cause, 0, 0⟩ := by
  have size : (String.ofList (List.replicate 42000 'A')).utf8ByteSize = 42000 :=
    Text.utf8ByteSize_repeated 'A' 42000
  refine reopen (by decide) ?_ ?_ ?_
  · rw [Binary.FitsText, size]; decide
  · rw [size]; decide
  · rw [size]; decide

end Crowd

end Replay

end Carpark
