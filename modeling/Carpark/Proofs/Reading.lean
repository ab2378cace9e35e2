import Carpark.Engine.Reading

/-!
What a reading sees when each of its reads has an instant of its own: `next` says how a moment may
go on until the following read, and `view` which tables a moment shows. A reading that runs alone
is the case of tables that stand still.
-/

namespace Carpark

variable {σ α β : Type} {view : σ → Tables} {next : σ → σ → Prop}

/-- The reading, begun at the first moment, ends at the second, having drawn these identifiers. -/
inductive Reading.Sees (view : σ → Tables) (next : σ → σ → Prop) :
    Reading α → σ → List Ulid → α → σ → Prop
  | done (a : α) (m : σ) : Sees view next (.done a) m [] a m
  | ask {q : Query} {k : q.Answer → Reading α} {m m' m'' : σ} {ids : List Ulid} {a : α} :
    next m m' → Sees view next (k ((view m').answer q)) m' ids a m'' →
      Sees view next (.ask q k) m ids a m''
  | draw {k : Ulid → Reading α} {m m' : σ} {u : Ulid} {ids : List Ulid} {a : α} :
    Sees view next (k u) m ids a m' → Sees view next (.draw k) m (u :: ids) a m'

namespace Reading

theorem sees_done {a b : α} {m m' : σ} {ids : List Ulid} :
    Sees view next (.done a) m ids b m' ↔ b = a ∧ ids = [] ∧ m' = m := by
  constructor
  · intro h
    cases h
    exact ⟨rfl, rfl, rfl⟩
  · rintro ⟨rfl, rfl, rfl⟩
    exact .done _ _

theorem sees_ask {q : Query} {k : q.Answer → Reading α} {b : α} {m m' : σ} {ids : List Ulid} :
    Sees view next (.ask q k) m ids b m' ↔
      ∃ m₁, next m m₁ ∧ Sees view next (k ((view m₁).answer q)) m₁ ids b m' := by
  constructor
  · intro h
    cases h with
    | ask step rest => exact ⟨_, step, rest⟩
  · rintro ⟨m₁, step, rest⟩
    exact .ask step rest

theorem sees_draw {k : Ulid → Reading α} {b : α} {m m' : σ} {ids : List Ulid} :
    Sees view next (.draw k) m ids b m' ↔
      ∃ u rest, ids = u :: rest ∧ Sees view next (k u) m rest b m' := by
  constructor
  · intro h
    cases h with
    | draw rest => exact ⟨_, _, rfl, rest⟩
  · rintro ⟨u, rest, rfl, h⟩
    exact .draw h

theorem sees_bind {x : Reading α} {f : α → Reading β} {b : β} {m m'' : σ} {ids : List Ulid} :
    Sees view next (x.bind f) m ids b m'' ↔
      ∃ a m' ids₁ ids₂, ids = ids₁ ++ ids₂ ∧ Sees view next x m ids₁ a m' ∧
        Sees view next (f a) m' ids₂ b m'' := by
  induction x generalizing m ids with
  | done a =>
    simp only [bind, sees_done]
    constructor
    · intro h
      exact ⟨a, m, [], ids, rfl, ⟨rfl, rfl, rfl⟩, h⟩
    · rintro ⟨_, _, _, _, rfl, ⟨rfl, rfl, rfl⟩, h⟩
      exact h
  | ask q k ih =>
    simp only [bind, sees_ask, ih]
    constructor
    · rintro ⟨m₁, step, a, m', ids₁, ids₂, rfl, hx, hf⟩
      exact ⟨a, m', ids₁, ids₂, rfl, ⟨m₁, step, hx⟩, hf⟩
    · rintro ⟨a, m', ids₁, ids₂, rfl, ⟨m₁, step, hx⟩, hf⟩
      exact ⟨m₁, step, a, m', ids₁, ids₂, rfl, hx, hf⟩
  | draw k ih =>
    simp only [bind, sees_draw, ih]
    constructor
    · rintro ⟨u, _, rfl, a, m', ids₁, ids₂, rfl, hx, hf⟩
      exact ⟨a, m', u :: ids₁, ids₂, rfl, ⟨u, ids₁, rfl, hx⟩, hf⟩
    · rintro ⟨a, m', _, ids₂, rfl, ⟨u, ids₁, rfl, hx⟩, hf⟩
      exact ⟨u, ids₁ ++ ids₂, rfl, a, m', ids₁, ids₂, rfl, hx, hf⟩

/-! ### Alone -/

def drawn (ids : Nat → Ulid) (n m : Nat) : List Ulid := (List.range' n (m - n)).map ids

theorem le_eval (t : Tables) (ids : Nat → Ulid) (x : Reading α) (n : Nat) :
    n ≤ (x.eval t ids n).2 := by
  induction x generalizing n with
  | done a => exact Nat.le_refl n
  | ask q k ih => exact ih _ n
  | draw k ih => exact Nat.le_of_succ_le (ih _ (n + 1))

theorem drawn_succ {ids : Nat → Ulid} {n m : Nat} (h : n < m) :
    drawn ids n m = ids n :: drawn ids (n + 1) m := by
  have length : m - n = m - (n + 1) + 1 := by omega
  simp only [drawn, length, List.range'_succ, List.map_cons]

theorem sees_eval {m : σ} (still : next m m) (ids : Nat → Ulid) (x : Reading α) (n : Nat) :
    Sees view next x m (drawn ids n (x.eval (view m) ids n).2) (x.eval (view m) ids n).1 m := by
  induction x generalizing n with
  | done a => simpa [eval, drawn] using Sees.done a m
  | ask q k ih => exact .ask still (ih _ n)
  | draw k ih =>
    rw [eval, drawn_succ (le_eval (view m) ids (k (ids n)) (n + 1))]
    exact .draw (ih _ (n + 1))

theorem eval_bind (t : Tables) (ids : Nat → Ulid) (x : Reading α) (f : α → Reading β) (n : Nat) :
    (x.bind f).eval t ids n = (f (x.eval t ids n).1).eval t ids (x.eval t ids n).2 := by
  induction x generalizing n with
  | done a => rfl
  | ask q k ih => exact ih _ n
  | draw k ih => exact ih _ (n + 1)

theorem eval_of_sees {t t' : Tables} {x : Reading α} {us : List Ulid} {a : α}
    (h : Sees id Eq x t us a t') (ids : Nat → Ulid) (n : Nat)
    (hids : ∀ i u, us[i]? = some u → ids (n + i) = u) :
    x.eval t ids n = (a, n + us.length) := by
  induction h generalizing n with
  | done a m => rfl
  | ask step _ ih =>
    cases step
    exact ih n hids
  | draw _ ih =>
    have h0 := hids 0 _ rfl
    simp only [Nat.add_zero] at h0
    rw [eval, h0, ih (n + 1) fun i u hu => ?_]
    · simp only [List.length_cons]
      congr 1
      omega
    · rw [← hids (i + 1) u hu]
      congr 1
      omega

end Reading

/-! ### Readings that may fail -/

namespace Lookup

def Sees (view : σ → Tables) (next : σ → σ → Prop) (x : Lookup α) (m : σ) (ids : List Ulid) (a : α)
    (m' : σ) : Prop :=
  Reading.Sees view next x.run m ids (.ok a) m'

@[simp] theorem sees_pure {a b : α} {m m' : σ} {ids : List Ulid} :
    Sees view next (pure a) m ids b m' ↔ b = a ∧ ids = [] ∧ m' = m := by
  refine Reading.sees_done.trans ?_
  simp

@[simp] theorem not_sees_throw {e : Failure} {b : α} {m m' : σ} {ids : List Ulid} :
    ¬ Sees view next (throw e) m ids b m' := by
  intro h
  obtain ⟨h, -⟩ := Reading.sees_done.1 h
  cases h

@[simp] theorem sees_bind {x : Lookup α} {f : α → Lookup β} {b : β} {m m'' : σ} {ids : List Ulid} :
    Sees view next (x >>= f) m ids b m'' ↔
      ∃ a m' ids₁ ids₂, ids = ids₁ ++ ids₂ ∧ Sees view next x m ids₁ a m' ∧
        Sees view next (f a) m' ids₂ b m'' := by
  refine Reading.sees_bind.trans ?_
  constructor
  · rintro ⟨r, m', ids₁, ids₂, rfl, hx, hf⟩
    cases r with
    | error e => exact absurd hf not_sees_throw
    | ok a => exact ⟨a, m', ids₁, ids₂, rfl, hx, hf⟩
  · rintro ⟨a, m', ids₁, ids₂, rfl, hx, hf⟩
    exact ⟨.ok a, m', ids₁, ids₂, rfl, hx, hf⟩

@[simp] theorem sees_lift {x : Except Failure α} {a : α} {m m' : σ} {ids : List Ulid} :
    Sees view next (liftM x : Lookup α) m ids a m' ↔ x = .ok a ∧ ids = [] ∧ m' = m := by
  refine Reading.sees_done.trans ?_
  change .ok a = x ∧ ids = [] ∧ m' = m ↔ _
  rw [eq_comm (a := x)]

theorem sees_guard {c : Prop} [Decidable c] {e : Failure} {f : β → Lookup α} {x : Lookup α}
    {a : α} {m m' : σ} {ids : List Ulid} :
    Sees view next (if c then throw e >>= f else x) m ids a m' ↔
      ¬ c ∧ Sees view next x m ids a m' := by
  by_cases h : c <;> simp [h]

theorem sees_ask {q : Query} {a : q.Answer} {m m' : σ} {ids : List Ulid} :
    Sees view next (ask q) m ids a m' ↔ (next m m' ∧ (view m').answer q = a) ∧ ids = [] := by
  refine Reading.sees_ask.trans ?_
  constructor
  · rintro ⟨m₁, step, h⟩
    obtain ⟨h, rfl, rfl⟩ := Reading.sees_done.1 h
    cases h
    exact ⟨⟨step, rfl⟩, rfl⟩
  · rintro ⟨⟨step, rfl⟩, rfl⟩
    exact ⟨m', step, .done _ _⟩

theorem sees_row {x : Lookup (Option α)} {f : Option α → Lookup α} {e : Failure}
    (hsome : ∀ r, f (some r) = pure r) (hnone : f none = throw e) {row : α} {m m' : σ}
    {ids : List Ulid} :
    Sees view next (x >>= f) m ids row m' ↔ Sees view next x m ids (some row) m' := by
  simp only [sees_bind]
  constructor
  · rintro ⟨found, m₁, ids₁, ids₂, rfl, hx, h⟩
    cases found with
    | none => simp [hnone] at h
    | some r =>
      obtain ⟨rfl, rfl, rfl⟩ := sees_pure.1 (hsome r ▸ h)
      simpa using hx
  · intro hx
    exact ⟨some row, m', ids, [], by simp, hx, by simp [hsome]⟩

theorem sees_parking {id : Ulid} {p : Parking} {m m' : σ} {ids : List Ulid} :
    Sees view next (parking id) m ids p m' ↔
      (next m m' ∧ (view m').parkings.get? id = some p) ∧ ids = [] :=
  (sees_row (fun _ => rfl) rfl).trans sees_ask

theorem sees_sector {id : Ulid} {s : Sector} {m m' : σ} {ids : List Ulid} :
    Sees view next (sector id) m ids s m' ↔
      (next m m' ∧ (view m').sectors.get? id = some s) ∧ ids = [] :=
  (sees_row (fun _ => rfl) rfl).trans sees_ask

theorem sees_reservation {id : Ulid} {r : Reservation} {m m' : σ} {ids : List Ulid} :
    Sees view next (reservation id) m ids r m' ↔
      (next m m' ∧ (view m').reservations.get? id = some r) ∧ ids = [] :=
  (sees_row (fun _ => rfl) rfl).trans sees_ask

/-! ### The first step of a longer reading -/

theorem sees_bind_of {x : Lookup α} {P : σ → α → σ → Prop}
    (hx : ∀ m ids a m', Sees view next x m ids a m' ↔ P m a m' ∧ ids = []) {f : α → Lookup β}
    {b : β} {m m'' : σ} {ids : List Ulid} :
    Sees view next (x >>= f) m ids b m'' ↔
      ∃ a m', P m a m' ∧ Sees view next (f a) m' ids b m'' := by
  simp only [sees_bind, hx]
  constructor
  · rintro ⟨a, m', _, ids, rfl, ⟨hP, rfl⟩, hf⟩
    exact ⟨a, m', hP, hf⟩
  · rintro ⟨a, m', hP, hf⟩
    exact ⟨a, m', [], ids, rfl, ⟨hP, rfl⟩, hf⟩

variable {f : α → Lookup β} {b : β} {m m' : σ} {ids : List Ulid}

@[simp] theorem sees_pure_bind {a : α} :
    Sees view next (pure a >>= f) m ids b m' ↔ Sees view next (f a) m ids b m' :=
  Iff.rfl

@[simp] theorem not_sees_throw_bind {e : Failure} :
    ¬ Sees view next (throw e >>= f) m ids b m' :=
  not_sees_throw

@[simp] theorem sees_lift_bind {x : Except Failure α} :
    Sees view next (liftM x >>= f) m ids b m' ↔
      ∃ a, x = .ok a ∧ Sees view next (f a) m ids b m' := by
  simp only [sees_bind, sees_lift]
  constructor
  · rintro ⟨a, _, _, ids, rfl, ⟨hx, rfl, rfl⟩, hf⟩
    exact ⟨a, hx, hf⟩
  · rintro ⟨a, hx, hf⟩
    exact ⟨a, m, [], ids, rfl, ⟨hx, rfl, rfl⟩, hf⟩

@[simp] theorem sees_draw_bind {f : Ulid → Lookup β} :
    Sees view next (draw >>= f) m ids b m' ↔
      ∃ u rest, ids = u :: rest ∧ Sees view next (f u) m rest b m' := by
  refine Reading.sees_draw.trans ?_
  rfl

theorem sees_ask_bind {q : Query} {f : q.Answer → Lookup β} :
    Sees view next (ask q >>= f) m ids b m' ↔
      ∃ m₁, next m m₁ ∧ Sees view next (f ((view m₁).answer q)) m₁ ids b m' :=
  Reading.sees_ask

@[simp] theorem sees_parking_bind {id : Ulid} {f : Parking → Lookup β} :
    Sees view next (parking id >>= f) m ids b m' ↔
      ∃ p m₁, (next m m₁ ∧ (view m₁).parkings.get? id = some p) ∧
        Sees view next (f p) m₁ ids b m' :=
  sees_bind_of fun _ _ _ _ => sees_parking

@[simp] theorem sees_sector_bind {id : Ulid} {f : Sector → Lookup β} :
    Sees view next (sector id >>= f) m ids b m' ↔
      ∃ s m₁, (next m m₁ ∧ (view m₁).sectors.get? id = some s) ∧
        Sees view next (f s) m₁ ids b m' :=
  sees_bind_of fun _ _ _ _ => sees_sector

@[simp] theorem sees_reservation_bind {id : Ulid} {f : Reservation → Lookup β} :
    Sees view next (reservation id >>= f) m ids b m' ↔
      ∃ r m₁, (next m m₁ ∧ (view m₁).reservations.get? id = some r) ∧
        Sees view next (f r) m₁ ids b m' :=
  sees_bind_of fun _ _ _ _ => sees_reservation

@[simp] theorem sees_events_bind {id : Ulid} {f : List GateEvent → Lookup β} :
    Sees view next (events id >>= f) m ids b m' ↔
      ∃ m₁, next m m₁ ∧ Sees view next (f ((view m₁).eventsOf id)) m₁ ids b m' :=
  sees_ask_bind

@[simp] theorem sees_hasHistory_bind {id : Ulid} {f : Bool → Lookup β} :
    Sees view next (hasHistory id >>= f) m ids b m' ↔
      ∃ m₁, next m m₁ ∧ Sees view next (f ((view m₁).hasHistory id)) m₁ ids b m' :=
  sees_ask_bind (q := .ofSector id)

/-! ### Rows one after another -/

/-- Each row is seen at an instant of its own. -/
inductive SeesRows (view : σ → Tables) (next : σ → σ → Prop) (get : Tables → Ulid → Option α) :
    σ → List Ulid → List α → σ → Prop
  | nil (m : σ) : SeesRows view next get m [] [] m
  | cons {m m₁ m' : σ} {id : Ulid} {l : List Ulid} {as : List α} :
    next m m₁ → SeesRows view next get m₁ l as m' →
      SeesRows view next get m (id :: l) ((get (view m₁) id).toList ++ as) m'

theorem seesRows_alone (get : Tables → Ulid → Option α) (t : Tables)
    (l : List Ulid) : SeesRows id Eq get t l (l.filterMap (get t)) t := by
  induction l with
  | nil => exact .nil t
  | cons k l ih =>
    have unfold : (k :: l).filterMap (get t) = (get t k).toList ++ l.filterMap (get t) := by
      cases hk : get t k <;> simp [hk]
    rw [unfold]
    exact .cons rfl ih

theorem sees_rows {x : Ulid → Lookup (Option α)} {get : Tables → Ulid → Option α}
    (hx : ∀ id m ids o m', Sees view next (x id) m ids o m' ↔
      (next m m' ∧ get (view m') id = o) ∧ ids = []) {l : List Ulid} {as : List α} {m m' : σ}
    {ids : List Ulid} :
    Sees view next (rows x l) m ids as m' ↔ SeesRows view next get m l as m' ∧ ids = [] := by
  induction l generalizing m m' ids as with
  | nil =>
    simp only [rows, sees_pure]
    constructor
    · rintro ⟨rfl, rfl, rfl⟩
      exact ⟨.nil _, rfl⟩
    · rintro ⟨h, rfl⟩
      cases h
      exact ⟨rfl, rfl, rfl⟩
  | cons id l ih =>
    simp only [rows]
    rw [sees_bind_of (hx id)]
    constructor
    · rintro ⟨o, m₁, ⟨step, rfl⟩, h⟩
      rw [sees_bind_of fun _ _ _ _ => ih] at h
      obtain ⟨as, m₂, rest, h⟩ := h
      obtain ⟨rfl, rfl, rfl⟩ := sees_pure.1 h
      exact ⟨.cons step rest, rfl⟩
    · rintro ⟨h, rfl⟩
      cases h with
      | cons step rest =>
        refine ⟨_, _, ⟨step, rfl⟩, ?_⟩
        rw [sees_bind_of fun _ _ _ _ => ih]
        exact ⟨_, _, rest, sees_pure.2 ⟨rfl, rfl, rfl⟩⟩

theorem sees_reservationRows {l : List Ulid} {rs : List Reservation} {m m' : σ} {ids : List Ulid} :
    Sees view next (rows (fun id => ask (.reservation id)) l) m ids rs m' ↔
      SeesRows view next (fun t => t.reservations.get?) m l rs m' ∧ ids = [] :=
  sees_rows fun _ _ _ _ _ => sees_ask

@[simp] theorem sees_sectorsOf_bind {p : Parking} {f : List Sector → Lookup β} :
    Sees view next (sectorsOf p >>= f) m ids b m' ↔
      ∃ ss m₁, SeesRows view next (fun t => t.sectors.get?) m p.sectors ss m₁ ∧
        Sees view next (f ss) m₁ ids b m' :=
  sees_bind_of fun _ _ _ _ => sees_rows fun _ _ _ _ _ => sees_ask

@[simp] theorem sees_reservationsOfSector_bind {s : Ulid} {f : List Reservation → Lookup β} :
    Sees view next (reservationsOfSector s >>= f) m ids b m' ↔
      ∃ m₁, next m m₁ ∧ ∃ rs m₂,
        SeesRows view next (fun t => t.reservations.get?) m₁ ((view m₁).bySector.getList s) rs m₂ ∧
          Sees view next (f rs) m₂ ids b m' := by
  rw [sees_bind_of (P := fun m rs m' => ∃ m₁, next m m₁ ∧ SeesRows view next
    (fun t => t.reservations.get?) m₁ ((view m₁).bySector.getList s) rs m')]
  · constructor
    · rintro ⟨rs, m₂, ⟨m₁, step, rows⟩, h⟩
      exact ⟨m₁, step, rs, m₂, rows, h⟩
    · rintro ⟨m₁, step, rs, m₂, rows, h⟩
      exact ⟨rs, m₂, ⟨m₁, step, rows⟩, h⟩
  · intro m ids rs m'
    refine sees_ask_bind.trans ?_
    constructor
    · rintro ⟨m₁, step, h⟩
      obtain ⟨rows, rfl⟩ := sees_reservationRows.1 h
      exact ⟨⟨m₁, step, rows⟩, rfl⟩
    · rintro ⟨⟨m₁, step, rows⟩, rfl⟩
      exact ⟨m₁, step, sees_reservationRows.2 ⟨rows, rfl⟩⟩

end Lookup

end Carpark
