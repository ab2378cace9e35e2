import Carpark.Proofs.Linked
import Carpark.Proofs.Reading

/-!
How the tables may have changed from one moment to a later one: the version of a row covers the
row and what it stands guard over, and a reservation never goes back.
-/

namespace Carpark

/-- Versions only rise, so one that is back where it was has not moved. -/
theorem Version.squeeze {u v w : Version} (h : u ≤ v) (h' : v ≤ w) (e : u = w) : u = v ∧ v = w := by
  subst e
  exact ⟨Nat.le_antisymm h h', Nat.le_antisymm h' h⟩

structure Reservation.Becomes (r r' : Reservation) : Prop where
  version : r.version ≤ r'.version
  client : r'.client = r.client
  parking : r'.parking = r.parking
  sector : r'.sector = r.sector
  window : r'.window = r.window
  booked : r'.booked = r.booked
  created : r'.status = .created → r.status = .created

namespace Reservation.Becomes

theorem refl (r : Reservation) : r.Becomes r := ⟨Nat.le_refl _, rfl, rfl, rfl, rfl, rfl, fun h => h⟩

theorem trans {r r' r'' : Reservation} (h : r.Becomes r') (h' : r'.Becomes r'') :
    r.Becomes r'' where
  version := Nat.le_trans h.version h'.version
  client := h'.client.trans h.client
  parking := h'.parking.trans h.parking
  sector := h'.sector.trans h.sector
  window := h'.window.trans h.window
  booked := h'.booked.trans h.booked
  created := fun hc => h.created (h'.created hc)

end Reservation.Becomes

namespace Tables

/-- Every reservation is still there; at the same version, row and gate log are the same. -/
def Keeps (t t' : Tables) : Prop :=
  ∀ id r, t.reservations.get? id = some r → ∃ r', t'.reservations.get? id = some r' ∧
    r.Becomes r' ∧ (r.version = r'.version → r = r' ∧ t.eventsOf id = t'.eventsOf id)

theorem Keeps.refl (t : Tables) : t.Keeps t := by
  intro id r hr
  exact ⟨r, hr, .refl r, fun _ => ⟨rfl, rfl⟩⟩

theorem Keeps.trans {t t' t'' : Tables} (h : t.Keeps t') (h' : t'.Keeps t'') : t.Keeps t'' := by
  intro id r hr
  obtain ⟨r', hr', becomes, same⟩ := h id r hr
  obtain ⟨r'', hr'', becomes', same'⟩ := h' id r' hr'
  refine ⟨r'', hr'', becomes.trans becomes', fun hv => ?_⟩
  obtain ⟨hv, hv'⟩ := Version.squeeze becomes.version becomes'.version hv
  obtain ⟨rfl, events⟩ := same hv
  obtain ⟨rfl, events'⟩ := same' hv'
  exact ⟨rfl, events.trans events'⟩

def nameOf? (t : Tables) (sector : Ulid) : Option String := (t.sectors.get? sector).map (·.name)

end Tables

/-- The tables at an instant, and the identifiers that parkings and sectors have had so far. -/
structure Moment where
  tables : Tables
  used : Ulid → Prop
  linked : tables.Linked
  parking_used : ∀ {id p}, tables.parkings.get? id = some p → used id
  sector_used : ∀ {id s}, tables.sectors.get? id = some s → used id

/-- Rows under used identifiers were there before. At the same version a parking has the same names
of sectors, and a sector the same reservations. -/
structure Later (m m' : Moment) : Prop where
  used : ∀ {id}, m.used id → m'.used id
  parking : ∀ {id p'}, m.used id → m'.tables.parkings.get? id = some p' →
    ∃ p, m.tables.parkings.get? id = some p ∧ p.version ≤ p'.version ∧
      (p.version = p'.version →
        p = p' ∧ ∀ k ∈ p.sectors, m.tables.nameOf? k = m'.tables.nameOf? k)
  sector : ∀ {id s'}, m.used id → m'.tables.sectors.get? id = some s' →
    ∃ s, m.tables.sectors.get? id = some s ∧ s'.parking = s.parking ∧ s.version ≤ s'.version ∧
      (s.version = s'.version →
        s = s' ∧ m.tables.bySector.getList id = m'.tables.bySector.getList id)
  keeps : m.tables.Keeps m'.tables

namespace Later

theorem refl (m : Moment) : Later m m where
  used := id
  parking := fun _ hp => ⟨_, hp, Nat.le_refl _, fun _ => ⟨rfl, fun _ _ => rfl⟩⟩
  sector := fun _ hs => ⟨_, hs, rfl, Nat.le_refl _, fun _ => ⟨rfl, rfl⟩⟩
  keeps := .refl _

theorem trans {m m' m'' : Moment} (h : Later m m') (h' : Later m' m'') : Later m m'' where
  used := fun hid => h'.used (h.used hid)
  parking := by
    intro id p'' hid hp''
    obtain ⟨p', hp', hle', same'⟩ := h'.parking (h.used hid) hp''
    obtain ⟨p, hp, hle, same⟩ := h.parking hid hp'
    refine ⟨p, hp, Nat.le_trans hle hle', fun hv => ?_⟩
    obtain ⟨hv, hv'⟩ := Version.squeeze hle hle' hv
    obtain ⟨rfl, names⟩ := same hv
    obtain ⟨rfl, names'⟩ := same' hv'
    exact ⟨rfl, fun k hk => (names k hk).trans (names' k hk)⟩
  sector := by
    intro id s'' hid hs''
    obtain ⟨s', hs', parking', hle', same'⟩ := h'.sector (h.used hid) hs''
    obtain ⟨s, hs, parking, hle, same⟩ := h.sector hid hs'
    refine ⟨s, hs, parking'.trans parking, Nat.le_trans hle hle', fun hv => ?_⟩
    obtain ⟨hv, hv'⟩ := Version.squeeze hle hle' hv
    obtain ⟨rfl, list⟩ := same hv
    obtain ⟨rfl, list'⟩ := same' hv'
    exact ⟨rfl, list.trans list'⟩
  keeps := h.keeps.trans h'.keeps

/-! ### What has not changed -/

variable {m m₁ m' : Moment} {id : Ulid}

theorem parking_current (h : Later m m') {p : Parking} (hp : m.tables.parkings.get? id = some p)
    (hok : ∃ p', m'.tables.parkings.get? p.id = some p' ∧ p'.version = p.version) :
    m'.tables.parkings.get? id = some p := by
  obtain ⟨p', hp', hv⟩ := hok
  rw [m.linked.parking_id hp] at hp'
  obtain ⟨q, hq, -, same⟩ := h.parking (m.parking_used hp) hp'
  rw [hp] at hq
  cases hq
  obtain ⟨rfl, -⟩ := same hv.symm
  exact hp'

theorem sector_current (h : Later m m') {s : Sector} (hs : m.tables.sectors.get? id = some s)
    (hok : ∃ s', m'.tables.sectors.get? s.id = some s' ∧ s'.version = s.version) :
    m'.tables.sectors.get? id = some s := by
  obtain ⟨s', hs', hv⟩ := hok
  rw [m.linked.sector_id hs] at hs'
  obtain ⟨q, hq, -, -, same⟩ := h.sector (m.sector_used hs) hs'
  rw [hs] at hq
  cases hq
  obtain ⟨rfl, -⟩ := same hv.symm
  exact hs'

theorem reservation_current (h : Later m m') {r : Reservation}
    (hr : m.tables.reservations.get? id = some r)
    (hok : ∃ r', m'.tables.reservations.get? r.id = some r' ∧ r'.version = r.version) :
    m'.tables.reservations.get? id = some r := by
  obtain ⟨r', hr', hv⟩ := hok
  rw [m.linked.reservation_id hr] at hr'
  obtain ⟨q, hq, -, same⟩ := h.keeps _ _ hr
  rw [hr'] at hq
  cases hq
  obtain ⟨rfl, -⟩ := same hv.symm
  exact hr'

/-- A parking that is the same at two moments has been so, names of sectors included, at any
moment in between. -/
theorem parking_between (h : Later m m₁) (h' : Later m₁ m') {p : Parking}
    (hp : m.tables.parkings.get? id = some p) (hp' : m'.tables.parkings.get? id = some p) :
    m₁.tables.parkings.get? id = some p ∧
      ∀ k ∈ p.sectors, m₁.tables.nameOf? k = m'.tables.nameOf? k := by
  obtain ⟨q, hq, hle', same'⟩ := h'.parking (h.used (m.parking_used hp)) hp'
  obtain ⟨q', hq', hle, same⟩ := h.parking (m.parking_used hp) hq
  rw [hp] at hq'
  cases hq'
  obtain ⟨hv, hv'⟩ := Version.squeeze hle hle' rfl
  obtain ⟨rfl, -⟩ := same hv
  exact ⟨hq, (same' hv').2⟩

theorem sector_between (h : Later m m₁) (h' : Later m₁ m') {s : Sector}
    (hs : m.tables.sectors.get? id = some s) (hs' : m'.tables.sectors.get? id = some s) :
    m₁.tables.sectors.get? id = some s ∧
      m₁.tables.bySector.getList id = m'.tables.bySector.getList id := by
  obtain ⟨q, hq, -, hle', same'⟩ := h'.sector (h.used (m.sector_used hs)) hs'
  obtain ⟨q', hq', -, hle, same⟩ := h.sector (m.sector_used hs) hq
  rw [hs] at hq'
  cases hq'
  obtain ⟨hv, hv'⟩ := Version.squeeze hle hle' rfl
  obtain ⟨rfl, -⟩ := same hv
  exact ⟨hq, (same' hv').2⟩

theorem events_between (h : Later m m₁) (h' : Later m₁ m') {r : Reservation}
    (hr : m.tables.reservations.get? id = some r)
    (hr' : m'.tables.reservations.get? id = some r) :
    m₁.tables.eventsOf id = m'.tables.eventsOf id := by
  obtain ⟨q, hq, becomes, same⟩ := h.keeps _ _ hr
  obtain ⟨q', hq', becomes', same'⟩ := h'.keeps _ _ hq
  rw [hr'] at hq'
  cases hq'
  obtain ⟨-, hv'⟩ := Version.squeeze becomes.version becomes'.version rfl
  exact (same' hv').2

/-! ### Rows one after another -/

variable {α β : Type} {get : Tables → Ulid → Option α} {l : List Ulid} {as : List α}

theorem of_seesRows (h : Lookup.SeesRows Moment.tables Later get m l as m') : Later m m' := by
  induction h with
  | nil m => exact .refl m
  | cons step _ ih => exact step.trans ih

theorem exists_of_mem_seesRows (h : Lookup.SeesRows Moment.tables Later get m l as m') {a : α}
    (ha : a ∈ as) :
    ∃ id ∈ l, ∃ m₁, Later m m₁ ∧ Later m₁ m' ∧ get m₁.tables id = some a := by
  induction h with
  | nil m => cases ha
  | @cons m m₁ m' id l as step rest ih =>
    rcases List.mem_append.1 ha with ha | ha
    · exact ⟨id, List.mem_cons_self, m₁, step, of_seesRows rest, Option.mem_toList.1 ha⟩
    · obtain ⟨id', hid', m₂, h, h', hget⟩ := ih ha
      exact ⟨id', List.mem_cons_of_mem _ hid', m₂, step.trans h, h', hget⟩

theorem map_seesRows (h : Lookup.SeesRows Moment.tables Later get m l as m') (f : Ulid → Option α)
    (g : α → β) (same : ∀ id ∈ l, ∀ m₁, Later m m₁ → Later m₁ m' →
      (∀ a, get m₁.tables id = some a → a ∈ as) →
        (get m₁.tables id).map g = (f id).map g) :
    as.map g = (l.filterMap f).map g := by
  induction h with
  | nil m => rfl
  | @cons m m₁ m' id l as step rest ih =>
    have head := same id List.mem_cons_self m₁ step (of_seesRows rest) fun a ha =>
      List.mem_append_left _ (by simp [ha])
    have tail := ih fun id' hid' m₂ h₂ h₂' hmem =>
      same id' (List.mem_cons_of_mem _ hid') m₂ (step.trans h₂) h₂' fun a ha =>
        List.mem_append_right _ (hmem a ha)
    have unfold : (id :: l).filterMap f = (f id).toList ++ l.filterMap f := by
      cases hf : f id <;> simp [hf]
    have toList (o : Option α) : o.toList.map g = (o.map g).toList := by cases o <;> rfl
    rw [unfold, List.map_append, List.map_append, toList, toList, head, tail]

theorem countP_seesRows (h : Lookup.SeesRows Moment.tables Later get m l as m')
    (f : Ulid → Option α) (P : α → Bool)
    (counted : ∀ id ∈ l, ∀ m₁, Later m m₁ → Later m₁ m' → ∀ b, f id = some b → P b = true →
      ∃ a, get m₁.tables id = some a ∧ P a = true) :
    (l.filterMap f).countP P ≤ as.countP P := by
  induction h with
  | nil m => exact Nat.le_refl _
  | @cons m m₁ m' id l as step rest ih =>
    have tail := ih fun id' hid' m₂ h₂ h₂' =>
      counted id' (List.mem_cons_of_mem _ hid') m₂ (step.trans h₂) h₂'
    have head : (f id).toList.countP P ≤ (get m₁.tables id).toList.countP P := by
      cases hf : f id with
      | none => exact Nat.zero_le _
      | some b =>
        cases hb : P b with
        | false => simp [hb]
        | true =>
          obtain ⟨a, ha, hPa⟩ :=
            counted id List.mem_cons_self m₁ step (of_seesRows rest) b hf hb
          simp [ha, hPa, hb]
    have unfold : (id :: l).filterMap f = (f id).toList ++ l.filterMap f := by
      cases hf : f id <;> simp [hf]
    rw [unfold, List.countP_append, List.countP_append]
    omega

end Later

end Carpark
