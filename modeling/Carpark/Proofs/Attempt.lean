import Carpark.Proofs.Later
import Carpark.Proofs.Ledger
import Carpark.Proofs.Transition

/-!
An attempt reads its rows one after another, each at a moment of its own, and its commit compares
some versions. What it has read then still stands where the commit takes effect, or has changed
to nobody's harm: the attempt makes a transition of the tables that its commit finds.
-/

namespace Carpark

open Lookup

namespace Registry

variable {σ β : Type} {view : σ → Tables} {next : σ → σ → Prop}

theorem sees_requireFreeName_bind {p : Parking} {name : String} {besides : Option Ulid}
    {f : Unit → Lookup β} {b : β} {m m' : σ} {ids : List Ulid} :
    Sees view next (requireFreeName p name besides >>= f) m ids b m' ↔
      ∃ ss m₁, (SeesRows view next (fun t => t.sectors.get?) m p.sectors ss m₁ ∧
        isTaken ss name besides = false) ∧ Sees view next (f ()) m₁ ids b m' := by
  rw [sees_bind_of (P := fun m _ m' => ∃ ss,
    SeesRows view next (fun t => t.sectors.get?) m p.sectors ss m' ∧
      isTaken ss name besides = false)]
  · constructor
    · rintro ⟨_, m₁, ⟨ss, h⟩, hf⟩
      exact ⟨ss, m₁, h, hf⟩
    · rintro ⟨ss, m₁, h, hf⟩
      exact ⟨(), m₁, ⟨ss, h⟩, hf⟩
  · intro m ids _ m'
    simp only [requireFreeName, sees_sectorsOf_bind]
    constructor
    · rintro ⟨ss, m₁, rows, h⟩
      change Sees view next (if isTaken ss name besides then _ else _) _ _ _ _ at h
      split at h
      next => exact absurd h not_sees_throw
      next hfree =>
        obtain ⟨-, rfl, rfl⟩ := sees_pure.1 h
        exact ⟨⟨ss, rows, Bool.eq_false_iff.2 hfree⟩, rfl⟩
    · rintro ⟨⟨ss, rows, hfree⟩, rfl⟩
      refine ⟨ss, m', rows, ?_⟩
      change Sees view next (if isTaken ss name besides then _ else _) _ _ _ _
      rw [hfree]
      exact sees_pure.2 ⟨rfl, rfl, rfl⟩

inductive SeesUnused (view : σ → Tables) (next : σ → σ → Prop) : σ → List Sector → σ → Prop
  | nil (m : σ) : SeesUnused view next m [] m
  | cons {m m₁ m' : σ} {s : Sector} {ss : List Sector} :
    next m m₁ → (view m₁).hasHistory s.id = false → SeesUnused view next m₁ ss m' →
      SeesUnused view next m (s :: ss) m'

theorem sees_used {ss : List Sector} {m m' : σ} {ids : List Ulid} :
    Sees view next (deleteAttempt.used ss) m ids false m' ↔
      SeesUnused view next m ss m' ∧ ids = [] := by
  induction ss generalizing m with
  | nil =>
    simp only [deleteAttempt.used, sees_pure, true_and]
    constructor
    · rintro ⟨rfl, rfl⟩
      exact ⟨.nil _, rfl⟩
    · rintro ⟨h, rfl⟩
      cases h
      exact ⟨rfl, rfl⟩
  | cons s ss ih =>
    simp only [deleteAttempt.used, sees_hasHistory_bind]
    constructor
    · rintro ⟨m₁, step, h⟩
      split at h
      next =>
        obtain ⟨h, -⟩ := sees_pure.1 h
        cases h
      next hunused =>
        obtain ⟨rest, rfl⟩ := ih.1 h
        exact ⟨.cons step (Bool.eq_false_iff.2 hunused) rest, rfl⟩
    · rintro ⟨h, rfl⟩
      cases h with
      | cons step hunused rest =>
        refine ⟨_, step, ?_⟩
        rw [hunused]
        exact ih.2 ⟨rest, rfl⟩

end Registry

theorem Lookup.sees_txn {σ α : Type} {view : σ → Tables} {next : σ → σ → Prop}
    {a : Lookup (Plan α)} {m m' : σ} {ids : List Ulid} {txn : Txn} :
    Sees view next a.txn m ids txn m' ↔ ∃ answer, Sees view next a m ids ⟨txn, answer⟩ m' := by
  simp only [Lookup.txn, sees_bind, sees_pure]
  constructor
  · rintro ⟨⟨_, answer⟩, _, ids, _, rfl, h, rfl, rfl, rfl⟩
    exact ⟨answer, by simpa using h⟩
  · rintro ⟨answer, h⟩
    exact ⟨_, _, ids, [], by simp, h, rfl, rfl, rfl⟩

def Sector.label (s : Sector) : Ulid × String := (s.id, s.name)

namespace Transition

theorem isTaken_of_seesRows {m m' m'' : Moment} {id : Ulid} {p : Parking} {ss : List Sector}
    (rows : SeesRows Moment.tables Later (fun t => t.sectors.get?) m p.sectors ss m')
    (later : Later m' m'') (hp : m.tables.parkings.get? id = some p)
    (hp' : m''.tables.parkings.get? id = some p) (name : String) (besides : Option Ulid) :
    Registry.isTaken (m''.tables.sectorsOf p) name besides = Registry.isTaken ss name besides := by
  have labels : ss.map Sector.label = (m''.tables.sectorsOf p).map Sector.label := by
    refine Later.map_seesRows rows _ _ fun k hk m₁ h h' _ => ?_
    have name := (Later.parking_between h (h'.trans later) hp hp').2 k hk
    have labelled (m : Moment) :
        (m.tables.sectors.get? k).map Sector.label = (m.tables.nameOf? k).map (k, ·) := by
      cases hs : m.tables.sectors.get? k with
      | none => simp [Tables.nameOf?, hs]
      | some s => simp [Tables.nameOf?, hs, Sector.label, m.linked.sector_id hs]
    rw [labelled, labelled, name]
  have taken (l : List Sector) : Registry.isTaken l name besides =
      (l.map Sector.label).any fun e => e.2 = name && some e.1 ≠ besides := by
    rw [List.any_map]
    rfl
  rw [taken, taken, labels]

theorem of_seesUnused {m m' : Moment} {ss : List Sector}
    (h : Registry.SeesUnused Moment.tables Later m ss m') : Later m m' := by
  induction h with
  | nil m => exact .refl m
  | cons step _ _ ih => exact step.trans ih

theorem exists_of_seesUnused {m m' : Moment} {ss : List Sector}
    (h : Registry.SeesUnused Moment.tables Later m ss m') {s : Sector} (hs : s ∈ ss) :
    ∃ m₁, Later m m₁ ∧ Later m₁ m' ∧ m₁.tables.hasHistory s.id = false := by
  induction h with
  | nil m => cases hs
  | cons step unused rest ih =>
    rcases List.mem_cons.1 hs with rfl | hs
    · exact ⟨_, step, of_seesUnused rest, unused⟩
    · obtain ⟨m₂, h, h', unused⟩ := ih hs
      exact ⟨m₂, step.trans h, h', unused⟩

variable {settings : Settings} {ctx : Context} {m m' m'' : Moment} {ids : List Ulid}

/-! ### Parkings and sectors -/

theorem of_createParking {address : Address} {policy : Option Policy} {plan : Plan Parking}
    (h : Sees Moment.tables Later (Registry.createAttempt ctx settings address policy) m ids plan
      m') :
    Transition settings ctx m''.tables (.createParking address policy) ids plan.txn := by
  simp only [Registry.createAttempt, sees_lift_bind, sees_draw_bind, sees_pure] at h
  obtain ⟨_, admin, _, valid, u, _, rfl, rfl, rfl, rfl⟩ := h
  exact .createParking admin valid

theorem of_updateParking {id : Ulid} {version : Version} {address : Address} {policy : Policy}
    {plan : Plan Parking}
    (h : Sees Moment.tables Later (Registry.updateAttempt ctx id version address policy) m ids plan
      m')
    (later : Later m' m'') (hok : ∀ c ∈ plan.txn, c.suits m''.tables) :
    Transition settings ctx m''.tables (.updateParking id version address policy) ids
      plan.txn := by
  simp only [Registry.updateAttempt, sees_lift_bind, sees_parking_bind, sees_pure] at h
  obtain ⟨_, admin, _, valid, p, _, ⟨-, hp⟩, _, current, rfl, rfl, rfl⟩ := h
  have hrow := hok _ (.tail _ (.head _))
  exact .updateParking admin valid (later.parking_current hp hrow) current

theorem of_addSector {parking : Ulid} {spec : SectorSpec} {plan : Plan Sector}
    (h : Sees Moment.tables Later (Registry.addSectorAttempt ctx parking spec) m ids plan m')
    (later : Later m' m'') (hok : ∀ c ∈ plan.txn, c.suits m''.tables) :
    Transition settings ctx m''.tables (.addSector parking spec) ids plan.txn := by
  simp only [Registry.addSectorAttempt, sees_lift_bind, sees_parking_bind, sees_guard,
    Registry.sees_requireFreeName_bind, sees_draw_bind, sees_pure] at h
  obtain ⟨_, admin, _, valid, p, m₁, ⟨-, hp⟩, room, ss, m₂, ⟨rows, free⟩, u, _, rfl, rfl, rfl,
    rfl⟩ := h
  have later' := (Later.of_seesRows rows).trans later
  have hp' := later'.parking_current hp (hok _ (.head _))
  rw [← isTaken_of_seesRows rows later hp hp'] at free
  exact .addSector admin valid hp' (Nat.lt_of_not_le room) free

theorem of_deleteParking {id : Ulid} {version : Version} {plan : Plan Unit}
    (h : Sees Moment.tables Later (Registry.deleteAttempt ctx id version) m ids plan m')
    (later : Later m' m'') (hok : ∀ c ∈ plan.txn, c.suits m''.tables) :
    Transition settings ctx m''.tables (.deleteParking id version) ids plan.txn := by
  simp only [Registry.deleteAttempt, sees_lift_bind, sees_parking_bind, sees_sectorsOf_bind] at h
  obtain ⟨_, admin, p, m₁, ⟨-, hp⟩, _, current, ss, m₂, rows, h⟩ := h
  obtain ⟨used, m₃, _, _, rfl, hused, hf⟩ := sees_bind.1 h
  cases used with
  | true => exact absurd hf not_sees_throw_bind
  | false =>
    obtain ⟨unused, rfl⟩ := Registry.sees_used.1 hused
    obtain ⟨rfl, rfl, rfl⟩ := sees_pure.1 hf
    have later₂ := (of_seesUnused unused).trans later
    have hp' := ((Later.of_seesRows rows).trans later₂).parking_current hp
      (hok _ (List.mem_append_right _ (.head _)))
    have hss : ss = m''.tables.sectorsOf p := by
      have rows' := Later.map_seesRows rows m''.tables.sectors.get? (fun s => s)
        fun k hk m₃ h₃ h₃' seen => ?_
      · rw [Tables.sectorsOf]
        simpa using rows'
      · obtain ⟨s₁, hs₁, -⟩ := (m₁.linked.listed hp).1 hk
        obtain ⟨s'', hs'', -⟩ := (m''.linked.listed hp').1 hk
        obtain ⟨s, hs, -⟩ := (h₃'.trans later₂).sector (h₃.used (m₁.sector_used hs₁)) hs''
        have hcurrent := (h₃'.trans later₂).sector_current hs
          (hok _ (List.mem_append_left _ (List.mem_map_of_mem (seen s hs))))
        simp only [hs, hcurrent]
    have unused' : ∀ s ∈ m''.tables.sectorsOf p, m''.tables.hasHistory s.id = false := by
      rw [← hss]
      intro s hs
      obtain ⟨k, -, m₄, -, h₄, hs₄⟩ := Later.exists_of_mem_seesRows rows hs
      obtain ⟨m₅, h₅, h₅', hunused⟩ := exists_of_seesUnused unused hs
      have hs'' := (h₄.trans later₂).sector_current hs₄
        (hok _ (List.mem_append_left _ (List.mem_map_of_mem hs)))
      obtain rfl := m₄.linked.sector_id hs₄
      rw [Tables.hasHistory, ← (Later.sector_between (h₄.trans h₅) (h₅'.trans later) hs₄ hs'').2]
      exact hunused
    subst hss
    exact .deleteParking admin hp' current unused'

theorem of_updateSector {id : Ulid} {version : Version} {spec : SectorSpec} {plan : Plan Sector}
    (h : Sees Moment.tables Later (Registry.updateSectorAttempt ctx id version spec) m ids plan m')
    (later : Later m' m'') (hok : ∀ c ∈ plan.txn, c.suits m''.tables) :
    Transition settings ctx m''.tables (.updateSector id version spec) ids plan.txn := by
  simp only [Registry.updateSectorAttempt, sees_lift_bind, sees_sector_bind, sees_guard] at h
  obtain ⟨_, admin, _, valid, s, m₁, ⟨-, hs⟩, _, current, frozen, fits, h⟩ := h
  have frozen : s.isFrozen spec ctx.now = false := Bool.eq_false_iff.2 frozen
  split at h
  next same =>
    obtain ⟨rfl, rfl, rfl⟩ := sees_pure.1 h
    exact .updateSector admin valid (later.sector_current hs (hok _ (.head _))) current frozen
      (Nat.le_of_not_lt fits) same
  next changes =>
    simp only [sees_parking_bind, Registry.sees_requireFreeName_bind] at h
    obtain ⟨p, m₂, ⟨step, hp⟩, ss, m₃, ⟨rows, free⟩, h⟩ := h
    obtain ⟨rfl, rfl, rfl⟩ := sees_pure.1 h
    have later₂ := (Later.of_seesRows rows).trans later
    have hp' := later₂.parking_current hp (hok _ (.head _))
    have hs' := (step.trans later₂).sector_current hs (hok _ (.tail _ (.head _)))
    rw [← isTaken_of_seesRows rows later hp hp'] at free
    exact .renameSector admin valid hs' current frozen (Nat.le_of_not_lt fits) changes hp' free

theorem of_activateSector {id : Ulid} {version : Version} {plan : Plan Sector}
    (h : Sees Moment.tables Later (Registry.activateAttempt ctx id version) m ids plan m')
    (later : Later m' m'') (hok : ∀ c ∈ plan.txn, c.suits m''.tables) :
    Transition settings ctx m''.tables (.activateSector id version) ids plan.txn := by
  simp only [Registry.activateAttempt, sees_lift_bind, sees_sector_bind, sees_guard,
    sees_pure] at h
  obtain ⟨_, admin, s, _, ⟨-, hs⟩, _, current, inactive, rfl, rfl, rfl⟩ := h
  exact .activateSector admin (later.sector_current hs (hok _ (.head _))) current
    (Bool.eq_false_iff.2 inactive)

theorem of_deactivateSector {id : Ulid} {version : Version} {time : Ms} {plan : Plan Sector}
    (h : Sees Moment.tables Later (Registry.deactivateAttempt ctx id version time) m ids plan m')
    (later : Later m' m'') (hok : ∀ c ∈ plan.txn, c.suits m''.tables) :
    Transition settings ctx m''.tables (.deactivateSector id version time) ids plan.txn := by
  simp only [Registry.deactivateAttempt, sees_lift_bind, sees_sector_bind, sees_guard,
    sees_pure] at h
  obtain ⟨_, admin, s, _, ⟨-, hs⟩, _, current, begun, bounded, active, rfl, rfl, rfl⟩ := h
  refine .deactivateSector admin (later.sector_current hs (hok _ (.head _))) current
    (Int.not_lt.1 begun) (Int.not_lt.1 bounded) ?_
  simpa using active

theorem of_deleteSector {id : Ulid} {version : Version} {plan : Plan Unit}
    (h : Sees Moment.tables Later (Registry.deleteSectorAttempt ctx id version) m ids plan m')
    (later : Later m' m'') (hok : ∀ c ∈ plan.txn, c.suits m''.tables) :
    Transition settings ctx m''.tables (.deleteSector id version) ids plan.txn := by
  simp only [Registry.deleteSectorAttempt, sees_lift_bind, sees_sector_bind,
    sees_hasHistory_bind, sees_guard, sees_parking_bind, sees_pure] at h
  obtain ⟨_, admin, s, m₁, ⟨-, hs⟩, _, current, m₂, step, unused, p, m₃, ⟨step', hp⟩, rfl, rfl,
    rfl⟩ := h
  have later₂ := step'.trans later
  have hp' := later.parking_current hp (hok _ (.head _))
  have hs' := (step.trans later₂).sector_current hs (hok _ (.tail _ (.head _)))
  have unused' : m''.tables.hasHistory id = false := by
    rw [Tables.hasHistory, ← (Later.sector_between step later₂ hs hs').2]
    exact Bool.eq_false_iff.2 unused
  exact .deleteSector admin hs' current unused' hp'

theorem of_finalize {id : Ulid} {plan : Plan Bool}
    (h : Sees Moment.tables Later (Registry.finalizeAttempt ctx id) m ids plan m')
    (later : Later m' m'') (hok : ∀ c ∈ plan.txn, c.suits m''.tables) (writes : plan.txn ≠ []) :
    Transition settings ctx m''.tables (.finalizeDeactivation id) ids plan.txn := by
  simp only [Registry.finalizeAttempt, sees_lift_bind] at h
  obtain ⟨_, admin, h⟩ := h
  obtain ⟨m₁, step, h⟩ := sees_ask_bind.1 h
  split at h
  next =>
    obtain ⟨rfl, -, -⟩ := sees_pure.1 h
    exact absurd rfl writes
  next s hs =>
    split at h
    next lapsed =>
      obtain ⟨rfl, rfl, rfl⟩ := sees_pure.1 h
      exact .finalize admin (later.sector_current hs (hok _ (.head _))) lapsed
    next =>
      obtain ⟨rfl, -, -⟩ := sees_pure.1 h
      exact absurd rfl writes

/-! ### Reservations -/

theorem overlapping_le_of_seesRows {m m' m'' : Moment} {sector : Ulid} {s : Sector}
    {rs : List Reservation} (window : Span)
    (rows : SeesRows Moment.tables Later (fun t => t.reservations.get?) m
      (m.tables.bySector.getList sector) rs m')
    (later : Later m' m'') (hs : m.tables.sectors.get? sector = some s)
    (hs'' : m''.tables.sectors.get? sector = some s) :
    Booking.overlapping window (m''.tables.reservationsOfSector sector) ≤
      Booking.overlapping window rs := by
  have list := (Later.sector_between (.refl m) ((Later.of_seesRows rows).trans later) hs hs'').2
  rw [Tables.reservationsOfSector, ← list]
  refine Later.countP_seesRows rows _ _ fun id hid m₁ h h' r'' hr'' counts => ?_
  obtain ⟨r, hr, -⟩ := m.linked.bySector.1 hid
  obtain ⟨r₁, hr₁, -, -⟩ := h.keeps _ _ hr
  obtain ⟨r', hr', becomes, -⟩ := (h'.trans later).keeps _ _ hr₁
  rw [hr''] at hr'
  cases hr'
  refine ⟨r₁, hr₁, ?_⟩
  simp only [Bool.and_eq_true, decide_eq_true_eq] at counts ⊢
  exact ⟨becomes.created counts.1, becomes.window ▸ counts.2⟩

theorem of_book {sector client : Ulid} {start stop : Ms} {window : Span}
    {plan : Plan Reservation}
    (request : Booking.request settings ctx start stop = .ok (client, window))
    (h : Sees Moment.tables Later (Booking.makeAttempt ctx client sector window) m ids plan m')
    (later : Later m' m'') (hok : ∀ c ∈ plan.txn, c.suits m''.tables) :
    Transition settings ctx m''.tables (.book sector start stop) ids plan.txn := by
  simp only [Booking.makeAttempt, sees_sector_bind, sees_guard, sees_reservationsOfSector_bind,
    sees_draw_bind, sees_pure] at h
  obtain ⟨s, m₁, ⟨-, hs⟩, admits, m₂, step, rs, m₃, rows, room, u, _, rfl, rfl, rfl, rfl⟩ := h
  have later₂ := (Later.of_seesRows rows).trans later
  have hs'' := (step.trans later₂).sector_current hs (hok _ (.head _))
  have hs₂ := (Later.sector_between step later₂ hs hs'').1
  have counted := overlapping_le_of_seesRows window rows later hs₂ hs''
  exact .book request hs'' (by simpa using admits)
    (Nat.lt_of_le_of_lt counted (Nat.lt_of_not_le room))

theorem of_cancel {id : Ulid} {plan : Plan Reservation}
    (h : Sees Moment.tables Later (Booking.cancelAttempt ctx id) m ids plan m')
    (later : Later m' m'') (hok : ∀ c ∈ plan.txn, c.suits m''.tables) :
    Transition settings ctx m''.tables (.cancel id) ids plan.txn := by
  simp only [Booking.cancelAttempt, sees_reservation_bind, sees_lift_bind, sees_guard,
    sees_events_bind, sees_pure] at h
  obtain ⟨r, m₁, ⟨-, hr⟩, _, owner, created, m₂, step, outside, rfl, rfl, rfl⟩ := h
  have hr'' := (step.trans later).reservation_current hr (hok _ (.head _))
  rw [Later.events_between step later hr hr''] at outside
  exact .cancel hr'' owner (Decidable.of_not_not created) (Bool.eq_false_iff.2 outside)

theorem of_enter {id : Ulid} {plan : Plan Ticket}
    (h : Sees Moment.tables Later (Gate.enterAttempt ctx id) m ids plan m')
    (later : Later m' m'') (hok : ∀ c ∈ plan.txn, c.suits m''.tables) :
    Transition settings ctx m''.tables (.enter id) ids plan.txn := by
  simp only [Gate.enterAttempt, sees_reservation_bind, sees_lift_bind, sees_guard,
    sees_events_bind, sees_sector_bind, sees_draw_bind, sees_pure] at h
  obtain ⟨r, m₁, ⟨-, hr⟩, _, owner, created, m₂, step, outside, begun, notOver, s, m₃,
    ⟨step', hs⟩, taken, htaken, u, _, rfl, v, _, rfl, rfl, rfl, rfl⟩ := h
  have later₂ := step'.trans later
  have hr'' := (step.trans later₂).reservation_current hr (hok _ (.tail _ (.head _)))
  have current := hok _ (.head _)
  obtain ⟨-, rfl⟩ := Sector.takePlace_eq_ok.1 htaken
  have hs'' := later.sector_current hs current
  rw [Later.events_between step later₂ hr hr''] at outside
  exact .enter hr'' owner (Decidable.of_not_not created) (Bool.eq_false_iff.2 outside)
    (Int.not_lt.1 begun) (Int.not_lt.1 notOver) hs'' htaken

theorem of_driveIn {parking : Ulid} {anonymous : Bool} {plan : Plan Ticket}
    (h : Sees Moment.tables Later (Gate.driveInAttempt settings ctx parking
      (if anonymous then none else ctx.caller.client?)) m ids plan m')
    (later : Later m' m'') (hok : ∀ c ∈ plan.txn, c.suits m''.tables) :
    Transition settings ctx m''.tables (.driveIn parking anonymous) ids plan.txn := by
  simp only [Gate.driveInAttempt, sees_parking_bind, sees_sectorsOf_bind] at h
  obtain ⟨p, m₁, ⟨-, hp⟩, ss, m₂, rows, h⟩ := h
  split at h
  next => exact absurd h not_sees_throw
  next s chosen =>
    simp only [sees_lift_bind, sees_draw_bind, sees_pure] at h
    obtain ⟨taken, htaken, u, _, rfl, v, _, rfl, w, _, rfl, rfl, rfl, rfl⟩ := h
    obtain ⟨k, hk, m₃, h₃, h₃', hs⟩ :=
      Later.exists_of_mem_seesRows rows (Policy.mem_of_choose chosen)
    have current := hok _ (.head _)
    obtain ⟨-, rfl⟩ := Sector.takePlace_eq_ok.1 htaken
    have hs'' := (h₃'.trans later).sector_current hs current
    obtain ⟨s₁, hs₁, parking₁⟩ := (m₁.linked.listed hp).1 hk
    have parking₃ : s.parking = parking := by
      obtain ⟨s', hs', same, -⟩ := h₃.sector (m₁.sector_used hs₁) hs
      rw [hs₁] at hs'
      cases hs'
      exact same.trans parking₁
    obtain ⟨p'', hp''⟩ := m''.linked.owned hs''
    rw [parking₃] at hp''
    have listed := (m''.linked.listed hp'').2 ⟨s, hs'', parking₃⟩
    obtain rfl := m₃.linked.sector_id hs
    exact .driveIn hp'' listed hs'' htaken

theorem of_exit {id : Ulid} {code : Option String} {ending : Bool} {plan : Plan Reservation}
    (h : Sees Moment.tables Later (Gate.exitAttempt ctx id code ending) m ids plan m')
    (later : Later m' m'') (hok : ∀ c ∈ plan.txn, c.suits m''.tables) :
    Transition settings ctx m''.tables (.exit id code ending) ids plan.txn := by
  simp only [Gate.exitAttempt, sees_reservation_bind, sees_lift_bind, sees_guard,
    sees_events_bind, sees_sector_bind, sees_draw_bind, sees_pure] at h
  obtain ⟨r, m₁, ⟨-, hr⟩, _, allowed, created, m₂, step, inside, s, m₃, ⟨step', hs⟩, freed,
    hfreed, u, _, rfl, rfl, rfl, rfl⟩ := h
  have later₂ := step'.trans later
  have current := hok _ (.head _)
  have hr'' := (step.trans later₂).reservation_current hr (hok _ (.tail _ (.head _)))
  obtain ⟨-, rfl⟩ := Sector.freePlace_eq_ok.1 hfreed
  have hs'' := later.sector_current hs current
  rw [Later.events_between step later₂ hr hr''] at inside
  exact .exit hr'' allowed (Decidable.of_not_not created) (by simpa using inside) hs'' hfreed

theorem of_expire {id : Ulid} {plan : Plan (Option Reservation)}
    (admin : ctx.requirePrivileged = .ok ())
    (h : Sees Moment.tables Later (Termination.expireAttempt ctx id) m ids plan m')
    (later : Later m' m'') (hok : ∀ c ∈ plan.txn, c.suits m''.tables) (writes : plan.txn ≠ []) :
    Transition settings ctx m''.tables (.expire id) ids plan.txn := by
  obtain ⟨m₁, step, h⟩ := sees_ask_bind.1 h
  split at h
  next =>
    obtain ⟨rfl, -, -⟩ := sees_pure.1 h
    exact absurd rfl writes
  next r hr =>
    obtain ⟨m₂, step', h⟩ := sees_events_bind.1 h
    split at h
    next expirable =>
      obtain ⟨rfl, rfl, rfl⟩ := sees_pure.1 h
      have hr'' := (step'.trans later).reservation_current hr (hok _ (.head _))
      rw [Later.events_between step' later hr hr''] at expirable
      exact .expire admin hr'' expirable
    next =>
      obtain ⟨rfl, -, -⟩ := sees_pure.1 h
      exact absurd rfl writes

theorem of_forceExit {id : Ulid} {plan : Plan (Option Reservation)}
    (admin : ctx.requirePrivileged = .ok ())
    (h : Sees Moment.tables Later (Termination.forceExitAttempt settings ctx id) m ids plan m')
    (later : Later m' m'') (hok : ∀ c ∈ plan.txn, c.suits m''.tables) (writes : plan.txn ≠ []) :
    Transition settings ctx m''.tables (.forceExit id) ids plan.txn := by
  obtain ⟨m₁, step, h⟩ := sees_ask_bind.1 h
  split at h
  next =>
    obtain ⟨rfl, -, -⟩ := sees_pure.1 h
    exact absurd rfl writes
  next r hr =>
    obtain ⟨m₂, step', h⟩ := sees_events_bind.1 h
    split at h
    next overstayed =>
      simp only [sees_sector_bind, sees_lift_bind, sees_draw_bind, sees_pure] at h
      obtain ⟨s, m₃, ⟨step'', hs⟩, freed, hfreed, u, _, rfl, rfl, rfl, rfl⟩ := h
      have later₂ := step''.trans later
      have current := hok _ (.head _)
      have hr'' := (step'.trans later₂).reservation_current hr (hok _ (.tail _ (.head _)))
      obtain ⟨-, rfl⟩ := Sector.freePlace_eq_ok.1 hfreed
      have hs'' := later.sector_current hs current
      rw [Later.events_between step' later₂ hr hr''] at overstayed
      exact .forceExit admin hr'' overstayed hs'' hfreed
    next =>
      obtain ⟨rfl, -, -⟩ := sees_pure.1 h
      exact absurd rfl writes

theorem of_close {id : Ulid} {plan : Plan Bool} (admin : ctx.requirePrivileged = .ok ())
    (h : Sees Moment.tables Later (Termination.closeAttempt ctx id) m ids plan m')
    (later : Later m' m'') (hok : ∀ c ∈ plan.txn, c.suits m''.tables) (writes : plan.txn ≠ []) :
    Transition settings ctx m''.tables (.close id) ids plan.txn := by
  obtain ⟨m₁, step, h⟩ := sees_ask_bind.1 h
  split at h
  next =>
    obtain ⟨rfl, -, -⟩ := sees_pure.1 h
    exact absurd rfl writes
  next r hr =>
    obtain ⟨m₂, step', h⟩ := sees_events_bind.1 h
    split at h
    next finished =>
      obtain ⟨rfl, rfl, rfl⟩ := sees_pure.1 h
      have hr'' := (step'.trans later).reservation_current hr (hok _ (.head _))
      rw [Later.events_between step' later hr hr''] at finished
      exact .close admin hr'' finished
    next =>
      obtain ⟨rfl, -, -⟩ := sees_pure.1 h
      exact absurd rfl writes

/-- What an attempt stages is a transition wherever its commit takes effect later on. -/
theorem of_sees {op : Operation} {txn : Txn}
    (h : Sees Moment.tables Later (op.staging settings ctx) m ids txn m') (later : Later m' m'')
    (hok : m''.tables.refusal? txn = none) (writes : txn ≠ []) :
    Transition settings ctx m''.tables op ids txn := by
  rw [Tables.refusal?_eq_none] at hok
  have read {α : Type} {l : Lookup α} {txn : Txn}
      (h : Sees Moment.tables Later (do let _ ← l; return []) m ids txn m') : txn = [] := by
    obtain ⟨_, _, _, _, -, -, h⟩ := sees_bind.1 h
    exact (sees_pure.1 h).1
  cases op with
  | createParking address policy =>
    obtain ⟨_, h⟩ := sees_txn.1 h
    exact of_createParking h
  | updateParking id version address policy =>
    obtain ⟨_, h⟩ := sees_txn.1 h
    exact of_updateParking h later hok
  | deleteParking id version =>
    obtain ⟨_, h⟩ := sees_txn.1 h
    exact of_deleteParking h later hok
  | addSector parking spec =>
    obtain ⟨_, h⟩ := sees_txn.1 h
    exact of_addSector h later hok
  | updateSector id version spec =>
    obtain ⟨_, h⟩ := sees_txn.1 h
    exact of_updateSector h later hok
  | activateSector id version =>
    obtain ⟨_, h⟩ := sees_txn.1 h
    exact of_activateSector h later hok
  | deactivateSector id version time =>
    obtain ⟨_, h⟩ := sees_txn.1 h
    exact of_deactivateSector h later hok
  | deleteSector id version =>
    obtain ⟨_, h⟩ := sees_txn.1 h
    exact of_deleteSector h later hok
  | finalizeDeactivation sector =>
    obtain ⟨_, h⟩ := sees_txn.1 h
    exact of_finalize h later hok writes
  | book sector start stop =>
    obtain ⟨⟨client, window⟩, request, h⟩ := sees_lift_bind.1 h
    obtain ⟨_, h⟩ := sees_txn.1 h
    exact of_book request h later hok
  | cancel id =>
    obtain ⟨_, h⟩ := sees_txn.1 h
    exact of_cancel h later hok
  | enter id =>
    obtain ⟨_, h⟩ := sees_txn.1 h
    exact of_enter h later hok
  | driveIn parking anonymous =>
    obtain ⟨_, h⟩ := sees_txn.1 h
    exact of_driveIn h later hok
  | exit id code ending =>
    obtain ⟨_, h⟩ := sees_txn.1 h
    exact of_exit h later hok
  | expire id =>
    obtain ⟨_, admin, h⟩ := sees_lift_bind.1 h
    obtain ⟨_, h⟩ := sees_txn.1 h
    exact of_expire admin h later hok writes
  | forceExit id =>
    obtain ⟨_, admin, h⟩ := sees_lift_bind.1 h
    obtain ⟨_, h⟩ := sees_txn.1 h
    exact of_forceExit admin h later hok writes
  | close id =>
    obtain ⟨_, admin, h⟩ := sees_lift_bind.1 h
    obtain ⟨_, h⟩ := sees_txn.1 h
    exact of_close admin h later hok writes
  | reservation id => exact absurd (read h) writes
  | reservations page => exact absurd (read h) writes
  | events id => exact absurd (read h) writes

end Transition

end Carpark
