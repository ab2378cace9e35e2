import Carpark.Proofs.GateLog
import Carpark.Proofs.Stays

/-!
What there is for a sweep to do. Each phase looks for rows of its own, no reservation is due in two
phases, and what is done about one row leaves all the others due that were so before.
-/

namespace Carpark

namespace Table

variable {κ α β : Type} [Key κ]

theorem keys_insert {t : Table κ α} {k : κ} {b : α} (h : t.get? k = some b) (a : α) :
    (t.insert k a).keys = t.keys := by
  have put {l : List (κ × α)} (h : lookup k l = some b) :
      (Table.put k a l).map (·.1) = l.map (·.1) := by
    induction l with
    | nil => cases h
    | cons hd tl ih =>
      simp only [lookup] at h
      simp only [Table.put]
      split at h
      · cases h
      next hlt =>
        split at h
        next hgt => simp [hlt, hgt, ih h]
        next hgt => simp [Key.connected hlt hgt, Key.irrefl]
  exact put h

theorem map_filter_values {t : Table κ α} {key : α → κ} (h : ∀ {k a}, t.get? k = some a → key a = k)
    (P : α → Bool) :
    (t.values.filter P).map key = t.keys.filter fun k => (t.get? k).any P := by
  have rows (l : List (κ × α)) (hl : ∀ e ∈ l, e ∈ t.entries) :
      ((l.map (·.2)).filter P).map key = (l.map (·.1)).filter fun k => (t.get? k).any P := by
    induction l with
    | nil => rfl
    | cons e l ih =>
      have found : t.get? e.1 = some e.2 := mem_entries.1 (hl e List.mem_cons_self)
      have rest := ih fun e' he' => hl e' (List.mem_cons_of_mem _ he')
      cases hP : P e.2 with
      | true => simp [found, hP, h found, rest]
      | false => simp [found, hP, rest]
  exact rows t.entries fun _ he => he

theorem mem_keys {t : Table κ α} {k : κ} : k ∈ t.keys ↔ ∃ a, t.get? k = some a := by
  simp [keys, ← mem_entries]

end Table

/-! ### Due rows -/

def Reservation.isDue (settings : Settings) (now : Ms) (r : Reservation) (events : List GateEvent) :
    SweepPhase → Bool
  | .expired => r.isExpirable events now
  | .forceEnded => r.isOverstayed events settings.grace now
  | .closed => r.isFinished events now
  | .deactivated => false

def Sector.isLapsed (now : Ms) (s : Sector) : Bool := s.active && s.deactivation.any (· ≤ now)

namespace Tables

variable (settings : Settings) (now : Ms) (t : Tables)

def due : SweepPhase → List Ulid
  | .deactivated => t.sectors.keys.filter fun id => (t.sectors.get? id).any (·.isLapsed now)
  | phase => t.reservations.keys.filter fun id =>
    (t.reservations.get? id).any fun r => r.isDue settings now (t.eventsOf id) phase

end Tables

/-! ### Rows after a step -/

def SweepPhase.ending : SweepPhase → Status
  | .expired => .expired
  | _ => .ended

def Reservation.endedBy (phase : SweepPhase) (r : Reservation) : Reservation :=
  { r with status := phase.ending, version := r.version + 1 }

theorem Reservation.endedBy_terminal (r : Reservation) (phase : SweepPhase) :
    (r.endedBy phase).status ≠ .created := by
  cases phase <;> exact nofun

namespace Sector

def freed (s : Sector) : Sector :=
  { s with availablePlaces := s.availablePlaces + 1, version := s.version + 1 }

def closed (s : Sector) : Sector := { s with active := false, version := s.version + 1 }

@[simp] theorem id_freed (s : Sector) : s.freed.id = s.id := rfl
@[simp] theorem id_closed (s : Sector) : s.closed.id = s.id := rfl

end Sector

def GateEvent.forcedExit (id reservation : Ulid) (time : Ms) : GateEvent :=
  { id, reservation, time, kind := .exit, forced := true }

/-! ### Who is due when -/

theorem Sector.isLapsed_mono {now now' : Ms} {s : Sector} (hle : now' ≤ now)
    (h : s.isLapsed now' = true) : s.isLapsed now = true := by
  simp only [isLapsed, Bool.and_eq_true, Option.any_eq_true, decide_eq_true_eq] at h ⊢
  obtain ⟨active, d, hd, le⟩ := h
  exact ⟨active, d, hd, Int.le_trans le hle⟩

namespace Reservation

variable {settings : Settings} {now now' : Ms} {r : Reservation} {es : List GateEvent}
  {phase phase' : SweepPhase}

theorem isDue_unique (h : r.isDue settings now es phase = true)
    (h' : r.isDue settings now es phase' = true) : phase = phase' := by
  have inside (h : r.isOccupying es = true) : hasEntered es = true := by
    rw [← Bool.not_eq_false]
    intro unused
    cases h.symm.trans (r.not_isOccupying_of_not_hasEntered unused)
  cases phase <;> cases phase' <;>
    simp only [isDue, isExpirable_iff, isOverstayed_iff, isFinished_iff, reduceCtorEq] at h h' ⊢ <;>
    grind

theorem isDue_of_terminal (h : r.status ≠ .created) : r.isDue settings now es phase = false := by
  cases phase <;> simp [isDue, isExpirable, isOverstayed, isFinished, isOccupying, h]

theorem isDue_mono (hle : now' ≤ now) (h : r.isDue settings now' es phase = true) :
    r.isDue settings now es phase = true := by
  cases phase <;>
    simp only [isDue, isExpirable_iff, isOverstayed_iff, isFinished_iff] at h ⊢ <;> grind

theorem of_not_isDue (created : r.status = .created)
    (h : ∀ phase, r.isDue settings now es phase = false) :
    now ≤ r.window.stop ∨ r.isOccupying es = true ∧ now ≤ r.window.stop + settings.grace := by
  have h₁ := Bool.eq_false_iff.1 (h .expired)
  have h₂ := Bool.eq_false_iff.1 (h .forceEnded)
  have h₃ := Bool.eq_false_iff.1 (h .closed)
  simp only [isDue, ne_eq, isExpirable_iff, isOverstayed_iff, isFinished_iff] at h₁ h₂ h₃
  rcases Int.lt_or_le r.window.stop now with past | ahead
  · right
    grind
  · exact .inl ahead

end Reservation

namespace Tables

variable {settings : Settings} {now now' : Ms} {t t' t'' : Tables} {phase : SweepPhase} {id : Ulid}

theorem due_eq (h : phase ≠ .deactivated) :
    t.due settings now phase = t.reservations.keys.filter fun id =>
      (t.reservations.get? id).any fun r => r.isDue settings now (t.eventsOf id) phase := by
  cases phase with
  | deactivated => exact absurd rfl h
  | _ => rfl

theorem mem_due (h : phase ≠ .deactivated) :
    id ∈ t.due settings now phase ↔ ∃ r, t.reservations.get? id = some r ∧
      r.isDue settings now (t.eventsOf id) phase = true := by
  rw [due_eq h, List.mem_filter, Table.mem_keys]
  cases t.reservations.get? id <;> simp

theorem mem_due_deactivated : id ∈ t.due settings now .deactivated ↔
    ∃ s, t.sectors.get? id = some s ∧ s.isLapsed now = true := by
  rw [due, List.mem_filter, Table.mem_keys]
  cases t.sectors.get? id <;> simp

theorem due_nodup (phase : SweepPhase) : (t.due settings now phase).Nodup := by
  cases phase with
  | deactivated => exact t.sectors.keys_nodup.filter _
  | _ => exact t.reservations.keys_nodup.filter _

theorem due_mono (hle : now' ≤ now) (h : id ∈ t.due settings now' phase) :
    id ∈ t.due settings now phase := by
  by_cases hphase : phase = .deactivated
  · subst hphase
    obtain ⟨s, hs, lapsed⟩ := mem_due_deactivated.1 h
    exact mem_due_deactivated.2 ⟨s, hs, Sector.isLapsed_mono hle lapsed⟩
  · obtain ⟨r, hr, due⟩ := (mem_due hphase).1 h
    exact (mem_due hphase).2 ⟨r, hr, Reservation.isDue_mono hle due⟩

theorem due_deactivated {s s' : Sector} (hs : t.sectors.get? id = some s)
    (rows : t'.sectors = t.sectors.insert id s') (active : s'.active = s.active)
    (deactivation : s'.deactivation = s.deactivation) :
    t'.due settings now .deactivated = t.due settings now .deactivated := by
  simp only [due, rows, Table.keys_insert hs]
  refine List.filter_congr fun k _ => ?_
  rw [Table.get?_insert]
  split
  next hk => simp [hk, hs, Sector.isLapsed, active, deactivation]
  next => rfl

/-- From `t` to `t'` a phase ends a reservation for which it was due. -/
structure Ends (settings : Settings) (now : Ms) (phase : SweepPhase) (r : Reservation)
    (t t' : Tables) : Prop where
  row : t.reservations.get? r.id = some r
  due : r.isDue settings now (t.eventsOf r.id) phase = true
  reservations : t'.reservations = t.reservations.insert r.id (r.endedBy phase)
  events : ∀ k, k ≠ r.id → t'.eventsOf k = t.eventsOf k

/-- The phase has done what there was to do about these rows, and all else is due as before. -/
def Clears (settings : Settings) (now : Ms) (phase : SweepPhase) (ids : List Ulid)
    (t t' : Tables) : Prop :=
  ∀ p, t'.due settings now p = (t.due settings now p).filter fun id => ¬ (p = phase ∧ id ∈ ids)

namespace Clears

variable {ids : List Ulid}

theorem nil (phase : SweepPhase) (t : Tables) : Clears settings now phase [] t t :=
  fun _ => (List.filter_eq_self.2 (by simp)).symm

theorem cons (h : Clears settings now phase [id] t t') (h' : Clears settings now phase ids t' t'') :
    Clears settings now phase (id :: ids) t t'' := by
  intro p
  rw [h' p, h p, List.filter_filter]
  refine List.filter_congr fun k _ => ?_
  by_cases hp : p = phase <;> simp [hp, Bool.and_comm]

theorem other (h : Clears settings now phase ids t t') {p : SweepPhase} (hp : p ≠ phase) :
    t'.due settings now p = t.due settings now p := by
  rw [h p]
  simp [hp]

theorem all (h : Clears settings now phase (t.due settings now phase) t t') :
    t'.due settings now phase = [] := by
  rw [h phase]
  simp

theorem of_ends {r : Reservation} (h : Ends settings now phase r t t')
    (sectors : t'.due settings now .deactivated = t.due settings now .deactivated) :
    Clears settings now phase [r.id] t t' := by
  intro p
  by_cases hp : p = .deactivated
  · have other : p ≠ phase := by
      rintro rfl
      have due := h.due
      subst hp
      cases due
    subst hp
    rw [sectors]
    exact (List.filter_eq_self.2 (by simp [other])).symm
  · rw [due_eq hp, due_eq hp, h.reservations, Table.keys_insert h.row, List.filter_filter]
    refine List.filter_congr fun k _ => ?_
    rw [Table.get?_insert]
    by_cases hk : k = r.id
    · subst hk
      have gone : (r.endedBy phase).isDue settings now (t'.eventsOf r.id) p = false :=
        Reservation.isDue_of_terminal (r.endedBy_terminal phase)
      simp only [if_true, Option.any_some, gone, h.row, List.mem_singleton, and_true]
      by_cases same : p = phase
      · simp [same]
      · have := Bool.eq_false_iff.2 fun due => same (Reservation.isDue_unique due h.due)
        simp [same, this]
    · simp [hk, h.events k hk]

theorem of_sector {s s' : Sector} (hs : t.sectors.get? id = some s)
    (rows : t'.sectors = t.sectors.insert id s') (done : s'.isLapsed now = false)
    (reservations : t'.reservations = t.reservations) (events : t'.eventsOf = t.eventsOf) :
    Clears settings now .deactivated [id] t t' := by
  intro p
  by_cases hp : p = .deactivated
  · subst hp
    simp only [due]
    rw [rows, Table.keys_insert hs, List.filter_filter]
    refine List.filter_congr fun k _ => ?_
    rw [Table.get?_insert]
    by_cases hk : k = id <;> simp [hk, done]
  · rw [due_eq hp, due_eq hp, reservations, events]
    simp [hp]

end Clears

end Tables

/-! ### Steps of a sweep -/

def SweepPhase.operation (id : Ulid) : SweepPhase → Operation
  | .expired => .expire id
  | .forceEnded => .forceExit id
  | .closed => .close id
  | .deactivated => .finalizeDeactivation id

variable {settings : Settings} {now : Ms} {t : Tables} {phase : SweepPhase} {id : Ulid}
  {lost : Ulid → Nat}

theorem Tables.Balanced.freePlace (hb : t.Balanced lost) {r : Reservation}
    (hr : t.reservations.get? id = some r) (hid : r.id = id)
    (inside : r.isOccupying (t.eventsOf id) = true) {s : Sector}
    (hs : t.sectors.get? r.sector = some s) :
    s.freePlace = .ok { s with availablePlaces := s.availablePlaces + 1 } := by
  have counted : 0 < t.inside r.sector := by
    refine List.countP_pos_iff.2 ⟨r, Table.mem_values.2 ⟨id, hr⟩, ?_⟩
    simp [Tables.occupies, hid, inside]
  have balance := hb r.sector s hs
  exact Sector.freePlace_eq_ok.2 ⟨by omega, rfl⟩

theorem Transition.of_due (ht : t.Linked) (hb : t.Balanced lost)
    (h : id ∈ t.due settings now phase) (u : Ulid) :
    ∃ ids txn, Transition settings ⟨.system, now⟩ t (phase.operation id) ids txn ∧
      (∀ c ∈ txn, c.suits t) ∧ (ids = [] ∨ ids = [u]) := by
  have row (h : id ∈ t.due settings now phase) (hphase : phase ≠ .deactivated) :=
    (Tables.mem_due hphase).1 h
  cases phase with
  | expired =>
    obtain ⟨r, hr, due⟩ := row h (by decide)
    obtain rfl := ht.reservation_id hr
    exact ⟨_, _, .expire rfl hr due, by simp [Change.suits, hr], .inl rfl⟩
  | forceEnded =>
    obtain ⟨r, hr, due⟩ := row h (by decide)
    obtain rfl := ht.reservation_id hr
    obtain ⟨s, hs, -⟩ := ht.placed hr
    have hsid := ht.sector_id hs
    have freed := hb.freePlace hr rfl (Reservation.isOverstayed_iff.1 due).1 hs
    refine ⟨[u], _, .forceExit rfl hr due hs freed, ?_, .inr rfl⟩
    simp [Change.suits, hr, hsid, hs]
  | closed =>
    obtain ⟨r, hr, due⟩ := row h (by decide)
    obtain rfl := ht.reservation_id hr
    exact ⟨_, _, .close rfl hr due, by simp [Change.suits, hr], .inl rfl⟩
  | deactivated =>
    obtain ⟨s, hs, lapsed⟩ := Tables.mem_due_deactivated.1 h
    obtain rfl := ht.sector_id hs
    exact ⟨_, _, .finalize rfl hs lapsed, by simp [Change.suits, hs], .inl rfl⟩

namespace Tables

/-- A step of a sweep: a reservation comes to its end, its car is written off, or a deactivation
takes effect. -/
inductive SweepStep (settings : Settings) (now : Ms) (t : Tables) :
    SweepPhase → Ulid → Tables → Prop
  | ends {phase : SweepPhase} {r : Reservation} :
    phase ≠ .forceEnded → t.reservations.get? r.id = some r →
    r.isDue settings now (t.eventsOf r.id) phase = true →
    SweepStep settings now t phase r.id (t.putReservation (r.endedBy phase))
  | evicts {r : Reservation} {s : Sector} {u : Ulid} :
    t.reservations.get? r.id = some r →
    r.isDue settings now (t.eventsOf r.id) .forceEnded = true →
    t.sectors.get? s.id = some s → r.sector = s.id →
    SweepStep settings now t .forceEnded r.id
      (((t.putSector s.freed).putReservation (r.endedBy .forceEnded)).addEvent
        (.forcedExit u r.id now))
  | closes {s : Sector} :
    t.sectors.get? s.id = some s → s.isLapsed now = true →
    SweepStep settings now t .deactivated s.id (t.putSector s.closed)

theorem Ends.putReservation {r : Reservation} (hr : t.reservations.get? r.id = some r)
    (due : r.isDue settings now (t.eventsOf r.id) phase = true) :
    Ends settings now phase r t (t.putReservation (r.endedBy phase)) where
  row := hr
  due := due
  reservations := t.reservations_putReservation _
  events k _ := by rw [eventsOf_putReservation]

theorem Ends.gate {r : Reservation} {e : GateEvent} (s : Sector)
    (hr : t.reservations.get? r.id = some r) (he : e.reservation = r.id)
    (due : r.isDue settings now (t.eventsOf r.id) phase = true) :
    Ends settings now phase r t
      (((t.putSector s).putReservation (r.endedBy phase)).addEvent e) where
  row := hr
  due := due
  reservations := (t.putSector s).reservations_putReservation _
  events k hk := by simp [eventsOf_addEvent, he, hk]

namespace SweepStep

variable {earlier : Ms}

theorem due (h : SweepStep settings now t phase id t') : id ∈ t.due settings now phase := by
  cases h with
  | ends _ hr due =>
    refine (mem_due ?_).2 ⟨_, hr, due⟩
    rintro rfl
    cases due
  | evicts hr due => exact (mem_due (by decide)).2 ⟨_, hr, due⟩
  | closes hs lapsed => exact mem_due_deactivated.2 ⟨_, hs, lapsed⟩

theorem clears (h : SweepStep settings earlier t phase id t') (hle : earlier ≤ now) :
    Clears settings now phase [id] t t' := by
  cases h with
  | ends _ hr due =>
    exact .of_ends (.putReservation hr (Reservation.isDue_mono hle due)) (by simp [Tables.due])
  | @evicts r s u hr due hs =>
    refine .of_ends (.gate s.freed hr rfl (Reservation.isDue_mono hle due)) ?_
    exact due_deactivated hs ((t.putSector s.freed).sectors_putReservation _) rfl rfl
  | closes hs lapsed => exact .of_sector hs (t.sectors_putSector _) rfl rfl rfl

end SweepStep

end Tables

theorem Transition.sweepStep {ctx : Context} {ids : List Ulid} {txn : Txn} (ht : t.Linked)
    (h : Transition settings ctx t (phase.operation id) ids txn) :
    Tables.SweepStep settings ctx.now t phase id (t.apply txn.writes) := by
  cases phase with
  | expired =>
    cases h with
    | @expire _ r _ hr due =>
      obtain rfl := ht.reservation_id hr
      exact .ends (r := r) (by decide) hr due
  | forceEnded =>
    cases h with
    | @forceExit _ u r s freed _ hr due hs freed =>
      obtain rfl := ht.reservation_id hr
      obtain ⟨-, rfl⟩ := Sector.freePlace_eq_ok.1 freed
      have hsector := (ht.sector_id hs).symm
      have step := Tables.SweepStep.evicts (u := u) hr due (hsector ▸ hs) hsector
      rwa [← Tables.apply_gate] at step
  | closed =>
    cases h with
    | @close _ r _ hr due =>
      obtain rfl := ht.reservation_id hr
      exact .ends (r := r) (by decide) hr due
  | deactivated =>
    cases h with
    | @finalize _ s _ hs lapsed =>
      obtain rfl := ht.sector_id hs
      exact .closes (s := s) hs lapsed

end Carpark
