import Carpark.Notification
import Carpark.Proofs.Lifecycle
import Mathlib.Data.List.Basic

/-!
What a log is news of. A client is to hear of a booking that was made for it, and of the end that
its reservation came to without its doing or by being cancelled. What a commit is news of shows in
the tables as they were before it.
-/

namespace Carpark

/-! ### News -/

abbrev News := List (Ulid × Notification)

def Reservation.addressed (r : Reservation) (n : Notification) : News :=
  r.client.toList.map (·, n)

def Commit.forcedExits (c : Commit) (id : Ulid) : List Ms :=
  c.filterMap fun
    | .appendEvent e => if e.reservation = id ∧ e.forced = true then some e.time else none
    | _ => none

/-- What it is news of if the commit writes the row, `before` being the status that the
reservation had, if it was there. -/
def Reservation.news (c : Commit) (before : Option Status) (r : Reservation) : News :=
  match before, r.status with
  | none, .created =>
    if r.booked then
      r.addressed (.reservationCreated r.id r.sector r.window.start r.window.stop)
    else []
  | some .created, .cancelled => r.addressed (.reservationCancelled r.id)
  | some .created, .expired => r.addressed (.reservationExpired r.id)
  | some .created, .ended =>
    (c.forcedExits r.id).flatMap fun time => r.addressed (.forcedExit r.id r.sector time)
  | _, _ => []

def Write.news (t : Tables) (c : Commit) : Write → News
  | .putReservation r => r.news c ((t.reservations.get? r.id).map (·.status))
  | _ => []

def Tables.news (t : Tables) (c : Commit) : News := c.flatMap (·.news t c)

def Tables.newsOf (t : Tables) : List Commit → News
  | [] => []
  | c :: cs => t.news c ++ (t.apply c).newsOf cs

def Change.news (c : Commit) : Change → News
  | .insertReservation r => r.news c none
  | .updateReservation r => r.news c (some .created)
  | _ => []

def Txn.news (txn : Txn) : News := txn.flatMap (·.news txn.writes)

theorem Txn.news_of_isEmpty {txn : Txn} (h : txn.isEmpty = true) : txn.news = [] := by
  refine List.flatMap_eq_nil_iff.2 fun c hc => ?_
  have none : c.write? = none := by
    have writes : txn.writes = [] := List.isEmpty_iff.1 h
    exact List.filterMap_eq_nil_iff.1 writes c hc
  cases c <;> first | rfl | cases none

/-! ### What comes to an end -/

namespace Tables

def Changeable (t : Tables) (c : Commit) : Prop :=
  ∀ r, .putReservation r ∈ c → ∀ b, t.reservations.get? r.id = some b → b.status = .created

def AllChangeable (t : Tables) : List Commit → Prop
  | [] => True
  | c :: cs => t.Changeable c ∧ (t.apply c).AllChangeable cs

theorem allChangeable_append {t : Tables} {cs ds : List Commit} :
    t.AllChangeable (cs ++ ds) ↔ t.AllChangeable cs ∧ (cs.foldl apply t).AllChangeable ds := by
  induction cs generalizing t with
  | nil => simp [AllChangeable]
  | cons c cs ih => simp [AllChangeable, ih, and_assoc]

theorem newsOf_append (t : Tables) (cs ds : List Commit) :
    t.newsOf (cs ++ ds) = t.newsOf cs ++ (cs.foldl apply t).newsOf ds := by
  induction cs generalizing t with
  | nil => rfl
  | cons c cs ih => simp [newsOf, ih]

theorem news_writes {t : Tables} {txn : Txn} (hok : ∀ c ∈ txn, c.suits t)
    (changeable : t.Changeable txn.writes) : t.news txn.writes = txn.news := by
  have single (c : Change) (hc : c ∈ txn) :
      c.write?.toList.flatMap (·.news t txn.writes) = c.news txn.writes := by
    cases c with
    | insertReservation r =>
      have new : t.reservations.get? r.id = none := hok _ hc
      simp only [Change.write?, Option.toList_some, List.flatMap_singleton, Write.news, new]
      rfl
    | updateReservation r =>
      obtain ⟨b, hb, -⟩ : ∃ b, t.reservations.get? r.id = some b ∧ _ := hok _ hc
      have created : b.status = .created :=
        changeable _ (List.mem_filterMap.2 ⟨_, hc, rfl⟩) b hb
      simp only [Change.write?, Option.toList_some, List.flatMap_singleton, Write.news, hb,
        Option.map_some, created]
      rfl
    | _ => rfl
  calc t.news txn.writes
      = txn.flatMap fun c => c.write?.toList.flatMap (·.news t txn.writes) := by
        rw [← List.flatMap_assoc, ← List.filterMap_eq_flatMap_toList]
        rfl
    _ = txn.news := List.flatMap_congr single

end Tables

namespace Transition

variable {settings : Settings} {ctx : Context} {t : Tables} {op : Operation} {ids : List Ulid}
  {txn : Txn}

theorem created_of_update (h : Transition settings ctx t op ids txn) (ht : t.Linked)
    {r b : Reservation} (hr : .updateReservation r ∈ txn)
    (hb : t.reservations.get? r.id = some b) : b.status = .created := by
  have row {id : Ulid} {r' : Reservation} (hr' : t.reservations.get? id = some r')
      (created : r'.status = .created) (same : r.id = r'.id) : b.status = .created := by
    rw [same, ht.reservation_id hr'] at hb
    cases hr'.symm.trans hb
    exact created
  cases h with
  | cancel hr' _ created _ | enter hr' _ created _ _ _ _ _ | exit hr' _ created _ _ _ =>
    exact row hr' created (by simp at hr; exact hr ▸ rfl)
  | expire _ hr' due =>
    exact row hr' (Reservation.isExpirable_iff.1 due).1.1 (by simp at hr; exact hr ▸ rfl)
  | forceExit _ hr' due =>
    exact row hr' (Reservation.isOccupying_iff.1 (Reservation.isOverstayed_iff.1 due).1).1
      (by simp at hr; exact hr ▸ rfl)
  | close _ hr' due =>
    exact row hr' (Reservation.isFinished_iff.1 due).1.1.1 (by simp at hr; exact hr ▸ rfl)
  | _ => simp at hr

theorem changeable (h : Transition settings ctx t op ids txn) (ht : t.Linked)
    (hok : ∀ c ∈ txn, c.suits t) : t.Changeable txn.writes := by
  intro r hr b hb
  obtain ⟨c, hc, write⟩ := List.mem_filterMap.1 hr
  cases c with
  | insertReservation r' =>
    cases write
    have new : t.reservations.get? r'.id = none := hok _ hc
    cases new.symm.trans hb
  | updateReservation r' =>
    cases write
    exact h.created_of_update ht hc hb
  | _ => cases write

end Transition

end Carpark
