import Carpark.Hub
import Carpark.Proofs.Table

/-!
What becomes of the notifications that are handed to the hub. To each of its receivers the hub looks
like a queue of its own: what is sent to the client waits in it from the subscription on until the
channel is removed, and is received or skipped in this order.
-/

namespace Carpark

/-! ### Steps -/

namespace Hub

inductive Step
  | subscribe (client : Ulid)
  | send (client : Ulid) (n : Notification)
  | remove (client : Ulid)
  | receive (receiver : Nat)
  deriving DecidableEq

def step (h : Hub) : Step → Hub
  | .subscribe client => h.subscribe client
  | .send client n => h.send client n
  | .remove client => h.remove client
  | .receive i => (h.receive i).2

def run (h : Hub) (steps : List Step) : Hub := steps.foldl step h

def gets (r : Nat) (h : Hub) : Step → List Receipt
  | .receive i => if i = r then [(h.receive i).1] else []
  | _ => []

def receipts (r : Nat) (h : Hub) : List Step → List Receipt
  | [] => []
  | s :: steps => h.gets r s ++ (h.step s).receipts r steps

end Hub

/-! ### A queue for each receiver -/

def Channel.excess (pending : List Notification) : Nat := pending.length - capacity

theorem Channel.excess_le (pending : List Notification) : excess pending ≤ pending.length :=
  Nat.sub_le _ _

/-- A subscription from the outside: what has been sent and waits to be received. -/
structure Subscription where
  client : Ulid
  pending : List Notification
  closed : Bool

namespace Subscription

open Hub (Step)

variable {s : Subscription} {r : Nat}

def receive (s : Subscription) : Receipt × Subscription :=
  let excess := Channel.excess s.pending
  if 0 < excess then (.lagged excess, { s with pending := s.pending.drop excess })
  else match s.pending with
    | n :: rest => (.received n, { s with pending := rest })
    | [] => (if s.closed then .closed else .empty, s)

def step (r : Nat) (s : Subscription) : Step → Subscription
  | .subscribe _ => s
  | .send client n =>
    if client = s.client ∧ s.closed = false then { s with pending := s.pending ++ [n] } else s
  | .remove client => if client = s.client then { s with closed := true } else s
  | .receive i => if i = r then s.receive.2 else s

def run (r : Nat) (s : Subscription) (steps : List Step) : Subscription := steps.foldl (step r) s

def gets (r : Nat) (s : Subscription) : Step → List Receipt
  | .receive i => if i = r then [s.receive.1] else []
  | _ => []

def receipts (r : Nat) (s : Subscription) : List Step → List Receipt
  | [] => []
  | step :: steps => s.gets r step ++ (s.step r step).receipts r steps

theorem receive_of_excess (h : 0 < Channel.excess s.pending) :
    s.receive = (.lagged (Channel.excess s.pending),
      { s with pending := s.pending.drop (Channel.excess s.pending) }) := by
  rw [receive, if_pos h]

theorem receive_of_cons {n : Notification} {rest : List Notification}
    (h : Channel.excess s.pending = 0)
    (pending : s.pending = n :: rest) : s.receive = (.received n, { s with pending := rest }) := by
  rw [receive, if_neg (by omega), pending]

theorem receive_of_nil (pending : s.pending = []) :
    s.receive = (if s.closed then .closed else .empty, s) := by
  have none : Channel.excess s.pending = 0 := by
    rw [Channel.excess, pending, List.length_nil, Nat.zero_sub]
  rw [receive, if_neg (by omega), pending]

end Subscription

/-! ### Channels -/

namespace Channel

variable {c : Channel} {all : List Notification} {next : Nat}

structure Holds (c : Channel) (all : List Notification) : Prop where
  dropped : c.dropped = all.length - capacity
  kept : c.kept = all.drop c.dropped

theorem Holds.fresh : fresh.Holds [] := ⟨rfl, rfl⟩

theorem Holds.sent (h : c.Holds all) : c.sent = all.length := by
  rw [Channel.sent, h.kept, List.length_drop, h.dropped]
  omega

theorem closed_send (c : Channel) (n : Notification) : (c.send n).closed = c.closed := by
  rw [send]

theorem Holds.send (h : c.Holds all) (n : Notification) : (c.send n).Holds (all ++ [n]) := by
  have dropped := h.dropped
  have early : c.dropped ≤ all.length := by omega
  have sum : c.dropped + ((c.kept ++ [n]).length - capacity) = (all ++ [n]).length - capacity := by
    simp only [h.kept, List.length_append, List.length_drop, List.length_singleton]
    omega
  refine ⟨sum, ?_⟩
  simp only [Channel.send]
  rw [← List.drop_drop, List.drop_append_of_le_length early, ← h.kept]

theorem Holds.receive (h : c.Holds all) (early : next ≤ all.length) {s : Subscription}
    (pending : s.pending = all.drop next) (closed : s.closed = c.closed) :
    (c.receive next).1 = s.receive.1 ∧ (c.receive next).2 ≤ all.length ∧
      s.receive.2 = { s with pending := all.drop (c.receive next).2 } := by
  have excess : excess s.pending = c.dropped - next := by
    rw [Channel.excess, pending, List.length_drop, h.dropped]
    omega
  by_cases lag : next < c.dropped
  · have got : c.receive next = (.lagged (c.dropped - next), c.dropped) := if_pos lag
    have early : c.dropped ≤ all.length := h.dropped ▸ Nat.sub_le _ _
    rw [got, Subscription.receive_of_excess (excess ▸ Nat.sub_pos_of_lt lag), excess]
    refine ⟨rfl, early, ?_⟩
    rw [pending, List.drop_drop, Nat.add_sub_cancel' (Nat.le_of_lt lag)]
  · have none : Channel.excess s.pending = 0 := excess ▸ Nat.sub_eq_zero_of_le (Nat.not_lt.1 lag)
    have kept : c.kept[next - c.dropped]? = all[next]? := by
      rw [h.kept, List.getElem?_drop, Nat.add_sub_cancel' (Nat.not_lt.1 lag)]
    rcases Nat.lt_or_eq_of_le early with inside | last
    · have got : c.receive next = (.received all[next], next + 1) := by
        rw [Channel.receive, if_neg lag, kept, List.getElem?_eq_getElem inside]
      rw [got, Subscription.receive_of_cons none (pending.trans (List.drop_eq_getElem_cons inside))]
      exact ⟨rfl, inside, rfl⟩
    · have got : c.receive next = (if c.closed then .closed else .empty, next) := by
        rw [Channel.receive, if_neg lag, kept, List.getElem?_eq_none (Nat.le_of_eq last.symm)]
      have nil : s.pending = [] := pending.trans (List.drop_eq_nil_of_le (Nat.le_of_eq last.symm))
      rw [got, Subscription.receive_of_nil nil]
      refine ⟨by rw [closed], early, ?_⟩
      rw [← pending]

end Channel

/-! ### One receiver -/

namespace Hub

variable {h : Hub} {r : Nat} {s : Subscription} {client : Ulid}

structure Sound (h : Hub) : Prop where
  channel : ∀ {client i}, h.live.get? client = some i →
    ∃ c all, h.channels[i]? = some c ∧ c.closed = false ∧ c.Holds all
  own : ∀ {client client' i}, h.live.get? client = some i → h.live.get? client' = some i →
    client = client'

theorem Sound.empty : empty.Sound where
  channel live := by simp [Hub.empty] at live
  own live := by simp [Hub.empty] at live

theorem lt_length_of_getElem? {α : Type} {l : List α} {i : Nat} {a : α} (h : l[i]? = some a) :
    i < l.length := (List.getElem?_eq_some_iff.1 h).1

theorem Sound.subscribe (h' : h.Sound) (client : Ulid) : (h.subscribe client).Sound := by
  cases live : h.live.get? client with
  | some i =>
    rw [Hub.subscribe, live]
    exact ⟨h'.channel, h'.own⟩
  | none =>
    rw [Hub.subscribe, live]
    have old {k i} (hk : (h.live.insert client h.channels.length).get? k = some i) :
        k = client ∧ i = h.channels.length ∨ h.live.get? k = some i ∧ i < h.channels.length := by
      rw [Table.get?_insert] at hk
      split at hk
      next same => exact .inl ⟨same, (Option.some.inj hk).symm⟩
      next =>
        obtain ⟨c, all, hc, -⟩ := h'.channel hk
        exact .inr ⟨hk, lt_length_of_getElem? hc⟩
    constructor
    · intro k i hk
      rcases old hk with ⟨-, rfl⟩ | ⟨hk, made⟩
      · exact ⟨.fresh, [], List.getElem?_concat_length, rfl, .fresh⟩
      · obtain ⟨c, all, hc, rest⟩ := h'.channel hk
        exact ⟨c, all, by rwa [List.getElem?_append_left made], rest⟩
    · intro k k' i hk hk'
      rcases old hk with ⟨rfl, rfl⟩ | ⟨hk, made⟩
      · rcases old hk' with ⟨rfl, -⟩ | ⟨-, made⟩
        · rfl
        · exact absurd made (Nat.lt_irrefl _)
      · rcases old hk' with ⟨-, rfl⟩ | ⟨hk', -⟩
        · exact absurd made (Nat.lt_irrefl _)
        · exact h'.own hk hk'

theorem Sound.send (h' : h.Sound) (client : Ulid) (n : Notification) :
    (h.send client n).Sound := by
  cases live : h.live.get? client with
  | none =>
    rw [Hub.send, live]
    exact h'
  | some i =>
    rw [Hub.send, live]
    refine ⟨fun {k j} hk => ?_, h'.own⟩
    obtain ⟨c, all, hc, opened, holds⟩ := h'.channel hk
    by_cases hi : i = j
    · subst hi
      refine ⟨c.send n, all ++ [n], ?_, (c.closed_send n).trans opened, holds.send n⟩
      rw [List.getElem?_modify_eq, hc]
      rfl
    · exact ⟨c, all, (List.getElem?_modify_ne _ _ hi).trans hc, opened, holds⟩

theorem Sound.remove (h' : h.Sound) (client : Ulid) : (h.remove client).Sound := by
  cases live : h.live.get? client with
  | none =>
    rw [Hub.remove, live]
    exact h'
  | some i =>
    rw [Hub.remove, live]
    have old {k j} (hk : (h.live.erase client).get? k = some j) :
        h.live.get? k = some j ∧ i ≠ j := by
      rw [Table.get?_erase] at hk
      split at hk
      next => cases hk
      next other => exact ⟨hk, fun same => other (h'.own hk (same ▸ live))⟩
    refine ⟨fun {k j} hk => ?_, fun hk hk' => h'.own (old hk).1 (old hk').1⟩
    obtain ⟨hk, other⟩ := old hk
    obtain ⟨c, all, hc, rest⟩ := h'.channel hk
    exact ⟨c, all, (List.getElem?_modify_ne _ _ other).trans hc, rest⟩

theorem Sound.receive (h' : h.Sound) (i : Nat) : (h.receive i).2.Sound := by
  cases receiver : h.receivers[i]? with
  | none =>
    rw [Hub.receive, receiver]
    exact h'
  | some rx =>
    rw [Hub.receive, receiver]
    exact ⟨h'.channel, h'.own⟩

theorem Sound.run (h' : h.Sound) (steps : List Step) : (h.run steps).Sound := by
  induction steps generalizing h with
  | nil => exact h'
  | cons step steps ih =>
    cases step with
    | subscribe client => exact ih (h'.subscribe client)
    | send client n => exact ih (h'.send client n)
    | remove client => exact ih (h'.remove client)
    | receive i => exact ih (h'.receive i)

theorem exists_subscribe (old : h.receivers.length ≤ r) {steps : List Step}
    (now : r < (h.run steps).receivers.length) : ∃ before client after,
    steps = before ++ .subscribe client :: after ∧ (h.run before).receivers.length = r := by
  induction steps generalizing h with
  | nil => exact absurd now (Nat.not_lt.2 old)
  | cons step steps ih =>
    have later (still : (h.step step).receivers.length ≤ r) : ∃ before client after,
        step :: steps = before ++ .subscribe client :: after ∧
          (h.run before).receivers.length = r := by
      obtain ⟨before, client, after, rfl, length⟩ := ih still now
      exact ⟨step :: before, client, after, rfl, length⟩
    cases step with
    | subscribe client =>
      rcases Nat.eq_or_lt_of_le old with first | old
      · exact ⟨[], client, steps, rfl, first⟩
      · refine later ?_
        rw [Hub.step, Hub.subscribe]
        split
        all_goals
          rw [List.length_append]
          exact old
    | send client n =>
      refine later ?_
      rw [Hub.step, Hub.send]
      split <;> exact old
    | remove client =>
      refine later ?_
      rw [Hub.step, Hub.remove]
      split <;> exact old
    | receive i =>
      refine later ?_
      rw [Hub.step, Hub.receive]
      split
      next => exact old
      next => simpa using old

/-- Receiver `r` reads from a channel that has been sent all of this, of which what waits is the
rest. The channel is the client's as long as it has not been removed. -/
structure Reads (h : Hub) (r : Nat) (s : Subscription) (rx : Receiver) (c : Channel)
    (all : List Notification) : Prop where
  receiver : h.receivers[r]? = some rx
  channel : h.channels[rx.channel]? = some c
  holds : c.Holds all
  early : rx.next ≤ all.length
  pending : s.pending = all.drop rx.next
  closed : s.closed = c.closed
  live : ∀ client, h.live.get? client = some rx.channel ↔ client = s.client ∧ s.closed = false

/-- To receiver `r` the hub looks like this subscription. -/
def Follows (h : Hub) (r : Nat) (s : Subscription) : Prop := ∃ rx c all, h.Reads r s rx c all

namespace Reads

variable {rx : Receiver} {c : Channel} {all : List Notification}

theorem subscribe (h' : h.Reads r s rx c all) (client : Ulid) :
    (h.subscribe client).Follows r s := by
  have made := lt_length_of_getElem? h'.channel
  have there {more : List Receiver} : (h.receivers ++ more)[r]? = some rx := by
    rw [List.getElem?_append_left (lt_length_of_getElem? h'.receiver), h'.receiver]
  cases live : h.live.get? client with
  | some i =>
    rw [Hub.subscribe, live]
    exact ⟨rx, c, all, { h' with receiver := there }⟩
  | none =>
    rw [Hub.subscribe, live]
    refine ⟨rx, c, all, { h' with receiver := there, channel := ?_, live := fun k => ?_ }⟩
    · rw [List.getElem?_append_left made, h'.channel]
    · rw [Table.get?_insert, ← h'.live k]
      split
      next same =>
        rw [same, live, Option.some.injEq]
        exact iff_of_false (Nat.ne_of_gt made) nofun
      next => rfl

theorem send (h' : h.Reads r s rx c all) (client : Ulid) (n : Notification) :
    (h.send client n).Follows r (s.step r (.send client n)) := by
  have own := h'.live client
  by_cases mine : h.live.get? client = some rx.channel
  · rw [Hub.send, mine, Subscription.step, if_pos (own.1 mine)]
    refine ⟨rx, c.send n, all ++ [n], { h' with
      channel := ?_
      holds := h'.holds.send n
      early := Nat.le_trans h'.early (by simp)
      pending := ?_
      closed := h'.closed.trans (c.closed_send n).symm }⟩
    · rw [List.getElem?_modify_eq, h'.channel]
      rfl
    · rw [List.drop_append_of_le_length h'.early, h'.pending]
  · rw [Subscription.step, if_neg (mt own.2 mine), Hub.send]
    cases live : h.live.get? client with
    | none => exact ⟨rx, c, all, h'⟩
    | some i =>
      refine ⟨rx, c, all, { h' with channel := ?_ }⟩
      rw [List.getElem?_modify_ne _ _ fun same => mine (live.trans (congrArg some same)),
        h'.channel]

theorem remove (h' : h.Reads r s rx c all) (client : Ulid) :
    (h.remove client).Follows r (s.step r (.remove client)) := by
  have own := h'.live client
  by_cases mine : h.live.get? client = some rx.channel
  · obtain ⟨rfl, opened⟩ := own.1 mine
    rw [Hub.remove, mine, Subscription.step, if_pos rfl]
    refine ⟨rx, { c with closed := true }, all, { h' with
      channel := ?_
      holds := ⟨h'.holds.dropped, h'.holds.kept⟩
      closed := rfl
      live := fun k => ?_ }⟩
    · rw [List.getElem?_modify_eq, h'.channel]
      rfl
    · rw [Table.get?_erase]
      refine iff_of_false (fun hk => ?_) nofun
      split at hk
      next => cases hk
      next other => exact other ((h'.live k).1 hk).1
  · have same : s.step r (.remove client) = s := by
      rw [Subscription.step]
      split
      next its =>
        have gone : s.closed = true :=
          eq_true_of_ne_false fun opened => mine (own.2 ⟨its, opened⟩)
        rw [← gone]
      next => rfl
    rw [same, Hub.remove]
    cases live : h.live.get? client with
    | none => exact ⟨rx, c, all, h'⟩
    | some i =>
      refine ⟨rx, c, all, { h' with channel := ?_, live := fun k => ?_ }⟩
      · rw [List.getElem?_modify_ne _ _ fun same => mine (live.trans (congrArg some same)),
          h'.channel]
      · rw [Table.get?_erase, ← h'.live k]
        split
        next hk =>
          rw [hk]
          exact iff_of_false nofun mine
        next => rfl

theorem receive (h' : h.Reads r s rx c all) (i : Nat) :
    h.gets r (.receive i) = s.gets r (.receive i) ∧
      (h.receive i).2.Follows r (s.step r (.receive i)) := by
  rw [Hub.gets, Subscription.gets, Subscription.step]
  by_cases me : i = r
  · subst me
    obtain ⟨got, early, rest⟩ := h'.holds.receive h'.early h'.pending h'.closed
    have found : h.receive i = ((c.receive rx.next).1, { h with
        receivers := h.receivers.set i { rx with next := (c.receive rx.next).2 } }) := by
      rw [Hub.receive, h'.receiver]
      simp only [h'.channel, Option.getD_some]
    rw [if_pos rfl, if_pos rfl, if_pos rfl, found, got, rest]
    refine ⟨rfl, _, c, all, { h' with
      receiver := List.getElem?_set_self (lt_length_of_getElem? h'.receiver)
      early := early
      pending := rfl }⟩
  · rw [if_neg me, if_neg me, if_neg me]
    refine ⟨rfl, ?_⟩
    cases other : h.receivers[i]? with
    | none =>
      rw [Hub.receive, other]
      exact ⟨rx, c, all, h'⟩
    | some _ =>
      rw [Hub.receive, other]
      refine ⟨rx, c, all, { h' with receiver := ?_ }⟩
      rw [List.getElem?_set_ne me, h'.receiver]

end Reads

theorem Follows.step (h' : h.Follows r s) (step : Step) :
    h.gets r step = s.gets r step ∧ (h.step step).Follows r (s.step r step) := by
  obtain ⟨rx, c, all, h'⟩ := h'
  cases step with
  | subscribe client => exact ⟨rfl, h'.subscribe client⟩
  | send client n => exact ⟨rfl, h'.send client n⟩
  | remove client => exact ⟨rfl, h'.remove client⟩
  | receive i => exact h'.receive i

theorem Follows.run (h' : h.Follows r s) (steps : List Step) :
    h.receipts r steps = s.receipts r steps ∧ (h.run steps).Follows r (s.run r steps) := by
  induction steps generalizing h s with
  | nil => exact ⟨rfl, h'⟩
  | cons step steps ih =>
    obtain ⟨got, next⟩ := h'.step step
    obtain ⟨later, last⟩ := ih next
    rw [Hub.receipts, Subscription.receipts, got, later]
    exact ⟨rfl, last⟩

theorem Sound.follows (h' : h.Sound) (client : Ulid) :
    (h.subscribe client).Follows h.receivers.length ⟨client, [], false⟩ := by
  cases live : h.live.get? client with
  | some i =>
    obtain ⟨c, all, hc, opened, holds⟩ := h'.channel live
    rw [Hub.subscribe, live]
    refine ⟨⟨i, all.length⟩, c, all, ?_, hc, holds, Nat.le_refl _, List.drop_length.symm,
      opened.symm, fun k => ⟨fun hk => ⟨h'.own hk live, rfl⟩, fun hk => hk.1 ▸ live⟩⟩
    rw [List.getElem?_concat_length, hc, Option.map_some, Option.getD_some, holds.sent]
  | none =>
    rw [Hub.subscribe, live]
    refine ⟨⟨h.channels.length, 0⟩, .fresh, [], List.getElem?_concat_length,
      List.getElem?_concat_length, .fresh, Nat.le_refl _, rfl, rfl, fun k => ?_⟩
    rw [Table.get?_insert]
    constructor
    · intro hk
      split at hk
      next same => exact ⟨same, rfl⟩
      next =>
        obtain ⟨c, all, hc, -⟩ := h'.channel hk
        exact absurd (lt_length_of_getElem? hc) (Nat.lt_irrefl _)
    · rintro ⟨rfl, -⟩
      exact if_pos rfl

end Hub

/-! ### What has been received -/

/-- The receipts are for these notifications in order, of which some are skipped. -/
inductive Receipt.Covers : List Receipt → List Notification → Prop
  | nil : Covers [] []
  | received {n : Notification} {rs : List Receipt} {ns : List Notification} : Covers rs ns →
    Covers (.received n :: rs) (n :: ns)
  | lagged {skipped : List Notification} {rs : List Receipt} {ns : List Notification} :
    skipped ≠ [] → Covers rs ns → Covers (.lagged skipped.length :: rs) (skipped ++ ns)
  | empty {rs : List Receipt} {ns : List Notification} : Covers rs ns → Covers (.empty :: rs) ns
  | closed {rs : List Receipt} {ns : List Notification} : Covers rs ns → Covers (.closed :: rs) ns

open Receipt (Covers)

theorem Receipt.Covers.append {rs rs' : List Receipt} {ns ns' : List Notification}
    (h : Covers rs ns) (h' : Covers rs' ns') : Covers (rs ++ rs') (ns ++ ns') := by
  induction h with
  | nil => exact h'
  | received _ ih => exact .received ih
  | lagged some _ ih =>
    rw [List.append_assoc]
    exact .lagged some ih
  | empty _ ih => exact .empty ih
  | closed _ ih => exact .closed ih

theorem Receipt.covers_received (ns : List Notification) : Covers (ns.map .received) ns := by
  induction ns with
  | nil => exact .nil
  | cons n ns ih => exact .received ih

theorem Receipt.covers_lagged {pending : List Notification} {excess : Nat} (some : 0 < excess)
    (most : excess ≤ pending.length) : Covers [.lagged excess] (pending.take excess) := by
  have length : (pending.take excess).length = excess := List.length_take_of_le most
  have skips := Covers.lagged (List.length_pos_iff.1 (length ▸ some)) .nil
  rwa [length, List.append_nil] at skips

theorem Receipt.covers_end (closed : Bool) : Covers [if closed then .closed else .empty] [] := by
  cases closed with
  | true => exact .closed .nil
  | false => exact .empty .nil

/-- What is received if no more is sent: of what waits the last that are kept, and then the end. -/
def Receipt.drained (pending : List Notification) (closed : Bool) : List Receipt :=
  let excess := Channel.excess pending
  (if 0 < excess then [.lagged excess] else []) ++ ((pending.drop excess).map .received ++
    [if closed then .closed else .empty])

theorem Receipt.covers_drained (pending : List Notification) (closed : Bool) :
    Covers (drained pending closed) pending := by
  have most := Channel.excess_le pending
  rw [drained]
  generalize Channel.excess pending = excess at most
  have rest := (covers_received (pending.drop excess)).append (covers_end closed)
  rw [List.append_nil] at rest
  by_cases some : 0 < excess
  · rw [if_pos some]
    have all := (covers_lagged some most).append rest
    rwa [List.take_append_drop] at all
  · rw [if_neg some, Nat.eq_zero_of_not_pos some, List.nil_append]
    rwa [Nat.eq_zero_of_not_pos some] at rest

namespace Hub

def addressed (client : Ulid) : List Step → List Notification
  | [] => []
  | .send k n :: steps => if k = client then n :: addressed client steps else addressed client steps
  | .remove k :: steps => if k = client then [] else addressed client steps
  | .subscribe _ :: steps | .receive _ :: steps => addressed client steps

end Hub

namespace Subscription

open Hub (Step addressed)

variable {s : Subscription} {r : Nat}

def due (s : Subscription) (steps : List Step) : List Notification :=
  s.pending ++ if s.closed then [] else addressed s.client steps

theorem receive_covers (s : Subscription) : ∃ front,
    s.receive.2 = { s with pending := s.receive.2.pending } ∧
      s.pending = front ++ s.receive.2.pending ∧ Covers [s.receive.1] front := by
  rcases Nat.eq_zero_or_pos (Channel.excess s.pending) with none | some
  · cases pending : s.pending with
    | nil =>
      rw [receive_of_nil pending]
      exact ⟨[], rfl, pending.symm, Receipt.covers_end s.closed⟩
    | cons n rest =>
      rw [receive_of_cons none pending]
      exact ⟨[n], rfl, rfl, .received .nil⟩
  · have most := Channel.excess_le s.pending
    rw [receive_of_excess some]
    generalize Channel.excess s.pending = excess at some most
    exact ⟨s.pending.take excess, rfl, (List.take_append_drop excess s.pending).symm,
      Receipt.covers_lagged some most⟩

theorem due_step (r : Nat) (s : Subscription) (step : Step) (steps : List Step) :
    ∃ front, s.due (step :: steps) = front ++ (s.step r step).due steps ∧
      Covers (s.gets r step) front := by
  cases step with
  | subscribe client => exact ⟨[], rfl, .nil⟩
  | send client n =>
    refine ⟨[], ?_, .nil⟩
    rw [Subscription.step, List.nil_append, due, due]
    cases gone : s.closed with
    | true => simp [gone]
    | false =>
      by_cases mine : client = s.client
      · simp [addressed, mine]
      · simp [addressed, mine, gone]
  | remove client =>
    refine ⟨[], ?_, .nil⟩
    rw [Subscription.step, List.nil_append, due, due]
    by_cases mine : client = s.client
    · simp [addressed, mine]
    · simp [addressed, mine]
  | receive i =>
    rw [Subscription.step, gets]
    by_cases me : i = r
    · obtain ⟨front, same, pending, covers⟩ := s.receive_covers
      rw [if_pos me, if_pos me]
      refine ⟨front, ?_, covers⟩
      rw [same, due, due, addressed, ← List.append_assoc, ← pending]
    · rw [if_neg me, if_neg me]
      exact ⟨[], rfl, .nil⟩

theorem due_run (r : Nat) (s : Subscription) (steps : List Step) :
    ∃ seen, s.due steps = seen ++ (s.run r steps).pending ∧ Covers (s.receipts r steps) seen := by
  induction steps generalizing s with
  | nil =>
    refine ⟨[], ?_, .nil⟩
    cases gone : s.closed with
    | true => simp [due, gone, run]
    | false => simp [due, gone, run, addressed]
  | cons step steps ih =>
    obtain ⟨front, split, covers⟩ := s.due_step r step steps
    obtain ⟨seen, rest, later⟩ := ih (s.step r step)
    exact ⟨front ++ seen, by rw [split, rest, List.append_assoc]; rfl, covers.append later⟩

theorem step_receive (r : Nat) (s : Subscription) : s.step r (.receive r) = s.receive.2 :=
  if_pos rfl

theorem gets_receive (r : Nat) (s : Subscription) : s.gets r (.receive r) = [s.receive.1] :=
  if_pos rfl

theorem receipts_of_kept (r : Nat) {pending : List Notification}
    (kept : pending.length ≤ Channel.capacity) (hs : s.pending = pending) :
    s.receipts r (.replicate (pending.length + 1) (.receive r)) =
      pending.map .received ++ [if s.closed then .closed else .empty] := by
  induction pending generalizing s with
  | nil =>
    rw [List.length_nil, List.replicate_succ, receipts, gets_receive, receive_of_nil hs]
    rfl
  | cons n rest ih =>
    have none : Channel.excess s.pending = 0 := by
      rw [Channel.excess, hs]
      exact Nat.sub_eq_zero_of_le kept
    rw [List.replicate_succ, receipts, gets_receive, step_receive, receive_of_cons none hs,
      List.length_cons, ih (Nat.le_of_succ_le kept) rfl]
    rfl

theorem receipts_drained (r : Nat) (s : Subscription) :
    s.receipts r (.replicate (Receipt.drained s.pending s.closed).length (.receive r)) =
      Receipt.drained s.pending s.closed := by
  have length (rest : List Notification) (last : Receipt) :
      (rest.map Receipt.received ++ [last]).length = rest.length + 1 := by simp
  rw [Receipt.drained]
  rcases Nat.eq_zero_or_pos (Channel.excess s.pending) with none | some
  · simp only [none, Nat.lt_irrefl, ↓reduceIte, List.nil_append, List.drop_zero]
    rw [length, receipts_of_kept r (Nat.le_of_sub_eq_zero none) rfl]
  · have kept : (s.pending.drop (Channel.excess s.pending)).length ≤ Channel.capacity := by
      rw [List.length_drop, Channel.excess]
      omega
    simp only [some, ↓reduceIte, List.singleton_append]
    rw [List.length_cons, length, List.replicate_succ, receipts, gets_receive, step_receive,
      receive_of_excess some]
    generalize s.pending.drop (Channel.excess s.pending) = rest at kept
    rw [receipts_of_kept r kept rfl, List.singleton_append]

theorem step_same (r : Nat) (s : Subscription) (step : Step) :
    (s.step r step).client = s.client ∧
      (s.step r step).closed = (s.closed || decide (step = .remove s.client)) := by
  cases step with
  | subscribe client => simp [Subscription.step]
  | send client n =>
    rw [Subscription.step]
    split <;> simp
  | remove client =>
    rw [Subscription.step]
    split
    next mine => simp [mine]
    next other => simp [other]
  | receive i =>
    obtain ⟨-, same, -⟩ := s.receive_covers
    rw [Subscription.step]
    split
    next =>
      rw [same]
      simp
    next => simp

theorem closed_run (r : Nat) (s : Subscription) (steps : List Step) :
    (s.run r steps).closed = (s.closed || decide (.remove s.client ∈ steps)) := by
  induction steps generalizing s with
  | nil => simp [run]
  | cons step steps ih =>
    obtain ⟨client, closed⟩ := s.step_same r step
    have next : s.run r (step :: steps) = (s.step r step).run r steps := rfl
    rw [next, ih, client, closed, Bool.or_assoc]
    simp only [List.mem_cons, Bool.decide_or, eq_comm]

theorem receive_lagged (s : Subscription) (n : Nat) :
    s.receive.1 = .lagged n ↔ 0 < n ∧ s.pending.length = n + Channel.capacity := by
  have excess : Channel.excess s.pending = s.pending.length - Channel.capacity := by
    rw [Channel.excess]
  rcases Nat.eq_zero_or_pos (Channel.excess s.pending) with none | some
  · refine iff_of_false (fun lag => ?_) (by omega)
    cases pending : s.pending with
    | nil =>
      rw [receive_of_nil pending] at lag
      dsimp only at lag
      split at lag <;> cases lag
    | cons n rest =>
      rw [receive_of_cons none pending] at lag
      cases lag
  · rw [receive_of_excess some, Receipt.lagged.injEq]
    omega

end Subscription

/-- A receiver gets what is sent to its client from the subscription to the removal, in order. It
skips only what the channel has dropped; afterwards it finds the channel empty, or closed exactly if
it was removed. -/
theorem Hub.delivers (before after : List Hub.Step) (client : Ulid) :
    let r := (empty.run before).receivers.length
    let h := (empty.run before).subscribe client
    let due := addressed client after
    ∃ seen rest, due = seen ++ rest ∧ Covers (h.receipts r after) seen ∧
      (∀ n, ((h.run after).receive r).1 = .lagged n ↔
        0 < n ∧ rest.length = n + Channel.capacity) ∧
      let all := Receipt.drained rest (decide (.remove client ∈ after))
      (h.run after).receipts r (.replicate all.length (.receive r)) = all ∧
        Covers (h.receipts r after ++ all) due := by
  intro r h due
  have follows : h.Follows r ⟨client, [], false⟩ := (Sound.empty.run before).follows client
  obtain ⟨got, last⟩ := follows.run after
  obtain ⟨seen, split, covers⟩ := Subscription.due_run r ⟨client, [], false⟩ after
  generalize hs : Subscription.run r ⟨client, [], false⟩ after = s at last split
  have closed : s.closed = decide (.remove client ∈ after) := by
    rw [← hs, Subscription.closed_run, Bool.false_or]
  have split : due = seen ++ s.pending := split
  rw [← got] at covers
  refine ⟨seen, s.pending, split, covers, fun n => ?_, ?_, ?_⟩
  · have here := (last.step (.receive r)).1
    rw [gets, if_pos rfl, Subscription.gets_receive, List.singleton_inj] at here
    rw [here, Subscription.receive_lagged]
  · rw [← closed, (last.run _).1, s.receipts_drained]
  · rw [split]
    exact covers.append (Receipt.covers_drained _ _)

end Carpark
