import Carpark.Notification
import Carpark.Store.Table

/-!
A hub that hands notifications to subscribers, a channel per client. A channel keeps the last
`Channel.capacity` notifications: a subscriber that falls further behind is told how many it
missed and goes on with the oldest one kept.
-/

namespace Carpark

structure Channel where
  /-- How many notifications are no longer kept. -/
  dropped : Nat
  kept : List Notification
  closed : Bool

namespace Channel

def capacity : Nat := 256

def fresh : Channel := ⟨0, [], false⟩

def sent (c : Channel) : Nat := c.dropped + c.kept.length

def send (c : Channel) (n : Notification) : Channel :=
  let all := c.kept ++ [n]
  let excess := all.length - capacity
  { c with dropped := c.dropped + excess, kept := all.drop excess }

end Channel

structure Receiver where
  channel : Nat
  next : Nat

inductive Receipt
  | received (n : Notification)
  | empty
  | closed
  | lagged (missed : Nat)

def Channel.receive (c : Channel) (next : Nat) : Receipt × Nat :=
  if next < c.dropped then (.lagged (c.dropped - next), c.dropped)
  else match c.kept[next - c.dropped]? with
    | some n => (.received n, next + 1)
    | none => (if c.closed then .closed else .empty, next)

/-- A removed channel leaves `live` but stays for those who subscribed to it. -/
structure Hub where
  channels : List Channel
  live : Table Ulid Nat
  receivers : List Receiver

namespace Hub

def empty : Hub := ⟨[], .empty, []⟩

def subscribe (h : Hub) (client : Ulid) : Hub :=
  match h.live.get? client with
  | some i =>
    { h with receivers := h.receivers ++ [⟨i, (h.channels[i]?.map (·.sent)).getD 0⟩] }
  | none =>
    let i := h.channels.length
    { channels := h.channels ++ [.fresh]
      live := h.live.insert client i
      receivers := h.receivers ++ [⟨i, 0⟩] }

def send (h : Hub) (client : Ulid) (n : Notification) : Hub :=
  match h.live.get? client with
  | some i => { h with channels := h.channels.modify i (·.send n) }
  | none => h

def remove (h : Hub) (client : Ulid) : Hub :=
  match h.live.get? client with
  | some i =>
    { h with
      channels := h.channels.modify i fun c => { c with closed := true }
      live := h.live.erase client }
  | none => h

def receive (h : Hub) (r : Nat) : Receipt × Hub :=
  match h.receivers[r]? with
  | none => (.closed, h)
  | some rx =>
    let channel := h.channels[rx.channel]?.getD { Channel.fresh with closed := true }
    let (receipt, next) := channel.receive rx.next
    (receipt, { h with receivers := h.receivers.set r { rx with next } })

end Hub

end Carpark
