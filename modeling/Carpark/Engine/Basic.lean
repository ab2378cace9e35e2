import Carpark.Engine.Program
import Carpark.Store.Basic

/-!
The engine, and how a program runs on it when nothing else does.
-/

namespace Carpark

structure Engine where
  settings : Settings
  notifier : Notifier
  store : Store
  supply : Nat → Ulid
  drawn : Nat
  sweeping : Bool

namespace Engine

def ofStore (settings : Settings) (notifier : Notifier) (supply : Nat → Ulid) (store : Store) :
    Engine :=
  { settings, notifier, store, supply, drawn := 0, sweeping := false }

def tables (e : Engine) : Tables := e.store.tables

def draw (e : Engine) : Ulid × Engine := (e.supply e.drawn, { e with drawn := e.drawn + 1 })

/-- A notification is handed over, and the service writes its lines. -/
def noticeSignals (e : Engine) (client : Ulid) (n : Notification) : List Signal :=
  .notice client n :: (e.notifier.lines client n).map .line

end Engine

structure Outcome (α : Type) where
  answer : α
  engine : Engine
  signals : List Signal

namespace Outcome

variable {α : Type}

def after (signals : List Signal) (o : Outcome α) : Outcome α :=
  { o with signals := signals ++ o.signals }

end Outcome

variable {α : Type}

/-- Alone a program never loses a race, and pauses do not matter. -/
def Engine.run (e : Engine) : Program α → Outcome α
  | .done a => ⟨a, e, []⟩
  | .ask q k => e.run (k (e.tables.answer q))
  | .draw k => e.draw.2.run (k e.draw.1)
  | .commit txn k =>
    let (result, store) := e.store.commit txn
    { e with store }.run (k result)
  | .compact k =>
    let (result, store) := e.store.compact
    { e with store }.run (k result)
  | .appends k => e.run (k e.store.appends)
  | .tell s k => (e.run k).after [s]
  | .notify client n k => (e.run (k (e.notifier.refusal client n))).after (e.noticeSignals client n)
  | .pause _ k => e.run k
  | .beginSweep k => { e with sweeping := true }.run (k !e.sweeping)
  | .endSweep k => { e with sweeping := false }.run k

end Carpark
