import Carpark.Engine.Sweep

/-!
The jobs that run on a timer: sweeps, and compactions once enough commits have piled up.
-/

namespace Carpark.Upkeep

def compact : Program (Except Failure Unit) :=
  .compact fun r => .done (r.mapError Failure.ofCommit)

def compactAbove (threshold : Nat) : Program Unit :=
  .appends fun n =>
    if n < threshold then .done ()
    else do
      match ← compact with
      | .ok () => Program.info ("compacted WAL after " ++ toString n ++ " appends")
      | .error e => Program.line (.error ("WAL compaction failed: " ++ e.message))

def checkInterval : Nat := 30000

/-- How often a timer goes off before it is stopped: at once, and then whenever an interval is
over. -/
def ticks (interval total : Nat) : Nat := (total + interval - 1) / interval

def timed (interval : Nat) (job : Program Unit) : (ticks : Nat) → Program Unit
  | 0 => return ()
  | n + 1 => do
    job
    .pause interval (timed interval job n)

def sweeping (settings : Settings) (clock : Ms) (interval total : Nat) : Program Unit :=
  timed interval (do let _ ← Sweep.once settings clock) (ticks interval total)

def compacting (threshold total : Nat) : Program Unit :=
  timed checkInterval (compactAbove threshold) (ticks checkInterval total)

end Carpark.Upkeep
