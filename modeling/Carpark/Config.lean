import Carpark.Policy
import Carpark.Text.Numeral
import Carpark.Time

/-!
Settings, and how they are read from named variables. A value that cannot be used falls back to
its default; some of those falls are warned about.
-/

namespace Carpark

structure Settings where
  maxReservation : Ms := 24 * hour
  /-- How long a car may stay past the end of its window before it is assumed to have left. -/
  grace : Ms := 15 * minute
  defaultPolicy : Policy := .leastOccupied
  capacityRetries : Nat := 3
  /-- The first pause between attempts, in milliseconds; it doubles from one to the next. -/
  retryBackoff : Nat := 10
  deriving DecidableEq, Repr

structure Config where
  dataDir : String
  metricsPort : Option Nat
  /-- In seconds. -/
  sweepInterval : Nat
  compactThreshold : Nat
  settings : Settings
  deriving DecidableEq, Repr

namespace Config

inductive Warning
  | negativeGrace (minutes : Int)
  | unknownPolicy (normalText : String)
  | notPositive (key : String) (fallback : Int)
  deriving DecidableEq, Repr

def Warning.message : Warning → String
  | .negativeGrace m => "PARKD_GRACE_MINUTES=" ++ toString m ++ " is negative; using the default"
  | .unknownPolicy t =>
    Policy.unknownMessage t ++ "; using " ++ (({} : Settings).defaultPolicy).name
  | .notPositive key fallback =>
    key ++ " must be greater than zero; using " ++ toString fallback

end Config

structure Variables where
  get? : String → Option String

namespace Variables

open Config

variable (vars : Variables)

def value? (key : String) : Option String := (vars.get? key).filter (!Text.isBlankText ·)

def natural (key : String) (bits : Nat) (fallback : Nat) : Nat :=
  ((vars.value? key).bind fun v => Text.natural? (1 <<< bits - 1) (Text.trim v)).getD fallback

def clamp64 (n : Int) : Int := max (-0x8000_0000_0000_0000) (min n 0x7FFF_FFFF_FFFF_FFFF)

def minutes (key : String) (fallback : Ms) : Ms :=
  clamp64 <| minute *
    (((vars.value? key).bind fun v =>
      Text.integer? (-0x8000_0000_0000_0000) 0x7FFF_FFFF_FFFF_FFFF (Text.trim v)).getD
        (fallback / minute))

def positive (key : String) (n fallback : Int) : Int × List Warning :=
  if n ≤ 0 then (fallback, [.notPositive key fallback]) else (n, [])

def grace : Ms × List Warning :=
  let ms := vars.minutes "PARKD_GRACE_MINUTES" ({} : Settings).grace
  if ms < 0 then (({} : Settings).grace, [.negativeGrace (ms.tdiv minute)]) else (ms, [])

def defaultPolicy : Policy × List Warning :=
  match (vars.value? "PARKD_DEFAULT_POLICY").map Policy.parse with
  | none => (({} : Settings).defaultPolicy, [])
  | some (.ok p) => (p, [])
  | some (.error t) => (({} : Settings).defaultPolicy, [.unknownPolicy t])

def sweepInterval : Int × List Warning :=
  positive "PARKD_SWEEP_INTERVAL_SECS" (vars.natural "PARKD_SWEEP_INTERVAL_SECS" 64 60) 60

def maxReservation : Ms × List Warning :=
  let fallback := ({} : Settings).maxReservation
  positive "PARKD_MAX_RESERVATION_MINUTES"
    (vars.minutes "PARKD_MAX_RESERVATION_MINUTES" fallback) fallback

def capacityRetries : Int × List Warning :=
  let fallback := ({} : Settings).capacityRetries
  positive "PARKD_CAPACITY_RETRIES" (vars.natural "PARKD_CAPACITY_RETRIES" 32 fallback) fallback

/-- This is the one number around which white space is not allowed. -/
def metricsPort : Option Nat := (vars.value? "PARKD_METRICS_PORT").bind (Text.natural? 0xFFFF)

end Variables

namespace Config

def ofVariables (vars : Variables) : Config where
  dataDir := (vars.value? "PARKD_DATA_DIR").getD "./data"
  metricsPort := vars.metricsPort
  sweepInterval := vars.sweepInterval.1.toNat
  compactThreshold := vars.natural "PARKD_COMPACT_THRESHOLD" 64 10000
  settings :=
    { maxReservation := vars.maxReservation.1
      grace := vars.grace.1
      defaultPolicy := vars.defaultPolicy.1
      capacityRetries := vars.capacityRetries.1.toNat
      retryBackoff := vars.natural "PARKD_RETRY_BACKOFF_MS" 64 ({} : Settings).retryBackoff }

def names : List String :=
  ["PARKD_DATA_DIR", "PARKD_METRICS_PORT", "PARKD_SWEEP_INTERVAL_SECS", "PARKD_COMPACT_THRESHOLD",
    "PARKD_MAX_RESERVATION_MINUTES", "PARKD_GRACE_MINUTES", "PARKD_DEFAULT_POLICY",
    "PARKD_CAPACITY_RETRIES", "PARKD_RETRY_BACKOFF_MS"]

def warnings (vars : Variables) : List Warning :=
  vars.grace.2 ++ vars.defaultPolicy.2 ++ vars.sweepInterval.2 ++ vars.maxReservation.2 ++
    vars.capacityRetries.2

end Config

end Carpark
