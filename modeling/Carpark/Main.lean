import Std.Time.DateTime.Timestamp
import Carpark.Engine.Basic
import Carpark.Engine.Request

/-!
The service: it opens the log file, sweeps and compacts on a timer, and stops with a last
compaction when its standard input is closed.
-/

namespace Carpark.Service

structure State where
  engine : Engine
  sweepDue : Int
  checkDue : Int

def say (l : LogLine) : IO Unit := IO.println (toString l)

def clock : IO Int := do return (← Std.Time.Timestamp.now).toMillisecondsSinceUnixEpoch.val

def number (bytes : ByteArray) : Nat := bytes.data.toList.foldl (fun n b => 256 * n + b.toNat) 0

def save (path : String) (old new : ByteArray) : IO Unit := do
  if new.extract 0 old.size == old then
    if old.size < new.size then
      let file ← IO.FS.Handle.mk path .append
      file.write (new.extract old.size new.size)
      file.flush
  else
    IO.FS.writeBinFile (path ++ ".tmp") new
    IO.FS.rename (path ++ ".tmp") path

def run {α : Type} (path : String) (s : State) (p : Program α) : IO (α × State) := do
  let start := number (← IO.getRandomBytes 8)
  let engine := { s.engine with supply := Ulid.series (← clock).toNat start, drawn := 0 }
  let o := engine.run p
  save path s.engine.store.log.bytes o.engine.store.log.bytes
  (o.signals.filterMap Signal.line?).forM say
  return (o.answer, { s with engine := o.engine })

def tick (path : String) (config : Config) (s : State) : IO State := do
  let now ← clock
  let s ← if now < s.sweepDue then pure s else do
    let (_, s) ← run path s (Sweep.once config.settings now)
    pure { s with sweepDue := now + 1000 * config.sweepInterval }
  if now < s.checkDue then return s
  let (_, s) ← run path s (Upkeep.compactAbove config.compactThreshold)
  return { s with checkDue := now + Upkeep.checkInterval }

partial def loop (path : String) (config : Config) (closed : IO Bool) (s : State) : IO State := do
  if ← closed then return s
  let s ← tick path config s
  IO.sleep 100
  loop path config closed s

partial def drain (input : IO.FS.Stream) : IO Unit := do
  if (← input.getLine).isEmpty then return
  drain input

def settingsLines (path : String) (config : Config) : List LogLine :=
  [.info "parkd started", .info ("  wal: " ++ path),
    .info ("  sweep interval: " ++ toString config.sweepInterval ++ "s"),
    .info ("  default policy: " ++ config.settings.defaultPolicy.name)]

def start : IO UInt32 := do
  let values ← Config.names.mapM fun name => return (name, ← IO.getEnv name)
  let vars : Variables := ⟨fun key => (values.lookup key).join⟩
  let config := Config.ofVariables vars
  (Config.warnings vars).forM fun w => say (.warn w.message)
  IO.FS.createDirAll config.dataDir
  let path := config.dataDir ++ "/parkd.wal"
  (← IO.FS.Handle.mk path .append).flush
  let file ← IO.FS.readBinFile path
  match Store.ofFile false file with
  | .error f =>
    say (.error (f.message path))
    return 1
  | .ok (store, replay) =>
    save path file store.log.bytes
    (replay.lines path file.size ++ settingsLines path config).forM say
    let engine := Engine.ofStore config.settings .toLog (Ulid.series 0 0) store
    let input ← IO.asTask (drain (← IO.getStdin))
    let now ← clock
    let s ← loop path config (IO.hasFinished input) ⟨engine, now, now⟩
    say (.info "shutdown signal received")
    let (result, _) ← run path s Upkeep.compact
    if let .error e := result then say (.error ("final WAL compaction failed: " ++ e.message))
    say (.info "parkd stopped")
    return 0

end Carpark.Service

def main : IO UInt32 := Carpark.Service.start
