import Carpark.Proofs.History
import Carpark.Proofs.Twins

/-!
Compactions and restarts do not show. An engine whose log has been compacted, or that was closed
and opened anew, goes on like one to which nothing of the kind has happened.
-/

namespace Carpark

namespace Engine

/-- Two runs of the same requests. The log of the second one is compacted, or opened anew, from time
to time. -/
inductive Beside : Engine → Engine → List Commit → Prop
  | opened {settings : Settings} {notifier : Notifier} {supply : Nat → Ulid}
      {obstructed obstructed' : Bool} :
    Beside (fresh settings notifier supply obstructed) (fresh settings notifier supply obstructed')
      []
  | asked {e e' : Engine} {cs : List Commit} (r : Request) : Beside e e' cs →
    Beside (e.run (r.program e.settings)).engine (e'.run (r.program e'.settings)).engine
      (e'.logged cs (r.program e'.settings))
  | compacted {e e' : Engine} {cs : List Commit} : Beside e e' cs →
    Beside e (e'.run (Request.compact.program e'.settings)).engine
      (e'.logged cs (Request.compact.program e'.settings))
  | reopened {e e' : Engine} {cs kept : List Commit} {store : Store} :
    Beside e e' cs → (∀ c ∈ cs, c.Readable) → e'.Reopens cs store kept →
    Beside e (.ofStore e'.settings e'.notifier (fun n => e'.supply (e'.drawn + n)) store) kept

namespace Beside

variable {e e' : Engine} {cs : List Commit}

theorem reachable (h : e.Beside e' cs) : e'.Reachable cs := by
  induction h with
  | opened => exact .fresh _ _ _ _
  | asked r _ ih => exact ih.asked r
  | compacted _ ih => exact ih.asked .compact
  | reopened _ _ opened ih => exact ih.reopened opened _ _ _

theorem twin (h : e.Beside e' cs) : e.Twin false e' := by
  induction h with
  | opened => exact ⟨rfl, rfl, rfl, rfl, .refl _, nofun, fun _ => rfl⟩
  | @asked e e' cs r _ ih =>
    -- these two are answered from the log, but they leave the tables and the supply as they are
    by_cases happends : r = .appends
    · subst happends
      exact ih
    by_cases hcompact : r = .compact
    · subst hcompact
      exact { ih with }
    have steady : Program.Steady false false (r.program e.settings) := .request r happends hcompact
    rw [← ih.settings]
    exact (steady e e' ih).2
  | compacted _ ih => exact { ih with }
  | reopened beside readable opened ih =>
    have sound := beside.reachable.sound
    obtain rfl := sound.kept_of_readable readable opened
    exact {
      settings := ih.settings
      notifier := ih.notifier
      sweeping_left := ih.sweeping_left
      sweeping_right := rfl
      tables := ih.tables.trans (sound.alike_of_reopens opened)
      keyed := ih.keyed
      supply := fun i => by simpa [ofStore] using ih.supply i }

theorem serve (h : e.Beside e' cs) (rs : List Request) :
    ∃ cs', (e.serve rs).Beside (e'.serve rs) cs' := by
  induction rs generalizing e e' cs with
  | nil => exact ⟨cs, h⟩
  | cons r rs ih => exact ih (h.asked r)

/-- Compactions and restarts show neither in answers and signals nor in the tables, and a readable
log is opened without loss. -/
theorem invisible (h : e.Beside e' cs) :
    (∀ r : Request, r ≠ .appends → r ≠ .compact →
      (e'.run (r.program e'.settings)).answer = (e.run (r.program e.settings)).answer ∧
      (e'.run (r.program e'.settings)).signals = (e.run (r.program e.settings)).signals) ∧
    e'.tables.Alike e.tables ∧
    ((∀ c ∈ cs, c.Readable) → ∀ obstructed, ∃ store replay,
      Store.ofFile obstructed e'.store.log.bytes = .ok (store, replay) ∧
        replay.rest e'.store.log.bytes = e'.store.log.bytes ∧ store.tables.Alike e.tables) := by
  have twin := h.twin
  refine ⟨fun r happends hcompact => ?_, twin.tables.symm, fun readable obstructed => ?_⟩
  · have steady : Program.Steady false false (r.program e.settings) := .request r happends hcompact
    obtain ⟨⟨answer, signals⟩, -⟩ := steady e e' twin
    rw [← twin.settings]
    exact ⟨answer.symm, signals.symm⟩
  · have sound := h.reachable.sound
    rw [sound.holds.bytes]
    exact ⟨_, _, Store.ofFile_fileOf readable obstructed, by simp [Replay.rest],
      sound.described.trans twin.tables.symm⟩

end Beside

set_option maxRecDepth 10000 in
theorem invisible_oneExit :
    ∃ e' cs, oneCar.Beside e' cs ∧ e'.drawn = 0 ∧ cs.length = 2 ∧ (∀ c ∈ cs, c.Readable) ∧
      (e'.run (oneExit.program e'.settings)).answer =
        (oneCar.run (oneExit.program oneCar.settings)).answer ∧
      e'.tables.Alike oneCar.tables := by
  obtain ⟨cs, beside⟩ : ∃ cs, oneCar.Beside oneCar cs := Beside.opened.serve _
  have compacted := beside.compacted
  have logged : oneCar.logged cs (Request.compact.program oneCar.settings) =
      oneCar.tables.snapshot := rfl
  have readable : ∀ c ∈ oneCar.logged cs (Request.compact.program oneCar.settings), c.Readable := by
    rw [logged]
    decide
  have reopened := compacted.reopened readable (compacted.reachable.sound.reopens readable false)
  obtain ⟨same, alike, -⟩ := reopened.invisible
  exact ⟨_, _, reopened, rfl, by rw [logged]; decide, readable, (same oneExit nofun nofun).1, alike⟩

end Engine

end Carpark
