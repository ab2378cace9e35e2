import Carpark.Store.Shared
import Mathlib.Data.List.Basic

/-!
What a commit needs of the locks of rows at each of its stages. It asks for them one after another
in the order of its rows, and tidies up behind all that it has asked for.
-/

namespace Carpark

/-! ### The order of the locks -/

namespace RowKey

variable {a b c : RowKey}

theorem le_total (a b : RowKey) : (a.le b || b.le a) = true := by
  cases a with
  | parking i | sector i | reservation i =>
    cases b <;> simp [le]
    omega
  | address k =>
    cases b with
    | address k' => simpa [le] using String.le_total k k'
    | _ => simp [le]

theorem le_trans (h : a.le b = true) (h' : b.le c = true) : a.le c = true := by
  cases a with
  | parking i | sector i | reservation i =>
    cases b <;> cases c <;> simp_all [le]
    omega
  | address k =>
    cases b <;> cases c <;> simp_all [le]
    exact String.le_trans h h'

theorem le_antisymm (h : a.le b = true) (h' : b.le a = true) : a = b := by
  cases a with
  | parking i | sector i | reservation i =>
    cases b <;> simp_all [le]
    exact Ulid.ext_val (Nat.le_antisymm h h')
  | address k =>
    cases b <;> simp_all [le]
    exact String.le_antisymm h h'

def Before (a b : RowKey) : Prop := a.le b = true ∧ a ≠ b

theorem Before.trans (h : a.Before b) (h' : b.Before c) : a.Before c :=
  ⟨le_trans h.1 h'.1, fun same => h.2 (le_antisymm h.1 (same ▸ h'.1))⟩

theorem pairwise_eraseDups : ∀ {keys : List RowKey}, keys.Pairwise (fun a b => a.le b = true) →
    keys.eraseDups.Pairwise Before
  | [], _ => .nil
  | key :: keys, sorted => by
    obtain ⟨first, rest⟩ := List.pairwise_cons.1 sorted
    rw [List.eraseDups_cons]
    refine List.pairwise_cons.2 ⟨fun other mem => ?_, pairwise_eraseDups (rest.filter _)⟩
    obtain ⟨mem, ne⟩ := List.mem_filter.1 (List.mem_eraseDups.1 mem)
    exact ⟨first other mem, fun same => by simp [same] at ne⟩
termination_by keys => keys.length
decreasing_by exact Nat.lt_succ_of_le (List.length_filter_le ..)

end RowKey

theorem Txn.lockKeys_sorted (txn : Txn) : txn.lockKeys.Pairwise RowKey.Before := by
  refine RowKey.pairwise_eraseDups (List.pairwise_mergeSort ?_ RowKey.le_total _)
  exact fun _ _ _ h h' => RowKey.le_trans h h'

theorem Txn.lockKeys_nodup (txn : Txn) : txn.lockKeys.Nodup :=
  txn.lockKeys_sorted.imp And.right

/-! ### What a job needs -/

namespace Job

/-- The rows to whose locks the job has a reference, each with its lock. -/
def claims : Job → Stage → List (RowKey × Nat)
  | .commit txn, .locking taken _ | .commit txn, .logging taken | .commit txn, .applying taken _ =>
    txn.lockKeys.zip taken
  | .commit txn, .fetched taken lock _ => txn.lockKeys.zip (taken ++ [lock])
  | .commit txn, .unlocking taken _ =>
    (txn.lockKeys.drop (txn.lockKeys.length - taken.length)).zip taken
  | .commit txn, .released lock taken _ =>
    (txn.lockKeys.drop (txn.lockKeys.length - (taken.length + 1))).zip (lock :: taken)
  | _, _ => []

/-- The claims in whose queues the job is. -/
def lined : Job → Stage → List (RowKey × Nat)
  | .commit txn, .fetched taken _ rest => (Job.commit txn).claims (.locking taken rest)
  | .commit txn, .released _ taken result => (Job.commit txn).claims (.unlocking taken result)
  | job, stage => job.claims stage

/-- While a job collects locks it may still wait for the last that it has asked for. -/
def wants? : Job → Stage → Option (RowKey × Nat)
  | .commit txn, .locking taken _ => (txn.lockKeys.zip taken).getLast?
  | _, _ => none

/-- The claims in whose queues the job is, but for the last if it may still wait for it. -/
def secured : Job → Stage → List (RowKey × Nat)
  | .commit txn, .locking taken _ => (txn.lockKeys.zip taken).dropLast
  | job, stage => job.lined stage

/-- The rows whose locks the job has asked for, and behind which it has not tidied up yet. -/
def untidied : Job → Stage → List RowKey
  | .commit txn, .locking taken _ => txn.lockKeys.take taken.length
  | .commit txn, .fetched taken _ _ => txn.lockKeys.take (taken.length + 1)
  | .commit txn, .logging _ | .commit txn, .applying .. | .commit txn, .unlocking ..
  | .commit txn, .released .. => txn.lockKeys
  | .commit _, .tidying rest _ => rest
  | _, _ => []

/-- The job may come to this stage. -/
def Regular : Job → Stage → Prop
  | .commit txn, .locking taken rest =>
    ∃ asked, txn.lockKeys = asked ++ rest ∧ asked.length = taken.length
  | .commit txn, .fetched taken _ rest =>
    ∃ asked key, txn.lockKeys = asked ++ key :: rest ∧ asked.length = taken.length
  | .commit txn, .logging taken | .commit txn, .applying taken _ =>
    taken.length = txn.lockKeys.length
  | .commit txn, .unlocking taken _ => taken.length ≤ txn.lockKeys.length
  | .commit txn, .released _ taken _ => taken.length < txn.lockKeys.length
  | .commit txn, .tidying rest _ => rest <:+ txn.lockKeys
  | .compact, .locking .. | .compact, .fetched .. | .compact, .applying ..
  | .compact, .unlocking .. | .compact, .released .. | .compact, .tidying .. => False
  | .count, .joined | .count, .locking .. | .count, .fetched .. | .count, .applying ..
  | .count, .unlocking .. | .count, .released .. | .count, .tidying .. => False
  | _, _ => True

variable {job : Job} {stage : Stage} {txn : Txn} {taken : List Nat} {p : RowKey × Nat}
  {rest : List RowKey} {key : RowKey} {lock : Nat}

theorem claims_finished (job : Job) (result : Except CommitError Nat) :
    job.claims (.finished result) = [] := by cases job <;> rfl

theorem lined_joined (job : Job) : job.lined .joined = [] := by cases job <;> rfl

theorem lined_finished (job : Job) (result : Except CommitError Nat) :
    job.lined (.finished result) = [] := by cases job <;> rfl

theorem wants?_joined (job : Job) : job.wants? .joined = none := by cases job <;> rfl

theorem lined_eq_of_wants? (h : job.wants? stage = some p) :
    job.lined stage = job.secured stage ++ [p] := by
  unfold wants? at h
  split at h
  next => exact (List.dropLast_append_getLast? p h).symm
  next => cases h

theorem lined_eq_of_wants?_none (h : job.wants? stage = none) :
    job.secured stage = job.lined stage := by
  cases job with
  | commit txn =>
    cases stage with
    | locking taken rest =>
      have none : txn.lockKeys.zip taken = [] := List.getLast?_eq_none_iff.1 h
      change (txn.lockKeys.zip taken).dropLast = txn.lockKeys.zip taken
      rw [none]
      rfl
    | _ => rfl
  | _ => cases stage <;> rfl

theorem mem_lined_iff : p ∈ job.lined stage ↔
    p ∈ job.secured stage ∨ job.wants? stage = some p := by
  cases wanted : job.wants? stage with
  | some last => rw [lined_eq_of_wants? wanted, List.mem_append, List.mem_singleton, eq_comm,
      Option.some.injEq]
  | none => rw [lined_eq_of_wants?_none wanted, or_iff_left nofun]

theorem claims_sorted (job : Job) (stage : Stage) :
    (job.claims stage).Pairwise fun p q => p.1.Before q.1 := by
  have zipped {keys : List RowKey} (sorted : keys.Pairwise RowKey.Before) (taken : List Nat) :
      (keys.zip taken).Pairwise fun p q => p.1.Before q.1 := by
    rw [List.pairwise_iff_getElem] at sorted ⊢
    intro n m hn hm lt
    rw [List.getElem_zip, List.getElem_zip]
    exact sorted n m _ _ lt
  cases job with
  | commit txn =>
    cases stage with
    | locking | fetched | logging | applying => exact zipped txn.lockKeys_sorted _
    | unlocking | released => exact zipped (txn.lockKeys_sorted.sublist (List.drop_sublist _ _)) _
    | _ => exact .nil
  | _ => cases stage <;> exact .nil

theorem lined_sorted (job : Job) (stage : Stage) :
    (job.lined stage).Pairwise fun p q => p.1.Before q.1 := by
  unfold lined
  split <;> exact claims_sorted _ _

theorem before_of_wants? {q : RowKey × Nat} (h : p ∈ job.secured stage)
    (wanted : job.wants? stage = some q) : p.1.Before q.1 := by
  have sorted := job.lined_sorted stage
  rw [lined_eq_of_wants? wanted] at sorted
  exact (List.pairwise_append.1 sorted).2.2 p h q (.head _)

theorem zip_asked {asked : List RowKey} (keys : txn.lockKeys = asked ++ rest)
    (length : asked.length = taken.length) : txn.lockKeys.zip taken = asked.zip taken := by
  have zip : (asked ++ rest).zip (taken ++ []) = asked.zip taken ++ rest.zip [] :=
    List.zip_append length
  rwa [List.append_nil, List.zip_nil_right, List.append_nil, ← keys] at zip

theorem zip_concat {asked : List RowKey} (keys : txn.lockKeys = asked ++ key :: rest)
    (length : asked.length = taken.length) (lock : Nat) :
    txn.lockKeys.zip (taken ++ [lock]) = txn.lockKeys.zip taken ++ [(key, lock)] := by
  rw [zip_asked keys length, keys, List.zip_append length, List.zip_cons_cons, List.zip_nil_right]

theorem untidied_fetched {asked : List RowKey} (keys : txn.lockKeys = asked ++ key :: rest)
    (length : asked.length = taken.length) (lock : Nat) :
    (Job.commit txn).untidied (.fetched taken lock rest) =
      (Job.commit txn).untidied (.locking taken (key :: rest)) ++ [key] := by
  rw [untidied, untidied, keys, ← length, List.take_length_add_append, List.take_left]
  rfl

theorem claims_unlocking_of_length (length : taken.length = txn.lockKeys.length)
    (result : Except CommitError Nat) :
    (Job.commit txn).claims (.unlocking taken result) = txn.lockKeys.zip taken := by
  rw [claims, length, Nat.sub_self, List.drop_zero]

theorem claims_released (lock : Nat) (length : taken.length < txn.lockKeys.length)
    (result : Except CommitError Nat) : ∃ key,
    (Job.commit txn).claims (.released lock taken result) =
      (key, lock) :: (Job.commit txn).claims (.unlocking taken result) := by
  have first : txn.lockKeys.length - (taken.length + 1) < txn.lockKeys.length := by omega
  have next : txn.lockKeys.length - (taken.length + 1) + 1 =
      txn.lockKeys.length - taken.length := by omega
  refine ⟨txn.lockKeys[txn.lockKeys.length - (taken.length + 1)], ?_⟩
  rw [claims, claims, List.drop_eq_getElem_cons first, next, List.zip_cons_cons]

theorem lined_subset (regular : job.Regular stage) (h : p ∈ job.lined stage) :
    p ∈ job.claims stage := by
  cases job with
  | commit txn =>
    cases stage with
    | fetched taken lock rest =>
      obtain ⟨asked, key, keys, length⟩ := regular
      rw [claims, zip_concat keys length]
      exact List.mem_append_left _ h
    | released lock taken result =>
      obtain ⟨key, claims⟩ := claims_released lock regular result
      exact claims.symm ▸ .tail _ h
    | _ => exact h
  | _ => cases stage <;> exact h

theorem mem_untidied (h : p ∈ job.claims stage) : p.1 ∈ job.untidied stage := by
  cases job with
  | commit txn =>
    cases stage with
    | locking taken | fetched taken =>
      obtain ⟨n, hn, rfl⟩ := List.getElem_of_mem h
      simp only [claims, List.length_zip, List.length_append, List.length_singleton] at hn
      simp only [claims, List.getElem_zip, untidied]
      exact List.mem_take_iff_getElem.2 ⟨n, by omega, rfl⟩
    | logging taken | applying taken => exact (List.of_mem_zip h).1
    | unlocking taken | released taken => exact List.mem_of_mem_drop (List.of_mem_zip h).1
    | _ => cases h
  | _ => cases stage <;> cases h

theorem untidied_subset (regular : job.Regular stage) (h : key ∈ job.untidied stage) :
    ∃ txn, job = .commit txn ∧ key ∈ txn.lockKeys := by
  cases job with
  | commit txn =>
    refine ⟨txn, rfl, ?_⟩
    cases stage with
    | locking | fetched => exact List.mem_of_mem_take h
    | logging | applying | unlocking | released => exact h
    | tidying rest => exact regular.subset h
    | _ => cases h
  | _ => cases stage <;> cases h

end Job

end Carpark
