import Procpool.Hive.Gates

/-! The hint `next_retry` of the retry build: not kept equal to the first deadline, but set and no
later than every deadline while the queue holds a task, so no worker passes over a due retry. -/
namespace Procpool

variable {W : Worker} {w : Nat} {cap : Capacity}

theorem updateNextRetry_some (hint : Option Nat) (x : Nat) :
    ∃ m, updateNextRetry hint (some x) = some m ∧ m ≤ x ∧ ∀ c, hint = some c → m ≤ c := by
  cases hint with
  | none => exact ⟨x, rfl, le_rfl, nofun⟩
  | some c =>
    by_cases earlier : x < c
    · exact ⟨x, by simp [updateNextRetry, earlier], le_rfl, fun _ same => by cases same; omega⟩
    · exact ⟨c, by simp [updateNextRetry, earlier], by omega, fun _ same => by cases same; rfl⟩

namespace Shared

/-- `next_retry` is set while the retry queue holds a task, and no later than any of its
deadlines. -/
def HintBelow (s : Shared W w cap) : Prop :=
  ∀ entry ∈ s.retryQueue.entries, ∃ n, s.nextRetry = some n ∧ n ≤ entry.1

variable {s s' : Shared W w cap}

theorem HintBelow.queueRetry {input : W.Input} {ctx : Context w} {tx : Option OutcomeSender}
    {now : Nat} (inv : s.HintBelow) (h : s.queueRetry input ctx tx now = some s') : s'.HintBelow := by
  obtain ⟨delay, numTasks, -, -, rfl⟩ := queueRetry_eq_some h
  obtain ⟨m, hint, new, old⟩ := updateNextRetry_some s.nextRetry (now + delay.toNat)
  intro entry mem
  refine ⟨m, hint, ?_⟩
  rcases (List.mem_orderedInsert DueBy).mp mem with rfl | mem
  · exact new
  · obtain ⟨n, set, below⟩ := inv entry mem
    exact (old n set).trans below

theorem hintBelow_pop (queue : RetryQueue W w) (hint : Option Nat) :
    ({ s with retryQueue := queue, nextRetry := updateNextRetry hint queue.nextAvailable } :
      Shared W w cap).HintBelow := by
  obtain ⟨_ | ⟨first, rest⟩, sorted⟩ := queue
  · exact fun _ mem => nomatch mem
  · obtain ⟨m, hint, below, -⟩ := updateNextRetry_some hint first.1
    intro entry mem
    refine ⟨m, hint, ?_⟩
    rcases List.mem_cons.mp mem with rfl | mem
    · exact below
    · exact below.trans (List.rel_of_sorted_cons sorted entry mem)

theorem HintBelow.drain (inv : s.HintBelow) (retry : Bool) (chans : Channels W w) :
    (s.drainTasksIntoUnprocessed retry chans).1.HintBelow := by
  cases retry
  · simpa only [drainTasksIntoUnprocessed, drainNoRetry_eq] using inv
  · simp only [drainTasksIntoUnprocessed, drainRetry_eq]
    exact fun _ mem => nomatch mem

end Shared

namespace System

variable {s s' : System W w cap} {retry : Bool} {a : Action W w} {i : Nat}

theorem hintBelow_advance (inv : s.shared.HintBelow) (h : s.advance retry i = some s') :
    s'.shared.HintBelow := by
  cases hw : s.workers[i]? with
  | none => simp [advance, hw] at h
  | some p =>
    cases p <;> simp only [advance, hw] at h
    case popping =>
      split at h <;> simp only [Option.some.injEq] at h <;> subst h
      · exact Shared.hintBelow_pop _ _
      · exact inv
    case finishing =>
      split at h <;> simp only [Option.some.injEq] at h <;> subst h
      · obtain ⟨_, -, rfl⟩ := Shared.finishTask_eq_some ‹_›
        exact inv
      · exact inv
    all_goals first
      | (simp only [Option.some.injEq] at h; subst h; exact inv)
      | (split at h <;> simp only [Option.some.injEq] at h <;> subst h <;> exact inv)
      | cases h

theorem hintBelow_handle (inv : s.shared.HintBelow) (task : Task W w) (processed : Processed W) :
    (s.handle retry i task processed).shared.HintBelow := by
  cases processed <;> simp only [handle, store]
  case retryable =>
    split
    · split
      · split
        · exact inv.queueRetry ‹_›
        · exact inv
      · exact inv
    · exact inv
  all_goals exact inv

theorem hintBelow_step (inv : s.shared.HintBelow) (h : s.step retry a = some s') :
    s'.shared.HintBelow := by
  cases gated : a.gated
  · obtain ⟨-, ⟨_, _, _, shared⟩ | ⟨-, shared⟩⟩ := step_ungated h gated <;> rw [shared]
    · exact inv
    · exact inv.drain retry s.chans
  · cases a with
    | spawn | poison | setSuspended _ => cases h; exact inv
    | advance i => exact hintBelow_advance inv h
    | complete i processed =>
      simp only [step] at h
      split at h
      · cases h; exact hintBelow_handle inv _ _
      · cases h
    | prepareTask _ _ | prepareBatch _ _ _ | batchNext _ | send _ | hangUp | join | recheck _ | drain
      | tick | dropReceiver _ => cases gated

theorem Reachable.hintBelow {config : Config w} (reach : Reachable retry config s) :
    s.shared.HintBelow := by
  induction reach with
  | init => exact fun _ mem => nomatch mem
  | step a _ stepped inv => exact hintBelow_step inv stepped

/-- In the retry build a worker about to read `next_retry` goes on to the retry queue whenever
a task there is due. -/
theorem Reachable.polls_due_retry {config : Config w} (reach : Reachable true config s)
    (polling : s.workers[i]? = some .polling) {entry : Nat × Task W w}
    (queued : entry ∈ s.shared.retryQueue.entries) (due : entry.1 ≤ s.now) :
    ∃ s', s.advance true i = some s' ∧ s'.workers[i]? = some .popping := by
  obtain ⟨n, hint, below⟩ := reach.hintBelow entry queued
  have within := (List.getElem?_eq_some_iff.mp polling).1
  simp [advance, polling, setWorker, hint, show n ≤ s.now by omega, within]

/-- One task fails with a retryable error, and its worker comes round its loop to `next_retry`. -/
def retriedRun : List (Action ⟨Unit, Unit, Unit⟩ 64) :=
  [.prepareTask () none, .send 0, .spawn] ++ List.replicate 5 (.advance 0) ++ [.complete 0 (.retryable ())] ++
    List.replicate 4 (.advance 0)

def retried : System ⟨Unit, Unit, Unit⟩ 64 ⟨1, 1⟩ :=
  (run true (init sampleConfig) retriedRun).getD (init sampleConfig)

theorem polls_due_retry_retried :
    let s := retried
    Reachable true sampleConfig s ∧ s.workers[0]? = some .polling ∧
      ∃ entry ∈ s.shared.retryQueue.entries, entry.1 ≤ s.now ∧
        ∃ s', s.advance true 0 = some s' ∧ s'.workers[0]? = some .popping :=
  have reach : Reachable true sampleConfig retried :=
    .run .init (rfl : run true (init sampleConfig) retriedRun = some retried)
  ⟨reach, rfl, _, List.mem_cons_self _ _, by decide, reach.polls_due_retry rfl (List.mem_cons_self _ _) (by decide)⟩

/-- Two retries with deadlines 0 and 1, then a worker pops the first: the hint stays at the
popped deadline 0; a drain then empties the queue and leaves the hint set. -/
theorem next_retry_keeps_popped_deadline :
    let config : Config 64 := ⟨.unsync none, .unsync (some 1), .unsync none⟩
    let served : List (Action ⟨Unit, Unit, Unit⟩ 64) :=
      [.spawn, .spawn, .prepareTask () none, .prepareTask () none, .send 0, .send 0] ++
        List.replicate 5 (.advance 0) ++ List.replicate 5 (.advance 1) ++
        [.complete 0 (.retryable ()), .tick, .complete 1 (.retryable ())] ++ List.replicate 6 (.advance 0)
    ∃ popped drained : System ⟨Unit, Unit, Unit⟩ 64 ⟨2, 2⟩,
      run true (.init config) served = some popped ∧
        popped.shared.retryQueue.entries.map (·.1) = [1] ∧ popped.shared.nextRetry = some 0 ∧
      run true popped [.poison, .drain] = some drained ∧
        drained.shared.retryQueue.entries = [] ∧ drained.shared.nextRetry = some 0 :=
  ⟨_, _, rfl, rfl, rfl, rfl, rfl, rfl⟩

end System

end Procpool
