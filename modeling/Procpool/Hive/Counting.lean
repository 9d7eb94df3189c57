import Procpool.Hive.System

/-! The `(queued, active)` counter against the tasks in the system: `active` counts the tasks
`next_task` returned and `finish_task` has not taken off, and `queued` covers every waiting task. -/
namespace Procpool

variable {W : Worker} {w : Nat} {cap : Capacity}

theorem List.countP_set_add {α : Type} {l : List α} {i : Nat} {a b : α} (p : α → Bool)
    (h : l[i]? = some a) :
    (l.set i b).countP p + (if p a then 1 else 0) = l.countP p + (if p b then 1 else 0) := by
  obtain ⟨lt, rfl⟩ := List.getElem?_eq_some_iff.mp h
  rw [List.countP_set p l i b lt]
  have := List.boole_getElem_le_countP p l i lt
  omega

theorem List.sum_map_set {α : Type} (f : α → Nat) :
    ∀ {l : List α} {i : Nat} {a b : α}, l[i]? = some a →
      ((l.set i b).map f).sum + f a = (l.map f).sum + f b
  | _ :: _, 0, _, _, h => by
    simp only [List.getElem?_cons_zero, Option.some.injEq] at h; subst h; simp; omega
  | _ :: _, _ + 1, _, b, h => by
    have := List.sum_map_set f (b := b) (List.getElem?_cons_succ ▸ h); simp at this ⊢; omega

theorem List.sum_map_eraseIdx {α : Type} (f : α → Nat) :
    ∀ {l : List α} {i : Nat} {a : α}, l[i]? = some a → ((l.eraseIdx i).map f).sum + f a = (l.map f).sum
  | _ :: _, 0, _, h => by
    simp only [List.getElem?_cons_zero, Option.some.injEq] at h; subst h; simp; omega
  | _ :: _, _ + 1, _, h => by
    have := List.sum_map_eraseIdx f (List.getElem?_cons_succ ▸ h); simp; omega

def Outcome.isUnprocessed : Outcome W w → Bool
  | .unprocessed _ _ => true
  | _ => false

def unprocessedCount (outcomes : Outcomes W w) : Nat :=
  outcomes.entries.countP fun entry => entry.2.isUnprocessed

theorem unprocessedCount_insert (outcomes : Outcomes W w) (index : BitVec w) (o : Outcome W w) :
    unprocessedCount (outcomes.insert index o) ≤
      unprocessedCount outcomes + (if o.isUnprocessed then 1 else 0) := by
  simp only [unprocessedCount, AList.insert_entries, List.countP_cons]
  have := (List.kerase_sublist index outcomes.entries).countP_le
    (fun entry : Sigma fun _ : BitVec w => Outcome W w => entry.2.isUnprocessed)
  split <;> omega

theorem unprocessedCount_sendOrStore (tasks : List (Task W w)) (outcomes : Outcomes W w)
    (chans : Channels W w) :
    unprocessedCount (sendOrStore tasks outcomes chans).1 ≤ unprocessedCount outcomes + tasks.length := by
  induction tasks generalizing outcomes chans with
  | nil => simp [sendOrStore]
  | cons task tasks ih =>
    rcases sent : task.intoUnprocessedTrySend chans with ⟨_ | o, chans'⟩ <;>
      simp only [sendOrStore, sent, List.length_cons]
    · have := ih outcomes chans'; omega
    · have := ih (outcomes.insert o.index o) chans'
      have := unprocessedCount_insert outcomes o.index o
      split at * <;> omega

theorem unprocessedCount_sendOrStoreOutcome {o : Outcome W w} (processed : o.isUnprocessed = false)
    (tx : Option OutcomeSender) (outcomes : Outcomes W w) (chans : Channels W w) :
    unprocessedCount (sendOrStoreOutcome o tx outcomes chans).1 ≤ unprocessedCount outcomes := by
  have stored := unprocessedCount_insert outcomes o.index o
  simp only [processed, ite_false, Bool.false_eq_true, Nat.add_zero] at stored
  cases tx with
  | none => exact stored
  | some tx =>
    by_cases dropped : tx.receiver ∈ chans.dropped <;>
      simp only [sendOrStoreOutcome, Channels.trySendMsg, dropped, ite_true, ite_false, addOutcome]
    · exact stored
    · exact Nat.le_refl _

def BatchIter.reservedLeft (b : BatchIter W w) : Nat := b.stop.toNat - b.start.toNat

theorem BatchIter.toNat_start_succ (b : BatchIter W w) (lt : b.start < b.stop) :
    (b.start + 1).toNat = b.start.toNat + 1 := by
  have := b.stop.isLt
  simp only [BitVec.lt_def] at lt
  simp only [BitVec.toNat_add, BitVec.ofNat_eq_ofNat, BitVec.toNat_ofNat,
    Nat.mod_eq_of_lt (show 1 < 2 ^ w by omega), Nat.mod_eq_of_lt (show b.start.toNat + 1 < 2 ^ w by omega)]

theorem BatchIter.reservedLeft_next (b : BatchIter W w) (inputs : List W.Input) (lt : b.start < b.stop) :
    ({ b with inputs, start := b.start + 1 } : BatchIter W w).reservedLeft + 1 = b.reservedLeft := by
  have := b.toNat_start_succ lt
  simp only [BitVec.lt_def] at lt
  simp only [reservedLeft, this]
  omega

theorem countP_resumeAll {f : Phase W w → Bool} (same : f .parked = f .top) (workers : List (Phase W w)) :
    (resumeAll workers).countP f = workers.countP f := by
  simp only [resumeAll, List.countP_map]
  exact List.countP_congr fun phase _ => by cases phase <;> simp [same]

namespace System

/-- Tasks counted as queued and not transferred: prepared and not sent, in the task channel,
in the retry queue, received and not transferred, and the slots the live batches reserved. -/
def pending (s : System W w cap) : Nat :=
  s.unsent.length + s.shared.taskRx.length + s.shared.retryQueue.entries.length +
    s.workers.countP Phase.isReceived + (s.batches.map fun b => b.1.reservedLeft).sum

/-- Tasks returned by `next_task` whose `finish_task` has not run. -/
def held (s : System W w cap) : Nat := s.workers.countP Phase.holds

/-- The counter's invariant. -/
structure Counted (s : System W w cap) : Prop where
  active : s.shared.numTasks.right = s.held
  queued : s.pending + unprocessedCount s.shared.outcomes ≤ s.shared.numTasks.left

variable {s s' t : System W w cap} {retry : Bool} {i : Nat} {p q : Phase W w}

theorem counted_init (config : Config w) : (init config : System W w cap).Counted :=
  ⟨rfl, by simp [pending, init, Shared.new, RetryQueue.empty, unprocessedCount]⟩

theorem held_setWorker (hw : s.workers[i]? = some p) (q : Phase W w) :
    (s.setWorker i q).held + (if p.holds then 1 else 0) = s.held + (if q.holds then 1 else 0) :=
  List.countP_set_add _ hw

theorem pending_setWorker (hw : s.workers[i]? = some p) (q : Phase W w) :
    (s.setWorker i q).pending + (if p.isReceived then 1 else 0) =
      s.pending + (if q.isReceived then 1 else 0) := by
  have := List.countP_set_add Phase.isReceived (b := q) hw
  simp only [pending, setWorker_unsent, setWorker_shared, setWorker_batches, setWorker_workers]
  omega

theorem Counted.setWorker (inv : s.Counted) (hw : s.workers[i]? = some p)
    (workers : t.workers = s.workers)
    (active : t.shared.numTasks.right + (if p.holds then 1 else 0) =
      s.shared.numTasks.right + (if q.holds then 1 else 0))
    (queued : t.pending + unprocessedCount t.shared.outcomes + (if q.isReceived then 1 else 0) +
        s.shared.numTasks.left ≤
      s.pending + unprocessedCount s.shared.outcomes + (if p.isReceived then 1 else 0) +
        t.shared.numTasks.left) :
    (t.setWorker i q).Counted := by
  have held := held_setWorker (s := t) (workers ▸ hw) q
  have pend := pending_setWorker (s := t) (workers ▸ hw) q
  have same : t.held = s.held := by simp only [System.held, workers]
  have := inv.active
  have := inv.queued
  exact ⟨by simp only [setWorker_shared]; omega, by simp only [setWorker_shared]; omega⟩

theorem Counted.setWorker_idle (inv : s.Counted) (hw : s.workers[i]? = some p)
    (alike : p.holds = q.holds ∧ p.isReceived = q.isReceived) : (s.setWorker i q).Counted :=
  inv.setWorker hw rfl (by rw [alike.1]) (by rw [alike.2])

theorem Counted.advance (inv : s.Counted) (h : s.advance retry i = some s') : s'.Counted := by
  cases hw : s.workers[i]? with
  | none => simp [System.advance, hw] at h
  | some p =>
    cases p with
    | top =>
      simp only [System.advance, hw, Option.some.injEq] at h; subst h
      exact inv.setWorker_idle hw (by split <;> exact ⟨rfl, rfl⟩)
    | awake =>
      simp only [System.advance, hw, Option.some.injEq] at h; subst h
      exact inv.setWorker_idle hw (by split <;> exact ⟨rfl, rfl⟩)
    | polling =>
      simp only [System.advance, hw, Option.some.injEq] at h; subst h
      exact inv.setWorker_idle hw (by split <;> exact ⟨rfl, rfl⟩)
    | popping =>
      simp only [System.advance, hw] at h
      split at h <;> simp only [Option.some.injEq] at h <;> subst h
      · obtain ⟨_, -, entries⟩ := RetryQueue.tryPop_eq_some ‹_›
        exact inv.setWorker hw rfl rfl (by simp [pending, entries]; omega)
      · exact inv.setWorker_idle hw ⟨rfl, rfl⟩
    | receiving =>
      simp only [System.advance, hw] at h
      split at h <;> simp only [Option.some.injEq] at h <;> subst h
      · exact inv.setWorker hw rfl rfl (by simp [pending, ‹s.shared.taskRx = _›]; omega)
      · exact inv.setWorker_idle hw (by split <;> exact ⟨rfl, rfl⟩)
    | received task =>
      simp only [System.advance, hw] at h
      split at h <;> simp only [Option.some.injEq] at h <;> subst h
      · obtain ⟨one, -, left, right⟩ := DualCounter.transfer_ok.mp ‹_›
        exact inv.setWorker hw rfl (by simp only [right]; rfl) (by simp [pending, left]; omega)
      · exact inv.setWorker hw rfl rfl (by simp [pending])
    | finishing panicking =>
      simp only [System.advance, hw] at h
      split at h <;> simp only [Option.some.injEq] at h <;> subst h
      · obtain ⟨numTasks, dec, rfl⟩ := Shared.finishTask_eq_some ‹_›
        obtain ⟨one, left, right⟩ := DualCounter.decrementRight_ok.mp dec
        exact inv.setWorker hw rfl (by simp [right]; omega) (by simp [pending, left])
      · exact inv.setWorker_idle hw ⟨rfl, rfl⟩
    | notifying =>
      simp only [System.advance, hw, Option.some.injEq] at h; subst h
      exact inv.setWorker hw rfl rfl (Nat.le_refl _)
    | parked | running _ | exited | crashed => simp [System.advance, hw] at h

theorem Counted.store {task : Task W w} {o : Outcome W w} (inv : s.Counted)
    (hw : s.workers[i]? = some (.running task)) (processed : o.isUnprocessed = false)
    (panicking : Bool) : (s.store i task o panicking).Counted := by
  have fewer := unprocessedCount_sendOrStoreOutcome processed task.outcomeTx s.shared.outcomes s.chans
  unfold System.store
  generalize sendOrStoreOutcome o task.outcomeTx s.shared.outcomes s.chans = stored at fewer ⊢
  exact inv.setWorker hw rfl rfl (by simp only [pending] at fewer ⊢; simp; omega)

theorem Counted.handle {task : Task W w} (inv : s.Counted) (hw : s.workers[i]? = some (.running task))
    (processed : Processed W) : (s.handle retry i task processed).Counted := by
  cases processed with
  | success value => exact inv.store hw (o := .success task.index value) rfl false
  | fatal error => exact inv.store hw (o := .failure task.index error) rfl false
  | panicked payload => exact inv.store hw (o := .panic task.index payload) rfl true
  | retryable error =>
    simp only [System.handle]
    split
    · split
      · split
        · obtain ⟨delay, numTasks, -, inc, rfl⟩ := Shared.queueRetry_eq_some ‹_›
          obtain ⟨-, left, right⟩ := DualCounter.incrementLeft_ok.mp inc
          exact inv.setWorker hw rfl (by simp [right]) (by simp [pending, left]; omega)
        · exact inv.setWorker hw rfl rfl (Nat.le_refl _)
      · exact inv.store hw (o := .maxRetriesAttempted task.index task.input error) rfl false
    · exact inv.store hw (o := .failure task.index error) rfl false

theorem Counted.drain (inv : s.Counted) :
    ({ s with
      shared := (s.shared.drainTasksIntoUnprocessed retry s.chans).1
      chans := (s.shared.drainTasksIntoUnprocessed retry s.chans).2 } : System W w cap).Counted := by
  have channel := unprocessedCount_sendOrStore s.shared.taskRx s.shared.outcomes s.chans
  have := inv.active
  have := inv.queued
  cases retry
  · exact ⟨inv.active, by simp [pending, Shared.drainTasksIntoUnprocessed, Shared.drainNoRetry_eq] at *; omega⟩
  · have queue := unprocessedCount_sendOrStore (s.shared.retryQueue.entries.map (·.2))
      (sendOrStore s.shared.taskRx s.shared.outcomes s.chans).1
      (sendOrStore s.shared.taskRx s.shared.outcomes s.chans).2
    exact ⟨inv.active, by
      simp [pending, Shared.drainTasksIntoUnprocessed, Shared.drainRetry_eq, RetryQueue.empty] at *
      omega⟩

theorem Counted.submitted (inv : s.Counted) (h : Submitted s s') : s'.Counted := by
  have active := inv.active
  have queued := inv.queued
  simp only [pending] at queued
  cases h with
  | task input tx fits => exact ⟨active, by simp [pending, Shared.reserve]; omega⟩
  | batch minSize inputs tx fits inRange =>
    have reserved : (⟨inputs, s.shared.nextTaskIndex, s.shared.nextTaskIndex + minSize, tx⟩ :
        BatchIter W w).reservedLeft = minSize.toNat := by
      simp only [BatchIter.reservedLeft, BitVec.toNat_add, Nat.mod_eq_of_lt inRange]; omega
    exact ⟨active, by simp only [pending, Shared.reserve, List.map_append, List.map_cons, List.map_nil,
      List.sum_append, List.sum_cons, List.sum_nil, reserved]; omega⟩
  | batchOverflow minSize fits _ => exact ⟨active, by simp only [pending, Shared.reserve]; omega⟩
  | reservedNext k b position input inputs hb _ lt =>
    have set := List.sum_map_set (fun e : BatchIter W w × Nat => e.1.reservedLeft)
      (b := ({ b with inputs, start := b.start + 1 }, position + 1)) hb
    have := b.reservedLeft_next inputs lt
    exact ⟨active, by simp only [pending, List.length_append, List.length_singleton] at set ⊢; omega⟩
  | excessNext k b position input inputs hb _ _ fits =>
    have set := List.sum_map_set (fun e : BatchIter W w × Nat => e.1.reservedLeft) (b := ({ b with inputs }, position)) hb
    have same : ({ b with inputs } : BatchIter W w).reservedLeft = b.reservedLeft := rfl
    exact ⟨active, by
      simp only [pending, Shared.reserve, List.length_append, List.length_singleton, same] at set ⊢
      omega⟩
  | ended k entry hb =>
    have erased := List.sum_map_eraseIdx (fun e : BatchIter W w × Nat => e.1.reservedLeft) hb
    exact ⟨active, by simp only [pending] at erased ⊢; omega⟩
  | full => exact inv

theorem Counted.step {a : Action W w} (inv : s.Counted) (h : s.step retry a = some s') : s'.Counted := by
  have active := inv.active
  have queued := inv.queued
  cases submits : a.submits
  · cases a with
    | send k =>
      cases hu : s.unsent[k]? with
      | none => simp [System.step, hu] at h
      | some task =>
        simp only [System.step, hu, Option.some.injEq] at h; subst h
        have := List.length_eraseIdx_of_lt (List.getElem?_eq_some_iff.mp hu).1
        have := (List.getElem?_eq_some_iff.mp hu).1
        simp only [pending] at queued
        exact ⟨active, by simp only [pending, List.length_append, List.length_singleton, this]; omega⟩
    | hangUp =>
      simp only [System.step] at h
      split at h
      · cases h; exact ⟨active, queued⟩
      · cases h
    | spawn =>
      cases h
      exact ⟨by simp [System.held, active], by simp [pending] at queued ⊢; omega⟩
    | advance i => exact inv.advance h
    | complete i processed =>
      simp only [System.step] at h
      split at h
      · cases h; exact inv.handle ‹_› processed
      · cases h
    | join => cases h; exact ⟨active, queued⟩
    | recheck j =>
      simp only [System.step] at h
      split at h
      · cases h; exact ⟨active, queued⟩
      · cases h
    | setSuspended suspended =>
      cases h
      have holds := countP_resumeAll (f := Phase.holds (W := W) (w := w)) rfl s.workers
      have received := countP_resumeAll (f := Phase.isReceived (W := W) (w := w)) rfl s.workers
      exact ⟨by split <;> simp_all [System.held], by split <;> simp_all [pending]⟩
    | poison => cases h; exact ⟨active, queued⟩
    | drain =>
      simp only [System.step] at h
      split at h
      · cases h; exact inv.drain
      · cases h
    | tick => cases h; exact ⟨active, queued⟩
    | dropReceiver receiver => cases h; exact ⟨active, queued⟩
    | prepareTask _ _ | prepareBatch _ _ _ | batchNext _ => cases submits
  · exact inv.submitted (step_submitted h submits)

theorem Reachable.counted {config : Config w} (reach : Reachable retry config s) : s.Counted := by
  induction reach with
  | init => exact counted_init config
  | step a _ stepped inv => exact inv.step stepped

theorem Counted.run {actions : List (Action W w)} (ran : run retry s actions = some s') (inv : s.Counted) :
    s'.Counted :=
  run_invariant (P := Counted) (fun _ inv stepped => inv.step stepped) (fun _ _ => trivial) inv ran

theorem one_le_countP {l : List (Phase W w)} {f : Phase W w → Bool} (hw : l[i]? = some p)
    (fp : f p = true) : 1 ≤ l.countP f :=
  List.countP_pos_iff.mpr ⟨p, List.getElem?_mem hw, fp⟩

/-! ## A sample run -/

def sampleConfig : Config 64 := ⟨.unsync none, .unsync (some 3), .unsync none⟩

/-- The retry build with `max_retries = 3` and one worker thread given three tasks: the first
panics, the second fails with a retryable error and is popped from the retry queue to run again,
and the third waits in the task channel. -/
def sampleRun : List (Action ⟨Unit, Unit, Unit⟩ 64) :=
  [.prepareTask () none, .prepareTask () none, .prepareTask () none, .send 0, .send 0, .send 0, .spawn] ++
    List.replicate 5 (.advance 0) ++ [.complete 0 (.panicked "")] ++ List.replicate 7 (.advance 0) ++
    [.complete 0 (.retryable ())] ++ List.replicate 7 (.advance 0)

def sample : System ⟨Unit, Unit, Unit⟩ 64 ⟨4, 4⟩ :=
  (run true (init sampleConfig) sampleRun).getD (init sampleConfig)

theorem reachable_sample : Reachable true sampleConfig sample :=
  .run .init (rfl : run true (init sampleConfig) sampleRun = some sample)

example : sample.shared.taskRx.map (·.index.toNat) = [2] ∧ sample.held = 1 ∧
    sample.shared.outcomes.keys = [0] := ⟨rfl, rfl, rfl⟩

end System

open System in
/-- In every reachable state of either build, `active` is the number of tasks `next_task`
returned whose `finish_task` has not run, and `queued` covers every task prepared and not
transferred together with the drained tasks stored as `Unprocessed`. So `decrement_right(1)` in
`finish_task` never fails, and `transfer(1)` in `next_task` fails only when `active` is already
at the counter's capacity. -/
theorem num_tasks_counts_tasks {retry : Bool} {config : Config w} {s : System W w cap}
    (reach : Reachable retry config s) :
    s.shared.numTasks.right = s.held ∧
      s.pending + unprocessedCount s.shared.outcomes ≤ s.shared.numTasks.left ∧
      (∀ (i : Nat) (panicking : Bool), s.workers[i]? = some (.finishing panicking) →
        ∃ numTasks, s.shared.numTasks.decrementRight 1 = .ok numTasks) ∧
      (∀ (i : Nat) (task : Task W w), s.workers[i]? = some (.received task) →
        ((∃ numTasks, s.shared.numTasks.transfer 1 = .ok numTasks) ↔ s.held < cap.right)) := by
  obtain ⟨active, queued⟩ := reach.counted
  refine ⟨active, queued, fun i panicking hw => ?_, fun i task hw => ?_⟩
  · have := one_le_countP (f := Phase.holds) hw rfl
    have one : 1 ≤ s.shared.numTasks.right := by simp only [System.held] at active; omega
    simp only [DualCounter.decrementRight, dif_pos one]
    exact ⟨_, rfl⟩
  · have := one_le_countP (f := Phase.isReceived) hw rfl
    simp only [pending] at queued
    constructor
    · rintro ⟨_, moved⟩
      have := (DualCounter.transfer_ok.mp moved).2.1
      omega
    · intro room
      exact ⟨⟨_, _, Nat.sub_le_of_le_add (Nat.le_add_right_of_le (s.shared.numTasks.left_le)),
        (show s.shared.numTasks.right + 1 ≤ cap.right by omega)⟩,
        DualCounter.transfer_ok.mpr ⟨by omega, by omega, rfl, rfl⟩⟩

open System in
theorem num_tasks_counts_tasks_sample :
    let s := System.sample
    Reachable true sampleConfig s ∧
      (s.shared.numTasks.right = s.held ∧
        s.pending + unprocessedCount s.shared.outcomes ≤ s.shared.numTasks.left ∧
        (∀ (i : Nat) (panicking : Bool), s.workers[i]? = some (.finishing panicking) →
          ∃ numTasks, s.shared.numTasks.decrementRight 1 = .ok numTasks) ∧
        (∀ (i : Nat) (task : Task ⟨Unit, Unit, Unit⟩ 64), s.workers[i]? = some (.received task) →
          ((∃ numTasks, s.shared.numTasks.transfer 1 = .ok numTasks) ↔ s.held < 4))) :=
  ⟨reachable_sample, num_tasks_counts_tasks reachable_sample⟩

/-! ## More workers than the active count holds -/

namespace System

variable {s : System W w cap} {retry : Bool}

/-- A hive with `k` workers, each running a task, and nothing else in flight. -/
structure Busy (s : System W w cap) (k : Nat) : Prop where
  queued : s.shared.numTasks.left = 0
  active : s.shared.numTasks.right = k
  workers : s.workers.length = k
  unsent : s.unsent = []
  taskRx : s.shared.taskRx = []
  connected : s.disconnected = false
  resumed : s.shared.suspended = false
  healthy : s.shared.poisoned = false
  noRetry : s.shared.nextRetry = none

theorem busy_init (config : Config w) : (init config : System W w cap).Busy 0 :=
  ⟨rfl, rfl, rfl, rfl, rfl, rfl, rfl, rfl, rfl⟩

theorem Busy.receive {config : Config w} {k : Nat} (reach : Reachable retry config s) (busy : s.Busy k)
    (fits : 1 ≤ cap.left) (input : W.Input) :
    ∃ s' : System W w cap, Reachable retry config s' ∧
      s'.workers = s.workers ++ [.received ⟨input, .new s.shared.nextTaskIndex, none⟩] ∧
      s'.shared.numTasks.left = 1 ∧ s'.shared.numTasks.right = k ∧
      s'.unsent = [] ∧ s'.shared.taskRx = [] ∧ s'.disconnected = false ∧
      s'.shared.suspended = false ∧ s'.shared.poisoned = false ∧ s'.shared.nextRetry = none := by
  obtain ⟨left, right, len, unsent, rx, conn, res, healthy, noRetry⟩ := busy
  subst len
  have ran : ∃ s' : System W w cap, run retry s [.prepareTask input none, .send 0, .spawn, .advance s.workers.length,
      .advance s.workers.length, .advance s.workers.length, .advance s.workers.length] = some s' ∧
      s'.workers = s.workers ++ [.received ⟨input, .new s.shared.nextTaskIndex, none⟩] ∧
      s'.shared.numTasks.left = 1 ∧ s'.shared.numTasks.right = s.workers.length ∧
      s'.unsent = [] ∧ s'.shared.taskRx = [] ∧ s'.disconnected = false ∧
      s'.shared.suspended = false ∧ s'.shared.poisoned = false ∧ s'.shared.nextRetry = none := by
    simp only [run, step, conn, Bool.false_eq_true, ↓reduceIte,
      Shared.prepareTask_ok (show s.shared.numTasks.left + 1 ≤ cap.left by omega), Shared.reserve, left,
      zero_add, right, healthy, res, rx, noRetry, unsent, List.nil_append, List.eraseIdx_zero, advance,
      setWorker, Bool.and_eq_true, Option.bind_some, Option.some_bind, List.length_singleton, zero_lt_one,
      List.getElem?_eq_getElem, List.getElem_cons_zero, List.tail_cons, List.length_append,
      lt_add_iff_pos_right, List.getElem_concat_length, le_refl, List.set_append_right, tsub_self,
      List.set_cons_zero, Option.map_none', Option.getD_none, and_false, Option.some.injEq,
      exists_eq_left', and_self]
  obtain ⟨s', ran, facts⟩ := ran
  exact ⟨s', reach.run ran, facts⟩

theorem exists_busy {config : Config w} (fits : 1 ≤ cap.left) (input : W.Input) :
    ∀ k ≤ cap.right, ∃ s : System W w cap, Reachable retry config s ∧ s.Busy k
  | 0, _ => ⟨_, .init, busy_init config⟩
  | k + 1, room => by
    obtain ⟨s, reach, busy⟩ := exists_busy fits input k (by omega)
    obtain ⟨s', reach', workers, left, right, unsent, rx, conn, res, healthy, noRetry⟩ :=
      busy.receive reach fits input
    have hw : s'.workers[k]? = some (.received ⟨input, .new s.shared.nextTaskIndex, none⟩) := by
      rw [workers, ← busy.workers, List.getElem?_concat_length]
    obtain ⟨numTasks, moved⟩ : ∃ numTasks, s'.shared.numTasks.transfer 1 = .ok numTasks :=
      ⟨⟨0, k + 1, Nat.zero_le _, room⟩, DualCounter.transfer_ok.mpr ⟨by omega, by omega, by simp [left], by simp [right]⟩⟩
    refine ⟨_, reach'.step (.advance k) (by simp only [step, advance, hw, moved]; rfl), ?_⟩
    obtain ⟨-, -, left', right'⟩ := DualCounter.transfer_ok.mp moved
    exact ⟨by simp [setWorker, left', left], by simp [setWorker, right', right],
      by simp [setWorker, workers, busy.workers], unsent, rx, conn, res, healthy, noRetry⟩

end System

open System in
/-- With every worker already holding a task, a hive of `active`-capacity plus one workers
reaches a worker whose `transfer(1)` overflows; this holds at every capacity that admits a
queued task, in both builds. -/
theorem transfer_overflows_at_every_capacity :
    ¬ ∃ cap : Capacity, 1 ≤ cap.left ∧ ∃ retry : Bool, ∀ s : System ⟨Unit, Unit, Unit⟩ 64 cap,
      Reachable retry ⟨.unsync none, .unsync none, .unsync none⟩ s →
        ∀ (i : Nat) (task : Task ⟨Unit, Unit, Unit⟩ 64), s.workers[i]? = some (.received task) →
          ∃ numTasks, s.shared.numTasks.transfer 1 = .ok numTasks := by
  rintro ⟨cap, fits, retry, never⟩
  obtain ⟨s, reach, busy⟩ : ∃ s : System ⟨Unit, Unit, Unit⟩ 64 cap,
      Reachable retry ⟨.unsync none, .unsync none, .unsync none⟩ s ∧ s.Busy cap.right :=
    exists_busy fits () cap.right le_rfl
  obtain ⟨s', reach', workers, -, right, -⟩ := busy.receive reach fits ()
  have hw : s'.workers[cap.right]? = some (.received ⟨(), .new s.shared.nextTaskIndex, none⟩) := by
    rw [workers, ← busy.workers, List.getElem?_concat_length]
  obtain ⟨numTasks, moved⟩ := never s' reach' _ _ hw
  have := (DualCounter.transfer_ok.mp moved).2.1
  omega

end Procpool
