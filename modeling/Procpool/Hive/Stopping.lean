import Procpool.Hive.Gates

/-! How far a poisoned or suspended hive still runs tasks, bounded by the workers already past the
flag's check, and what `wait_on_done` waits for. -/
namespace Procpool

variable {W : Worker} {w : Nat} {cap : Capacity}

namespace Phase

/-- Past the resume gate of `next_task`'s loop, or holding a task. -/
@[simp] def pastResumeGate : Phase W w → Bool
  | .awake | .polling | .popping | .receiving | .received _ | .running _ => true
  | _ => false

/-- Past the `poisoned` check of `next_task`'s loop, or holding a task. -/
@[simp] def pastPoisonCheck : Phase W w → Bool
  | .polling | .popping | .receiving | .received _ | .running _ => true
  | _ => false

end Phase

/-- The processor returns a result: the one action that runs a task. -/
def Action.completes : Action W w → Bool
  | .complete _ _ => true
  | _ => false

theorem Action.gated_of_completes {a : Action W w} (h : a.completes = true) : a.gated = true := by
  cases a <;> simp_all [completes, gated]

namespace System

variable {s s' : System W w cap} {retry : Bool} {a : Action W w} {i : Nat}

def pastResumeGate (s : System W w cap) : Nat := s.workers.countP Phase.pastResumeGate

def pastPoisonCheck (s : System W w cap) : Nat := s.workers.countP Phase.pastPoisonCheck

theorem advance_frame (h : s.advance retry i = some s') :
    ∃ p q, s.workers[i]? = some p ∧ s'.workers = s.workers.set i q ∧ s'.shared.config = s.shared.config ∧
      s'.shared.suspended = s.shared.suspended ∧ (s.shared.poisoned = true → s'.shared.poisoned = true) ∧
      (q.pastResumeGate = true → p.pastResumeGate = true ∨ p = .top ∧ s.shared.suspended = false) ∧
      (q.pastPoisonCheck = true → p.pastPoisonCheck = true ∨ p = .awake ∧ s.shared.poisoned = false) := by
  cases hw : s.workers[i]? with
  | none => simp [advance, hw] at h
  | some p =>
    cases p with
    | top | awake =>
      simp only [advance, hw, Option.some.injEq] at h; subst h
      refine ⟨_, _, rfl, rfl, rfl, rfl, id, ?_, ?_⟩ <;> split <;> simp_all
    | polling | notifying =>
      simp only [advance, hw, Option.some.injEq] at h; subst h
      exact ⟨_, _, rfl, rfl, rfl, rfl, id, by simp, by simp⟩
    | popping | receiving =>
      simp only [advance, hw] at h
      split at h <;> simp only [Option.some.injEq] at h <;> subst h <;>
        exact ⟨_, _, rfl, rfl, rfl, rfl, id, by simp, by simp⟩
    | received task =>
      simp only [advance, hw] at h
      split at h <;> simp only [Option.some.injEq] at h <;> subst h
      · exact ⟨_, _, rfl, rfl, rfl, rfl, id, by simp, by simp⟩
      · exact ⟨_, _, rfl, rfl, rfl, rfl, fun poisoned => by simp [poisoned], by simp, by simp⟩
    | finishing panicking =>
      simp only [advance, hw] at h
      split at h <;> simp only [Option.some.injEq] at h <;> subst h
      · obtain ⟨_, -, rfl⟩ := Shared.finishTask_eq_some ‹_›
        exact ⟨_, _, rfl, rfl, rfl, rfl, id, by simp, by simp⟩
      · exact ⟨_, _, rfl, rfl, rfl, rfl, id, by simp, by simp⟩
    | parked | running _ | exited | crashed => simp [advance, hw] at h

theorem handle_frame (retry : Bool) (task : Task W w) (processed : Processed W) :
    ∃ q : Phase W w, (s.handle retry i task processed).workers = s.workers.set i q ∧ q.pastResumeGate = false ∧
      (s.handle retry i task processed).shared.config = s.shared.config ∧
      (s.handle retry i task processed).shared.poisoned = s.shared.poisoned ∧
      (s.handle retry i task processed).shared.suspended = s.shared.suspended := by
  cases processed <;> simp only [handle, store]
  case retryable =>
    split
    · split
      · split
        · obtain ⟨_, _, -, -, rfl⟩ := Shared.queueRetry_eq_some ‹_›
          exact ⟨_, rfl, rfl, rfl, rfl, rfl⟩
        · exact ⟨_, rfl, rfl, rfl, rfl, rfl⟩
      · exact ⟨_, rfl, rfl, rfl, rfl, rfl⟩
    · exact ⟨_, rfl, rfl, rfl, rfl, rfl⟩
  all_goals exact ⟨_, rfl, rfl, rfl, rfl, rfl⟩

theorem countP_set_le {l : List (Phase W w)} {p q : Phase W w} {g : Phase W w → Bool} (hw : l[i]? = some p)
    (passes : g q = true → g p = true) : (l.set i q).countP g ≤ l.countP g := by
  have := List.countP_set_add g hw (b := q)
  cases hq : g q
  · simp only [hq, Bool.false_eq_true, if_false] at this; omega
  · simp only [passes hq, hq, if_true] at this; omega

theorem countP_handle {task : Task W w} {g : Phase W w → Bool} (hw : s.workers[i]? = some (.running task))
    (running : g (.running task) = true) (stops : ∀ q : Phase W w, q.pastResumeGate = false → g q = false)
    (retry : Bool) (processed : Processed W) :
    (s.handle retry i task processed).workers.countP g + 1 = s.workers.countP g := by
  obtain ⟨q, workers, off, -⟩ := handle_frame retry task processed
  have := List.countP_set_add g hw (b := q)
  simp only [running, stops q off, if_true, Bool.false_eq_true, if_false] at this
  rw [workers]
  omega

theorem step_poisoned (poisoned : s.shared.poisoned = true) (h : s.step retry a = some s') :
    s'.shared.poisoned = true ∧ (if a.completes then 1 else 0) + s'.pastPoisonCheck ≤ s.pastPoisonCheck := by
  cases gated : a.gated
  · obtain ⟨same, -, workers⟩ := step_ungated_flags h gated
    have : a.completes = false := Bool.eq_false_iff.mpr fun c => by simp [Action.gated_of_completes c] at gated
    simp [pastPoisonCheck, same, poisoned, workers, this]
  · cases a with
    | spawn => cases h; simp [pastPoisonCheck, poisoned, Action.completes]
    | advance i =>
      obtain ⟨p, q, hw, workers, -, -, stays, -, past⟩ := advance_frame h
      refine ⟨stays poisoned, ?_⟩
      simp only [Action.completes, Bool.false_eq_true, if_false, Nat.zero_add, pastPoisonCheck, workers]
      exact countP_set_le hw fun hq => (past hq).resolve_right fun ⟨_, clear⟩ => by simp [poisoned] at clear
    | complete i processed =>
      simp only [step] at h
      split at h
      · cases h
        obtain ⟨-, -, -, -, same, -⟩ := handle_frame (s := s) (i := i) retry ‹_› processed
        have := countP_handle (g := Phase.pastPoisonCheck) ‹_› rfl (fun q off => by cases q <;> simp_all) retry
          processed
        exact ⟨same ▸ poisoned, by simp only [Action.completes, if_true, pastPoisonCheck]; omega⟩
      · cases h
    | setSuspended b =>
      cases h
      refine ⟨poisoned, ?_⟩
      simp only [Action.completes, Bool.false_eq_true, if_false, Nat.zero_add, pastPoisonCheck]
      split
      · rw [countP_resumeAll (f := Phase.pastPoisonCheck) rfl]
      · exact le_rfl
    | poison => cases h; simp [pastPoisonCheck, Action.completes]
    | prepareTask _ _ | prepareBatch _ _ _ | batchNext _ | send _ | hangUp | join | recheck _ | drain | tick
      | dropReceiver _ => cases gated

theorem step_suspended (suspended : s.shared.suspended = true) (resumes : a ≠ .setSuspended false)
    (h : s.step retry a = some s') :
    s'.shared.suspended = true ∧ (if a.completes then 1 else 0) + s'.pastResumeGate ≤ s.pastResumeGate := by
  cases gated : a.gated
  · obtain ⟨-, same, workers⟩ := step_ungated_flags h gated
    have : a.completes = false := Bool.eq_false_iff.mpr fun c => by simp [Action.gated_of_completes c] at gated
    simp [pastResumeGate, same, suspended, workers, this]
  · cases a with
    | spawn => cases h; simp [pastResumeGate, suspended, Action.completes]
    | advance i =>
      obtain ⟨p, q, hw, workers, -, same, -, past, -⟩ := advance_frame h
      refine ⟨same ▸ suspended, ?_⟩
      simp only [Action.completes, Bool.false_eq_true, if_false, Nat.zero_add, pastResumeGate, workers]
      exact countP_set_le hw fun hq => (past hq).resolve_right fun ⟨_, clear⟩ => by simp [suspended] at clear
    | complete i processed =>
      simp only [step] at h
      split at h
      · cases h
        obtain ⟨-, -, -, -, -, same⟩ := handle_frame (s := s) (i := i) retry ‹_› processed
        have := countP_handle (g := Phase.pastResumeGate) ‹_› rfl (fun _ off => off) retry processed
        exact ⟨same ▸ suspended, by simp only [Action.completes, if_true, pastResumeGate]; omega⟩
      · cases h
    | setSuspended b =>
      cases b
      · exact absurd rfl resumes
      · cases h; simp [Action.completes, pastResumeGate, Shared.setSuspended]
    | poison => cases h; simp [pastResumeGate, suspended, Action.completes]
    | prepareTask _ _ | prepareBatch _ _ _ | batchNext _ | send _ | hangUp | join | recheck _ | drain | tick
      | dropReceiver _ => cases gated

/-- A count of workers that no allowed step raises and each processor result lowers bounds the
processor results of every run of allowed steps. -/
theorem run_completes_le (closed : System W w cap → Prop) (allowed : Action W w → Prop)
    (count : System W w cap → Nat)
    (step : ∀ {s s' : System W w cap} {a : Action W w}, allowed a → closed s → s.step retry a = some s' →
      closed s' ∧ (if a.completes then 1 else 0) + count s' ≤ count s) :
    ∀ {actions : List (Action W w)} {s s' : System W w cap}, (∀ a ∈ actions, allowed a) → closed s →
      run retry s actions = some s' → closed s' ∧ actions.countP Action.completes + count s' ≤ count s
  | [], _, _, _, holds, ran => by cases ran; exact ⟨holds, by simp⟩
  | a :: _, _, _, all, holds, ran => by
    simp only [run, Option.bind_eq_some] at ran
    obtain ⟨_, stepped, rest⟩ := ran
    obtain ⟨kept, first⟩ := step (all a (.head _)) holds stepped
    obtain ⟨kept, later⟩ := run_completes_le closed allowed count step (fun b mem => all b (.tail _ mem)) kept rest
    refine ⟨kept, ?_⟩
    simp only [List.countP_cons]
    omega

/-- Once poisoned a hive stays poisoned, and over every run from it, in any interleaving of
submitters, workers, joiners and flag changes, the processor returns at most as often as there
were workers past the `poisoned` check of `next_task`, or holding a task, when the run began,
and that count never grows. A worker past the check still runs the task it receives, even one
sent after `poison`, but takes no other; with no worker past the check a poisoned hive runs no
task at all. -/
theorem poisoned_hive_runs_few_tasks {actions : List (Action W w)} (poisoned : s.shared.poisoned = true)
    (ran : run retry s actions = some s') :
    s'.shared.poisoned = true ∧ actions.countP Action.completes + s'.pastPoisonCheck ≤ s.pastPoisonCheck :=
  run_completes_le (fun s => s.shared.poisoned = true) (fun _ => True) pastPoisonCheck
    (fun _ poisoned stepped => step_poisoned poisoned stepped) (fun _ _ => trivial) poisoned ran

/-- A hive stopped by `stop` (`poison` or `set_suspended(true)`) while its one worker waits in
`recv_timeout`, past both checks. -/
def stoppedWith (stop : Action ⟨Unit, Unit, Unit⟩ 64) : System ⟨Unit, Unit, Unit⟩ 64 ⟨1, 1⟩ :=
  (run true (init sampleConfig) [.spawn, .advance 0, .advance 0, .advance 0, stop]).getD (init sampleConfig)

/-- A task sent after the stop, which the waiting worker receives, runs and finishes before it
goes `rounds` steps round its loop. -/
def lateTask (rounds : Nat) : List (Action ⟨Unit, Unit, Unit⟩ 64) :=
  [.prepareTask () none, .send 0, .advance 0, .advance 0, .complete 0 (.success ())] ++
    List.replicate rounds (.advance 0)

theorem poisoned_hive_runs_few_tasks_late :
    let s := stoppedWith .poison
    let s' := (run true s (lateTask 4)).getD s
    s.shared.poisoned = true ∧ run true s (lateTask 4) = some s' ∧ (lateTask 4).countP Action.completes = 1 ∧
      s'.pastPoisonCheck = 0 ∧
      (s'.shared.poisoned = true ∧ (lateTask 4).countP Action.completes + s'.pastPoisonCheck ≤ s.pastPoisonCheck) :=
  ⟨by decide, rfl, rfl, by decide, poisoned_hive_runs_few_tasks (by decide) rfl⟩

/-- While a hive stays suspended, that is over every run from a suspended hive with no
`set_suspended(false)`, in any interleaving, the processor returns at most as often as there
were workers past the resume gate, or holding a task, when the run began, and that count never
grows: a worker back at the top of its loop parks on the gate. With no worker past the gate a
suspended hive runs no task at all. -/
theorem suspended_hive_runs_few_tasks {actions : List (Action W w)} (suspended : s.shared.suspended = true)
    (resumes : ∀ a ∈ actions, a ≠ .setSuspended false) (ran : run retry s actions = some s') :
    s'.shared.suspended = true ∧ actions.countP Action.completes + s'.pastResumeGate ≤ s.pastResumeGate :=
  run_completes_le (fun s => s.shared.suspended = true) (· ≠ .setSuspended false) pastResumeGate
    (fun resumes suspended stepped => step_suspended suspended resumes stepped) resumes suspended ran

theorem suspended_hive_runs_few_tasks_late :
    let s := stoppedWith (.setSuspended true)
    let s' := (run true s (lateTask 3)).getD s
    s.shared.suspended = true ∧ (∀ a ∈ lateTask 3, a ≠ .setSuspended false) ∧ run true s (lateTask 3) = some s' ∧
      (lateTask 3).countP Action.completes = 1 ∧ s'.pastResumeGate = 0 ∧
      (s'.shared.suspended = true ∧ (lateTask 3).countP Action.completes + s'.pastResumeGate ≤ s.pastResumeGate) :=
  ⟨by decide, by simp [lateTask], rfl, rfl, by decide,
    suspended_hive_runs_few_tasks (by decide) (by simp [lateTask]) rfl⟩

/-! ## What `wait_on_done` waits for -/

end System

end Procpool
