import Procpool.Hive.Conservation
import Procpool.Hive.Stopping

/-! How often a task runs: no task in the hive is past the retry limit, and a worker reports
`MaxRetriesAttempted` exactly at it. -/
namespace Procpool

variable {W : Worker} {w : Nat} {cap : Capacity}

/-- The highest attempt a task can reach: `max_retries` in the retry build, 0 when it is unset
or the build does not retry. -/
def retryLimit (retry : Bool) (config : Config w) : Nat :=
  if retry then (config.maxRetries.get.map BitVec.toNat).getD 0 else 0

namespace System

variable {s s' : System W w cap} {retry : Bool} {i : Nat} {p q : Phase W w} {a : Action W w}

/-! ## The configuration is fixed -/

theorem config_step (h : s.step retry a = some s') : s'.shared.config = s.shared.config := by
  cases gated : a.gated
  · obtain ⟨-, ⟨_, _, _, shared⟩ | ⟨-, shared⟩⟩ := step_ungated h gated <;> rw [shared]
    cases retry <;> rfl
  · cases a with
    | advance i =>
      obtain ⟨-, -, -, -, config, -⟩ := advance_frame h
      exact config
    | complete i processed =>
      simp only [step] at h
      split at h
      · cases h
        obtain ⟨-, -, -, config, -⟩ := handle_frame (s := s) (i := i) retry ‹_› processed
        exact config
      · cases h
    | spawn | setSuspended _ | poison => cases h; rfl
    | prepareTask _ _ | prepareBatch _ _ _ | batchNext _ | send _ | hangUp | join | recheck _ | drain | tick
      | dropReceiver _ => cases gated

theorem mem_tasks_setWorker {task : Task W w} (mem : task ∈ (s.setWorker i q).tasks) :
    task ∈ s.tasks ∨ task ∈ q.tasks := by
  simp only [tasks, setWorker_unsent, setWorker_shared, setWorker_workers, List.mem_append, List.mem_flatMap]
    at mem ⊢
  rcases mem with old | ⟨p, set, held⟩
  · exact .inl (.inl old)
  · rcases List.mem_or_eq_of_mem_set set with old | rfl
    · exact .inl (.inr ⟨p, old, held⟩)
    · exact .inr held

theorem mem_tasks {t : Task W w} :
    t ∈ s.tasks ↔ t ∈ s.unsent ∨ t ∈ s.shared.taskRx ∨ t ∈ s.shared.retryQueue.entries.map (·.2) ∨
      t ∈ s.workers.flatMap Phase.tasks := by
  simp only [tasks, List.mem_append, or_assoc]

theorem mem_tasks_unsent {t : Task W w} (mem : t ∈ s.unsent) : t ∈ s.tasks := mem_tasks.mpr (.inl mem)

theorem mem_tasks_rx {t : Task W w} (mem : t ∈ s.shared.taskRx) : t ∈ s.tasks := mem_tasks.mpr (.inr (.inl mem))

theorem mem_tasks_queued {t : Task W w} (mem : t ∈ s.shared.retryQueue.entries.map (·.2)) : t ∈ s.tasks :=
  mem_tasks.mpr (.inr (.inr (.inl mem)))

theorem mem_tasks_queue {entry : Nat × Task W w} (mem : entry ∈ s.shared.retryQueue.entries) :
    entry.2 ∈ s.tasks :=
  mem_tasks_queued (List.mem_map_of_mem _ mem)

theorem mem_tasks_held {t : Task W w} (mem : t ∈ s.workers.flatMap Phase.tasks) : t ∈ s.tasks :=
  mem_tasks.mpr (.inr (.inr (.inr mem)))

theorem tasks_subset {t : System W w cap} (unsent : t.unsent = s.unsent) (rx : t.shared.taskRx ⊆ s.shared.taskRx)
    (queue : t.shared.retryQueue.entries ⊆ s.shared.retryQueue.entries) (workers : t.workers = s.workers) :
    t.tasks ⊆ s.tasks := by
  intro task mem
  simp only [tasks, List.mem_append, unsent, workers] at mem ⊢
  rcases mem with ((old | sent) | queued) | held
  · exact .inl (.inl (.inl old))
  · exact .inl (.inl (.inr (rx sent)))
  · exact .inl (.inr (List.map_subset _ queue queued))
  · exact .inr held

theorem tasks_setWorker_subset {t : System W w cap} (within : t.tasks ⊆ s.tasks) (held : q.tasks ⊆ s.tasks) :
    (t.setWorker i q).tasks ⊆ s.tasks :=
  fun _ mem => (mem_tasks_setWorker mem).elim (within ·) (held ·)

theorem tasks_advance (h : s.advance retry i = some s') : s'.tasks ⊆ s.tasks := by
  cases hw : s.workers[i]? with
  | none => simp [advance, hw] at h
  | some p =>
    cases p <;> simp only [advance, hw] at h
    case popping =>
      split at h <;> simp only [Option.some.injEq] at h <;> subst h
      · obtain ⟨_, -, entries⟩ := RetryQueue.tryPop_eq_some ‹_›
        refine tasks_setWorker_subset (tasks_subset rfl (List.Subset.refl _) ?_ rfl) ?_
        · exact entries ▸ List.subset_cons_self _ _
        · exact List.cons_subset.mpr ⟨mem_tasks_queue (entries ▸ List.mem_cons_self _ _), List.nil_subset _⟩
      · exact tasks_setWorker_subset (List.Subset.refl _) (List.nil_subset _)
    case receiving =>
      split at h <;> simp only [Option.some.injEq] at h <;> subst h
      · have rx : s.shared.taskRx = _ := ‹_›
        refine tasks_setWorker_subset (tasks_subset rfl (rx ▸ List.subset_cons_self _ _) (List.Subset.refl _) rfl) ?_
        exact List.cons_subset.mpr ⟨mem_tasks_rx (rx ▸ List.mem_cons_self _ _), List.nil_subset _⟩
      · exact tasks_setWorker_subset (List.Subset.refl _) (by split <;> exact List.nil_subset _)
    case received task =>
      split at h <;> simp only [Option.some.injEq] at h <;> subst h
      · exact tasks_setWorker_subset (List.Subset.refl _)
          (List.cons_subset.mpr ⟨mem_tasks_of_worker hw (List.mem_singleton_self task), List.nil_subset _⟩)
      · exact tasks_setWorker_subset (List.Subset.refl _) (List.nil_subset _)
    case finishing =>
      split at h <;> simp only [Option.some.injEq] at h <;> subst h
      · obtain ⟨_, -, rfl⟩ := Shared.finishTask_eq_some ‹_›
        exact tasks_setWorker_subset (List.Subset.refl _) (List.nil_subset _)
      · exact tasks_setWorker_subset (List.Subset.refl _) (List.nil_subset _)
    case top | awake | polling | notifying =>
      simp only [Option.some.injEq] at h; subst h
      exact tasks_setWorker_subset (List.Subset.refl _) (by first | exact List.nil_subset _ | split <;> exact List.nil_subset _)
    all_goals cases h

theorem tasks_store {task : Task W w} {o : Outcome W w} (panicking : Bool) :
    (s.store i task o panicking).tasks ⊆ s.tasks := by
  unfold System.store
  generalize sendOrStoreOutcome o task.outcomeTx s.shared.outcomes s.chans = after
  obtain ⟨outcomes, chans⟩ := after
  exact tasks_setWorker_subset (List.Subset.refl _) (List.nil_subset _)

theorem tasks_handle (task : Task W w) (processed : Processed W) :
    ∀ t ∈ (s.handle retry i task processed).tasks, t ∈ s.tasks ∨
      (retry = true ∧ canRetry s.shared.config task.ctx = true ∧ t.ctx.attempt = task.ctx.attempt + 1) := by
  intro t mem
  cases processed with
  | success value => exact .inl (tasks_store false mem)
  | fatal error => exact .inl (tasks_store false mem)
  | panicked payload => exact .inl (tasks_store true mem)
  | retryable error =>
    simp only [System.handle] at mem
    split at mem
    · split at mem
      · split at mem
        · obtain ⟨delay, numTasks, -, -, rfl⟩ := Shared.queueRetry_eq_some ‹_›
          rcases mem_tasks_setWorker mem with old | new
          · simp only [mem_tasks, RetryQueue.push, List.mem_map, List.mem_orderedInsert] at old
            rcases old with kept | sent | ⟨e, queued | queued, rfl⟩ | held
            · exact .inl (mem_tasks_unsent kept)
            · exact .inl (mem_tasks_rx sent)
            · subst queued
              exact .inr ⟨‹_›, ‹_›, rfl⟩
            · exact .inl (mem_tasks_queue queued)
            · exact .inl (mem_tasks_held held)
          · cases new
        · exact .inl (tasks_setWorker_subset (List.Subset.refl _) (List.nil_subset _) mem)
      · exact .inl (tasks_store false mem)
    · exact .inl (tasks_store false mem)

theorem tasks_submitted (h : Submitted s s') : ∀ t ∈ s'.tasks, t ∈ s.tasks ∨ t.ctx.attempt = 0 := by
  intro t mem
  cases h with
  | task | reservedNext | excessNext =>
    simp only [mem_tasks, List.mem_append, List.mem_singleton] at mem
    rcases mem with (kept | rfl) | sent | queued | held
    · exact .inl (mem_tasks_unsent kept)
    · exact .inr rfl
    · exact .inl (mem_tasks_rx sent)
    · exact .inl (mem_tasks_queued queued)
    · exact .inl (mem_tasks_held held)
  | batch | batchOverflow | ended | full => exact .inl mem

/-- What a step does to the tasks in the hive: each task after it was there before, is a new one
at attempt 0, or is a task a worker ran, queued again at the next attempt, which `can_retry`
allowed. -/
theorem tasks_step (h : s.step retry a = some s') :
    ∀ t ∈ s'.tasks, t ∈ s.tasks ∨ t.ctx.attempt = 0 ∨
      ∃ task ∈ s.tasks, retry = true ∧ canRetry s.shared.config task.ctx = true ∧
        t.ctx.attempt = task.ctx.attempt + 1 := by
  intro t mem
  cases submits : a.submits
  · cases a with
    | send k =>
      cases hu : s.unsent[k]? with
      | none => simp [step, hu] at h
      | some task =>
        simp only [step, hu, Option.some.injEq] at h; subst h
        simp only [mem_tasks, List.mem_append, List.mem_singleton] at mem
        rcases mem with kept | (sent | rfl) | queued | held
        · exact .inl (mem_tasks_unsent (List.mem_of_mem_eraseIdx kept))
        · exact .inl (mem_tasks_rx sent)
        · exact .inl (mem_tasks_unsent (List.getElem?_mem hu))
        · exact .inl (mem_tasks_queued queued)
        · exact .inl (mem_tasks_held held)
    | hangUp | recheck _ =>
      simp only [step] at h
      split at h
      · cases h; exact .inl mem
      · cases h
    | spawn =>
      cases h
      exact .inl (by simpa only [tasks, List.flatMap_append, List.flatMap_cons, List.flatMap_nil, Phase.tasks,
        List.append_nil] using mem)
    | advance i => exact .inl (tasks_advance h mem)
    | complete i processed =>
      simp only [step] at h
      split at h
      · cases h
        rcases tasks_handle _ processed t mem with old | ⟨retried, allowed, next⟩
        · exact .inl old
        · exact .inr (.inr ⟨_, mem_tasks_of_worker ‹_› (List.mem_singleton_self _), retried, allowed, next⟩)
      · cases h
    | setSuspended suspended =>
      cases h
      refine .inl ?_
      split at mem <;> simpa only [tasks, Shared.setSuspended, flatMap_tasks_resumeAll] using mem
    | drain =>
      simp only [step] at h
      split at h
      · cases h
        rw [drainTasksIntoUnprocessed_eq] at mem
        refine .inl (tasks_subset ?_ ?_ ?_ ?_ mem)
        · rfl
        · exact List.nil_subset _
        · cases retry
          · exact List.Subset.refl _
          · exact List.nil_subset _
        · rfl
      · cases h
    | join | poison | tick | dropReceiver _ => cases h; exact .inl mem
    | prepareTask _ _ | prepareBatch _ _ _ | batchNext _ => cases submits
  · exact (tasks_submitted (step_submitted h submits) t mem).imp id .inl

/-! ## No task is past the retry limit -/

/-- No task in the hive is past the retry limit of the hive's configuration. -/
def Attempts (retry : Bool) (s : System W w cap) : Prop :=
  ∀ task ∈ s.tasks, task.ctx.attempt.toNat ≤ retryLimit retry s.shared.config

theorem canRetry_spec {config : Config w} {ctx : Context w} (h : canRetry config ctx = true) :
    ∃ maxRetries, config.maxRetries.get = some maxRetries ∧ ctx.attempt.toNat < maxRetries.toNat := by
  unfold canRetry at h
  cases set : config.maxRetries.get with
  | none => simp [set] at h
  | some maxRetries => exact ⟨maxRetries, rfl, by simpa [set, BitVec.lt_def] using h⟩

theorem Attempts.step (inv : s.Attempts retry) (h : s.step retry a = some s') : s'.Attempts retry := by
  intro t mem
  rw [config_step h]
  rcases tasks_step h t mem with old | fresh | ⟨task, held, retried, allowed, next⟩
  · exact inv t old
  · simp [fresh]
  · obtain ⟨maxRetries, set, below⟩ := canRetry_spec allowed
    have limit : retryLimit retry s.shared.config = maxRetries.toNat := by simp [retryLimit, retried, set]
    have := maxRetries.isLt
    have one : (1 : BitVec 32).toNat = 1 := rfl
    rw [next, limit, BitVec.toNat_add, one, Nat.mod_eq_of_lt (by omega)]
    omega

end System

end Procpool
