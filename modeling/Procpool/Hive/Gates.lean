import Procpool.Hive.Counting

/-! The two gates of the hive: a worker reads `suspended` and `poisoned` only before it blocks in
`recv_timeout`, `join_gate` is notified only by `finish_task`, and `resume_gate` only on resuming. -/
namespace Procpool

variable {W : Worker} {w : Nat} {cap : Capacity}

namespace Phase

/-- The worker takes no task before it reads the flags again: it is at the top of its loop,
on the resume gate, about to check `poisoned`, or gone. -/
@[simp] def idle : Phase W w → Bool
  | .top | .parked | .awake | .exited => true
  | _ => false

@[simp] def isAwake : Phase W w → Bool
  | .awake => true
  | _ => false

end Phase

/-- The actions of workers, and those that flip a flag the workers read. -/
def Action.gated : Action W w → Bool
  | .spawn | .advance _ | .complete _ _ | .setSuspended _ | .poison => true
  | _ => false

namespace System

variable {s s' : System W w cap} {retry : Bool} {a : Action W w} {i j : Nat}

theorem drainTasksIntoUnprocessed_flags (s : Shared W w cap) (chans : Channels W w) :
    (s.drainTasksIntoUnprocessed retry chans).1.poisoned = s.poisoned ∧
      (s.drainTasksIntoUnprocessed retry chans).1.suspended = s.suspended := by
  cases retry <;> exact ⟨rfl, rfl⟩

theorem step_ungated (h : s.step retry a = some s') (ungated : a.gated = false) :
    s'.workers = s.workers ∧
      ((∃ numTasks nextTaskIndex taskRx, s'.shared = { s.shared with numTasks, nextTaskIndex, taskRx }) ∨
        a = .drain ∧ s'.shared = (s.shared.drainTasksIntoUnprocessed retry s.chans).1) := by
  cases submits : a.submits
  · cases a with
    | send k =>
      cases hu : s.unsent[k]? with
      | none => simp [step, hu] at h
      | some task =>
        simp only [step, hu, Option.some.injEq] at h; subst h; exact ⟨rfl, .inl ⟨_, _, _, rfl⟩⟩
    | hangUp | recheck _ =>
      simp only [step] at h
      split at h
      · cases h; exact ⟨rfl, .inl ⟨_, _, _, rfl⟩⟩
      · cases h
    | drain =>
      simp only [step] at h
      split at h
      · cases h; exact ⟨rfl, .inr ⟨rfl, rfl⟩⟩
      · cases h
    | join | tick | dropReceiver _ => cases h; exact ⟨rfl, .inl ⟨_, _, _, rfl⟩⟩
    | prepareTask _ _ | prepareBatch _ _ _ | batchNext _ => cases submits
    | spawn | advance _ | complete _ _ | setSuspended _ | poison => cases ungated
  · cases step_submitted h submits <;> exact ⟨rfl, .inl ⟨_, _, _, rfl⟩⟩

theorem step_ungated_flags (h : s.step retry a = some s') (ungated : a.gated = false) :
    s'.shared.poisoned = s.shared.poisoned ∧ s'.shared.suspended = s.shared.suspended ∧
      s'.workers = s.workers := by
  obtain ⟨workers, ⟨_, _, _, shared⟩ | ⟨-, shared⟩⟩ := step_ungated h ungated <;> rw [shared]
  · exact ⟨rfl, rfl, workers⟩
  · exact ⟨(drainTasksIntoUnprocessed_flags _ _).1, (drainTasksIntoUnprocessed_flags _ _).2, workers⟩

theorem forall_mem_set {l : List (Phase W w)} {f : Phase W w → Prop} (all : ∀ p ∈ l, f p) {q : Phase W w}
    (new : f q) : ∀ p ∈ l.set i q, f p :=
  fun p mem => (List.mem_or_eq_of_mem_set mem).elim (all p) (· ▸ new)

theorem advance_workers (h : s.advance retry i = some s') :
    ∃ p q, s.workers[i]? = some p ∧ p.isParked = false ∧ s'.workers = s.workers.set i q := by
  cases hw : s.workers[i]? with
  | none => simp [advance, hw] at h
  | some p =>
    cases p <;> simp only [advance, hw] at h
    all_goals first
      | (simp only [Option.some.injEq] at h; subst h; exact ⟨_, _, rfl, rfl, rfl⟩)
      | (split at h <;> simp only [Option.some.injEq] at h <;> subst h <;> exact ⟨_, _, rfl, rfl, rfl⟩)
      | cases h

theorem advance_joiners (h : s.advance retry i = some s') :
    s'.joiners = s.joiners ∨ s.workers[i]? = some .notifying := by
  cases hw : s.workers[i]? with
  | none => simp [advance, hw] at h
  | some p =>
    cases p <;> simp only [advance, hw] at h
    case notifying => exact .inr rfl
    all_goals first
      | (simp only [Option.some.injEq] at h; subst h; exact .inl rfl)
      | (split at h <;> simp only [Option.some.injEq] at h <;> subst h <;> exact .inl rfl)
      | cases h

theorem handle_workers (task : Task W w) (processed : Processed W) :
    ∃ q, (s.handle retry i task processed).workers = s.workers.set i q := by
  cases processed <;> simp only [handle, store]
  case retryable =>
    split
    · split
      · split <;> exact ⟨_, rfl⟩
      · exact ⟨_, rfl⟩
    · exact ⟨_, rfl⟩
  all_goals exact ⟨_, rfl⟩

@[simp] theorem handle_joiners (task : Task W w) (processed : Processed W) :
    (s.handle retry i task processed).joiners = s.joiners := by
  cases processed <;> simp only [handle, store]
  case retryable =>
    split
    · split
      · split <;> rfl
      · rfl
    · rfl
  all_goals rfl

/-! ## The join gate -/

/-- A joiner blocked on the join gate is woken only by a worker notifying it from
`finish_task`. -/
theorem joiner_stays (h : s.step retry a = some s') (blocked : s.joiners[j]? = some .blocked) :
    s'.joiners[j]? = some .blocked ∨ ∃ i, a = .advance i ∧ s.workers[i]? = some .notifying := by
  cases a with
  | advance i =>
    rcases advance_joiners h with same | notifying
    · exact .inl (same ▸ blocked)
    · exact .inr ⟨i, rfl, notifying⟩
  | complete i processed =>
    simp only [step] at h
    split at h
    · cases h; rw [handle_joiners]; exact .inl blocked
    · cases h
  | join =>
    cases h
    exact .inl (by rw [List.getElem?_append_left (List.getElem?_eq_some_iff.mp blocked).1]; exact blocked)
  | recheck k =>
    simp only [step] at h
    split at h
    · rename_i checking
      cases h
      have other : k ≠ j := by rintro rfl; rw [blocked] at checking; cases checking
      exact .inl (by rw [List.getElem?_set_ne other]; exact blocked)
    · cases h
  | setSuspended b => cases h; exact .inl blocked
  | spawn | poison | tick | dropReceiver _ => cases h; exact .inl blocked
  | prepareTask _ _ | prepareBatch _ _ _ | batchNext _ | send _ | hangUp | drain =>
    exact .inl (by
      simp only [step] at h
      repeat' split at h
      all_goals first | cases h; done | (simp only [Option.some.injEq] at h; subst h; exact blocked))

/-! ## Stalled hives -/

/-- A hive none of whose workers will take a task: every worker reads the flags before it
can, and they stop it, because the hive is poisoned, or suspended with no worker past the
resume gate. -/
structure Stalled (s : System W w cap) : Prop where
  halted : s.shared.poisoned = true ∨ s.shared.suspended = true
  idle : ∀ p ∈ s.workers, p.idle = true
  checked : ∀ p ∈ s.workers, p.isAwake = true → s.shared.poisoned = true

theorem Stalled.of_nil (halted : s.shared.poisoned = true ∨ s.shared.suspended = true)
    (nil : s.workers = []) : s.Stalled :=
  ⟨halted, by simp [nil], by simp [nil]⟩

theorem Stalled.advance (inv : s.Stalled) (h : s.advance retry i = some s') :
    s'.Stalled ∧ s'.shared.poisoned = s.shared.poisoned := by
  obtain ⟨halted, idle, checked⟩ := inv
  cases hw : s.workers[i]? with
  | none => simp [System.advance, hw] at h
  | some p =>
    have mem := List.getElem?_mem hw
    cases p with
    | top =>
      simp only [System.advance, hw, Option.some.injEq] at h; subst h
      refine ⟨⟨halted, forall_mem_set idle (by split <;> rfl), forall_mem_set checked ?_⟩, rfl⟩
      split
      · exact fun parked => nomatch parked
      · exact fun _ => halted.resolve_right ‹_›
    | awake =>
      simp only [System.advance, hw, checked _ mem rfl, if_true, Option.some.injEq] at h; subst h
      exact ⟨⟨halted, forall_mem_set idle rfl, forall_mem_set checked (fun exited => nomatch exited)⟩, rfl⟩
    | parked | exited => simp [System.advance, hw] at h
    | polling | popping | receiving | received _ | running _ | finishing _ | notifying | crashed =>
      exact absurd (idle _ mem) (by simp)

theorem Stalled.step (inv : s.Stalled) (h : s.step retry a = some s')
    (resumed : a = .setSuspended false → s.shared.poisoned = true) :
    s'.Stalled ∧ (s.shared.poisoned = true → s'.shared.poisoned = true) := by
  obtain ⟨halted, idle, checked⟩ := inv
  cases gated : a.gated
  · obtain ⟨poisoned, suspended, workers⟩ := step_ungated_flags h gated
    refine ⟨⟨by rw [poisoned, suspended]; exact halted, by rw [workers]; exact idle,
      by rw [workers, poisoned]; exact checked⟩, fun p => by rw [poisoned]; exact p⟩
  · cases a with
    | spawn =>
      cases h
      refine ⟨⟨halted, fun p mem => ?_, fun p mem => ?_⟩, id⟩ <;>
        rcases List.mem_append.mp mem with mem | mem
      · exact idle p mem
      · simp only [List.mem_singleton] at mem; subst mem; rfl
      · exact checked p mem
      · simp only [List.mem_singleton] at mem; subst mem; exact fun top => nomatch top
    | advance i =>
      obtain ⟨inv', same⟩ := Stalled.advance ⟨halted, idle, checked⟩ h
      exact ⟨inv', fun p => same ▸ p⟩
    | complete i processed =>
      simp only [System.step] at h
      split at h
      · exact absurd (idle _ (List.getElem?_mem ‹_›)) (by simp)
      · cases h
    | setSuspended b =>
      cases h
      cases b
      · have poisoned := resumed rfl
        refine ⟨⟨.inl poisoned, fun p mem => ?_, fun _ _ _ => poisoned⟩, id⟩
        split at mem
        · obtain ⟨q, held, rfl⟩ := List.mem_map.mp mem
          cases q <;> first | rfl | exact absurd (idle _ held) (by simp)
        · exact idle p mem
      · exact ⟨⟨.inr rfl, by simpa using idle, by simpa using checked⟩, id⟩
    | poison => cases h; exact ⟨⟨.inl rfl, idle, fun _ _ _ => rfl⟩, fun _ => rfl⟩
    | prepareTask _ _ | prepareBatch _ _ _ | batchNext _ | send _ | hangUp | join | recheck _ | drain
      | tick | dropReceiver _ => cases gated

/-- Along every run of a stalled hive that does not resume a hive left unpoisoned, the hive stays
stalled, stays poisoned if it was, and every blocked joiner stays blocked. -/
theorem Stalled.run {actions : List (Action W w)} (ran : run retry s actions = some s') (inv : s.Stalled)
    (resumed : s.shared.poisoned = true ∨ ∀ a ∈ actions, a ≠ .setSuspended false) :
    s'.Stalled ∧ (s.shared.poisoned = true → s'.shared.poisoned = true) ∧
      ∀ j : Nat, s.joiners[j]? = some .blocked → s'.joiners[j]? = some .blocked := by
  refine run_invariant (P := fun t => t.Stalled ∧ (s.shared.poisoned = true → t.shared.poisoned = true) ∧
      ∀ j : Nat, s.joiners[j]? = some .blocked → t.joiners[j]? = some .blocked)
    (fun allowed ⟨stalled, kept, blocked⟩ stepped => ?_)
    (resumed.elim (fun poisoned _ _ => .inl poisoned) fun all a mem => .inr (all a mem) :
      ∀ a ∈ actions, s.shared.poisoned = true ∨ a ≠ .setSuspended false)
    ⟨inv, id, fun _ => id⟩ ran
  obtain ⟨stalled', keep⟩ := stalled.step stepped fun resume => allowed.elim kept (absurd resume)
  refine ⟨stalled', keep ∘ kept, fun j b => ?_⟩
  rcases joiner_stays stepped (blocked j b) with same | ⟨i, -, notifying⟩
  · exact same
  · exact absurd (stalled.idle _ (List.getElem?_mem notifying)) (by simp)

theorem Stalled.hasWork (inv : s.Stalled) (counted : s.Counted) : s.shared.hasWork = false := by
  have idle : s.held = 0 :=
    List.countP_eq_zero.mpr fun p mem => by have := inv.idle p mem; cases p <;> simp_all
  have active := counted.active
  rcases inv.halted with poisoned | suspended <;> simp [Shared.hasWork, *]

/-! ## The resume gate -/

theorem parked_stays (h : s.step retry a = some s') (parked : s.workers[i]? = some .parked) :
    s'.workers[i]? = some .parked ∨ a = .setSuspended false := by
  cases gated : a.gated
  · exact .inl ((step_ungated h gated).1 ▸ parked)
  · cases a with
    | spawn =>
      cases h
      exact .inl (by rw [List.getElem?_append_left (List.getElem?_eq_some_iff.mp parked).1]; exact parked)
    | advance k =>
      obtain ⟨p, q, moved, moving, workers⟩ := advance_workers h
      have other : k ≠ i := by rintro rfl; rw [parked] at moved; cases moved; cases moving
      exact .inl (by rw [workers, List.getElem?_set_ne other]; exact parked)
    | complete k processed =>
      simp only [System.step] at h
      split at h
      · rename_i running
        cases h
        have other : k ≠ i := by rintro rfl; rw [parked] at running; cases running
        obtain ⟨q, workers⟩ := handle_workers (s := s) (i := k) _ processed
        exact .inl (by rw [workers, List.getElem?_set_ne other]; exact parked)
      · cases h
    | setSuspended b =>
      cases b
      · exact .inr rfl
      · cases h; exact .inl (by simpa using parked)
    | poison => cases h; exact .inl parked
    | prepareTask _ _ | prepareBatch _ _ _ | batchNext _ | send _ | hangUp | join | recheck _ | drain
      | tick | dropReceiver _ => cases gated

theorem parked_run {actions : List (Action W w)} (ran : run retry s actions = some s')
    (parked : s.workers[i]? = some .parked) (kept : ∀ a ∈ actions, a ≠ .setSuspended false) :
    s'.workers[i]? = some .parked :=
  run_invariant (P := fun t => t.workers[i]? = some .parked)
    (fun keep parked stepped => (parked_stays stepped parked).resolve_right keep) kept parked ran

/-! ## Schedules the gates miss -/

/-- A worker that passed both checks before `set_suspended(true)` or `poison` ran takes the
next task sent, and `next_task` returns it, in either build: no task had even been queued when
the flag was set, and after `poison` the task runs instead of ending as `Unprocessed`. -/
theorem next_task_returns_task_sent_after_flag (retry : Bool) :
    let config : Config 64 := ⟨.unsync none, .unsync none, .unsync none⟩
    let task : Task ⟨Unit, Unit, Unit⟩ 64 := ⟨(), .new 0, none⟩
    (∃ flagged done : System ⟨Unit, Unit, Unit⟩ 64 ⟨1, 1⟩,
      run retry (.init config) [.spawn, .advance 0, .advance 0, .advance 0, .setSuspended true] =
          some flagged ∧ flagged.shared.suspended = true ∧ flagged.shared.numTasks.left = 0 ∧
        run retry flagged [.prepareTask () none, .send 0, .advance 0, .advance 0] = some done ∧
        done.shared.suspended = true ∧ done.workers = [.running task]) ∧
    (∃ flagged done : System ⟨Unit, Unit, Unit⟩ 64 ⟨1, 1⟩,
      run retry (.init config) [.spawn, .advance 0, .advance 0, .advance 0, .poison] =
          some flagged ∧ flagged.shared.poisoned = true ∧ flagged.shared.numTasks.left = 0 ∧
        run retry flagged [.prepareTask () none, .send 0, .advance 0, .drain, .advance 0] = some done ∧
        done.shared.poisoned = true ∧ done.workers = [.running task] ∧ done.shared.outcomes.entries = []) := by
  cases retry <;> exact ⟨⟨_, _, rfl, rfl, rfl, rfl, rfl, rfl⟩, ⟨_, _, rfl, rfl, rfl, rfl, rfl, rfl, rfl⟩⟩

/-- Neither `set_suspended(true)` nor `poison` notifies the join gate, though each turns
`has_work` false under a blocked joiner; and `poison` does not notify the resume gate, so a
worker a suspend parked there is not released. In either build each stranded thread stays
where it is along every later run, but for one that resumes a merely suspended hive. -/
theorem gates_strand_waiters (retry : Bool) :
    let config : Config 64 := ⟨.unsync none, .unsync none, .unsync none⟩
    (∃ s : System ⟨Unit, Unit, Unit⟩ 64 ⟨1, 1⟩,
      run retry (.init config) [.prepareTask () none, .send 0, .join, .recheck 0, .setSuspended true] =
          some s ∧ s.shared.hasWork = false ∧ s.joiners = [.blocked] ∧
        ∀ (actions : List (Action ⟨Unit, Unit, Unit⟩ 64)) (s' : System ⟨Unit, Unit, Unit⟩ 64 ⟨1, 1⟩),
          (∀ a ∈ actions, a ≠ .setSuspended false) → run retry s actions = some s' →
            s'.joiners[0]? = some .blocked ∧ s'.shared.hasWork = false) ∧
    (∃ s : System ⟨Unit, Unit, Unit⟩ 64 ⟨1, 1⟩,
      run retry (.init config) [.prepareTask () none, .send 0, .join, .recheck 0, .poison] = some s ∧
        s.shared.hasWork = false ∧ s.joiners = [.blocked] ∧
        ∀ (actions : List (Action ⟨Unit, Unit, Unit⟩ 64)) (s' : System ⟨Unit, Unit, Unit⟩ 64 ⟨1, 1⟩),
          run retry s actions = some s' → s'.joiners[0]? = some .blocked ∧ s'.shared.hasWork = false) ∧
    (∃ s : System ⟨Unit, Unit, Unit⟩ 64 ⟨1, 1⟩,
      run retry (.init config) [.spawn, .setSuspended true, .advance 0, .poison] = some s ∧
        s.shared.poisoned = true ∧ s.workers = [.parked] ∧
        ∀ (actions : List (Action ⟨Unit, Unit, Unit⟩ 64)) (s' : System ⟨Unit, Unit, Unit⟩ 64 ⟨1, 1⟩),
          (∀ a ∈ actions, a ≠ .setSuspended false) → run retry s actions = some s' →
            s'.workers[0]? = some .parked ∧ s'.shared.poisoned = true) := by
  refine ⟨⟨_, rfl, rfl, rfl, fun _ _ kept ran => ?_⟩, ⟨_, rfl, rfl, rfl, fun _ _ ran => ?_⟩,
    ⟨_, rfl, rfl, rfl, fun _ _ kept ran => ?_⟩⟩
  · obtain ⟨stalled, -, blocked⟩ := Stalled.run ran (.of_nil (.inr rfl) rfl) (.inr kept)
    exact ⟨blocked 0 rfl, stalled.hasWork (Counted.run ran ⟨rfl, by decide⟩)⟩
  · obtain ⟨stalled, -, blocked⟩ := Stalled.run ran (.of_nil (.inl rfl) rfl) (.inl rfl)
    exact ⟨blocked 0 rfl, stalled.hasWork (Counted.run ran ⟨rfl, by decide⟩)⟩
  · exact ⟨parked_run ran rfl kept, (Stalled.run ran ⟨.inl rfl, by decide, by decide⟩ (.inl rfl)).2.1 rfl⟩

end System

end Procpool
