import Procpool.Hive.Husk
import Procpool.Hive.Indexing

/-! Tasks are neither duplicated nor invented: every step moves a task, under its own index, between
the places it can be, and drops one only as its worker thread ends. -/
namespace Procpool

variable {W : Worker} {w : Nat} {cap : Capacity}

namespace Phase

/-- The task in the worker's hands: received and not transferred yet, or running. -/
@[simp] def tasks : Phase W w → List (Task W w)
  | .received task | .running task => [task]
  | _ => []

/-- The worker thread has ended: `next_task` returned an error, or a panic ended it. -/
@[simp] def ended : Phase W w → Bool
  | .exited | .crashed => true
  | _ => false

end Phase

@[simp] theorem Task.index_unprocessed (task : Task W w) : task.unprocessed.index = task.index := rfl

theorem nodup_of_subperm {α : Type} {l₁ l₂ : List α} (sub : l₁.Subperm l₂) (distinct : l₂.Nodup) :
    l₁.Nodup :=
  let ⟨_, perm, sub⟩ := sub
  perm.nodup_iff.mp (distinct.sublist sub)

/-- The indices of the outcomes stored in the map and of those delivered to a sender. -/
def placed (outcomes : Outcomes W w) (chans : Channels W w) : List (BitVec w) :=
  outcomes.keys ++ chans.delivered.map (·.2.index)

theorem keys_insert_perm (outcomes : Outcomes W w) (k : BitVec w) (o : Outcome W w) :
    List.Perm ((outcomes.insert k o).keys ++ if k ∈ outcomes then [k] else []) (k :: outcomes.keys) := by
  rw [AList.keys_insert]
  split
  · exact (List.perm_append_singleton _ _).trans ((List.perm_cons_erase ‹_›).symm.cons k)
  · rw [List.erase_of_not_mem ‹_›, List.append_nil]

theorem placed_sendOrStoreOutcome (o : Outcome W w) (tx : Option OutcomeSender)
    (outcomes : Outcomes W w) (chans : Channels W w) :
    ∃ removed : List (BitVec w),
      List.Perm (placed (sendOrStoreOutcome o tx outcomes chans).1 (sendOrStoreOutcome o tx outcomes chans).2 ++
          removed) (placed outcomes chans ++ [o.index]) ∧
        (o.index ∉ outcomes → removed = []) := by
  have stored : List.Perm (placed (addOutcome o outcomes) chans ++ if o.index ∈ outcomes then [o.index] else [])
      (placed outcomes chans ++ [o.index]) := by
    have keys := keys_insert_perm outcomes o.index o
    refine List.perm_iff_count.mpr fun a => ?_
    have := keys.count_eq a
    by_cases mem : o.index ∈ outcomes <;>
      simp only [placed, addOutcome, mem, if_true, if_false, List.count_append, List.count_cons,
        List.count_singleton', List.count_nil] at this ⊢ <;> omega
  cases tx with
  | none => exact ⟨_, stored, fun fresh => if_neg fresh⟩
  | some tx =>
    by_cases gone : tx.receiver ∈ chans.dropped
    · simpa [sendOrStoreOutcome, Channels.trySendMsg, gone] using ⟨_, stored, fun fresh => if_neg fresh⟩
    · refine ⟨[], ?_, fun _ => rfl⟩
      simp [sendOrStoreOutcome, Channels.trySendMsg, gone, placed]

theorem keys_sendOrStoreOutcome_subset (o : Outcome W w) (tx : Option OutcomeSender)
    (outcomes : Outcomes W w) (chans : Channels W w) :
    (sendOrStoreOutcome o tx outcomes chans).1.keys ⊆ o.index :: outcomes.keys := by
  have stored : (addOutcome o outcomes).keys ⊆ o.index :: outcomes.keys := by
    rw [addOutcome, AList.keys_insert]
    exact List.cons_subset_cons _ (List.erase_subset _ _)
  cases tx with
  | none => exact stored
  | some tx =>
    by_cases gone : tx.receiver ∈ chans.dropped
    · simpa [sendOrStoreOutcome, Channels.trySendMsg, gone] using stored
    · simp [sendOrStoreOutcome, Channels.trySendMsg, gone]

theorem fresh_sendOrStoreOutcome {task : Task W w} {tasks : List (Task W w)} {outcomes : Outcomes W w}
    (chans : Channels W w) (distinct : ((task :: tasks).map Task.index ++ outcomes.keys).Nodup) :
    task.index ∉ outcomes ∧
      (tasks.map Task.index ++ (sendOrStoreOutcome task.unprocessed task.outcomeTx outcomes chans).1.keys).Nodup := by
  simp only [List.map_cons, List.cons_append, List.nodup_cons, List.mem_append, not_or, List.nodup_append] at distinct
  obtain ⟨⟨notRest, notKeys⟩, distinctRest, -, apart⟩ := distinct
  refine ⟨fun mem => notKeys (AList.mem_keys.mpr mem),
    List.nodup_append.mpr ⟨distinctRest, AList.keys_nodup _, fun a mem stored => ?_⟩⟩
  rcases List.mem_cons.mp (keys_sendOrStoreOutcome_subset _ _ _ _ stored) with same | old
  · exact notRest (by rwa [same, Task.index_unprocessed] at mem)
  · exact apart mem old

theorem sendOrStore_cons (task : Task W w) (tasks : List (Task W w)) (outcomes : Outcomes W w)
    (chans : Channels W w) :
    sendOrStore (task :: tasks) outcomes chans =
      sendOrStore tasks (sendOrStoreOutcome task.unprocessed task.outcomeTx outcomes chans).1
        (sendOrStoreOutcome task.unprocessed task.outcomeTx outcomes chans).2 := by
  cases sender : task.outcomeTx with
  | none => simp [sendOrStore, sendOrStoreOutcome, Task.intoUnprocessedTrySend, sender, addOutcome, Task.unprocessed]
  | some tx =>
    by_cases gone : tx.receiver ∈ chans.dropped <;>
      simp [sendOrStore, sendOrStoreOutcome, Task.intoUnprocessedTrySend, sender, addOutcome, Task.unprocessed,
        Channels.trySendMsg, gone]

theorem placed_sendOrStore (tasks : List (Task W w)) (outcomes : Outcomes W w) (chans : Channels W w) :
    ∃ removed : List (BitVec w),
      List.Perm (placed (sendOrStore tasks outcomes chans).1 (sendOrStore tasks outcomes chans).2 ++ removed)
          (placed outcomes chans ++ tasks.map Task.index) ∧
        ((tasks.map Task.index ++ outcomes.keys).Nodup → removed = []) := by
  induction tasks generalizing outcomes chans with
  | nil => exact ⟨[], by simp [sendOrStore], fun _ => rfl⟩
  | cons task tasks ih =>
    obtain ⟨first, firstPerm, firstFresh⟩ :=
      placed_sendOrStoreOutcome task.unprocessed task.outcomeTx outcomes chans
    have fresh := fun distinct : ((task :: tasks).map Task.index ++ outcomes.keys).Nodup =>
      fresh_sendOrStoreOutcome chans distinct
    rw [sendOrStore_cons]
    generalize sendOrStoreOutcome task.unprocessed task.outcomeTx outcomes chans = after at firstPerm firstFresh fresh ⊢
    obtain ⟨rest, restPerm, restFresh⟩ := ih after.1 after.2
    refine ⟨rest ++ first, List.perm_iff_count.mpr fun a => ?_, fun distinct => ?_⟩
    · have := restPerm.count_eq a
      have := firstPerm.count_eq a
      simp only [List.count_append, List.map_cons, List.count_cons, List.count_singleton', List.count_nil,
        Task.index_unprocessed] at *
      omega
    · obtain ⟨unused, distinct⟩ := fresh distinct
      rw [firstFresh unused, List.append_nil]
      exact restFresh distinct

namespace System

/-- The tasks in the hive: prepared and not sent, in the task channel, in the retry queue, and
in the workers' hands. -/
def tasks (s : System W w cap) : List (Task W w) :=
  s.unsent ++ s.shared.taskRx ++ s.shared.retryQueue.entries.map (·.2) ++ s.workers.flatMap Phase.tasks

/-- The index of every task in the hive and of every outcome stored or delivered. -/
def located (s : System W w cap) : List (BitVec w) :=
  s.tasks.map Task.index ++ placed s.shared.outcomes s.chans

def ended (s : System W w cap) : Nat := s.workers.countP Phase.ended

/-- No task is duplicated or invented: the located indices, with those of the dropped tasks,
are among the issued ones, as often at most. Before the index counter wraps, every issued task
is located or dropped; each drop ended a worker thread. -/
structure Conserved (s : System W w cap) : Prop where
  subperm : (s.located ++ s.lost).Subperm (s.issued.map (·.1))
  exact : s.reserved < 2 ^ w → s.issued.length ≤ s.located.length + s.lost.length
  dropped : s.lost.length ≤ s.ended

variable {s s' t : System W w cap} {retry : Bool} {i : Nat} {p q : Phase W w}

theorem Indexed.nodup_issued (inv : s.Indexed) (small : s.reserved < 2 ^ w) : (s.issued.map (·.1)).Nodup :=
  (inv.distinct.of_append_left.of_map _).map_on fun _ xm _ ym same =>
    Prod.ext same (by rw [← inv.toNat_index xm small, ← inv.toNat_index ym small, same])

theorem Conserved.located_subperm (inv : s.Conserved) : s.located.Subperm (s.issued.map (·.1)) :=
  (List.sublist_append_left _ _).subperm.trans inv.subperm

theorem Conserved.nodup (inv : s.Conserved) (indexed : s.Indexed) (small : s.reserved < 2 ^ w) :
    s.located.Nodup :=
  nodup_of_subperm inv.located_subperm (indexed.nodup_issued small)

/-- A step that issues `fresh`, drops `drops` as as many workers end, and puts the located
indices, with `drops` and `removed` added, in the place of the old ones and the fresh ones keeps
the invariant, if it removes an index only where the old ones repeat. -/
theorem Conserved.of_perm (inv : s.Conserved) (indexed : s.Indexed) (grows : s.reserved ≤ s'.reserved)
    (fresh : List (BitVec w × Nat)) (issued : s'.issued = s.issued ++ fresh)
    (drops : List (BitVec w)) (lost : s'.lost = s.lost ++ drops) (ended : drops.length + s.ended ≤ s'.ended)
    (removed : List (BitVec w)) (perm : List.Perm (s'.located ++ drops ++ removed) (s.located ++ fresh.map (·.1)))
    (replaces : s'.reserved < 2 ^ w → s.located.Nodup → removed = []) : s'.Conserved where
  subperm := List.subperm_ext_iff.mpr fun a _ => by
    have := inv.subperm.count_le a
    have := perm.count_eq a
    simp only [issued, lost, List.map_append, List.count_append] at *
    omega
  exact small := by
    have := inv.exact (by omega)
    have := perm.length_eq
    simp only [replaces small (inv.nodup indexed (by omega)), List.length_append, List.length_map, List.length_nil,
      issued, lost] at *
    omega
  dropped := by
    have := inv.dropped
    simp only [lost, List.length_append]
    omega

theorem Conserved.of_moved (inv : s.Conserved) (indexed : s.Indexed) (grows : s.reserved ≤ s'.reserved)
    (issued : s'.issued = s.issued) (lost : s'.lost = s.lost) (perm : List.Perm s'.located s.located)
    (ended : s.ended ≤ s'.ended) : s'.Conserved :=
  inv.of_perm indexed grows [] (by rw [issued, List.append_nil]) [] (by rw [lost, List.append_nil])
    (by simpa using ended) [] (by simpa using perm) fun _ _ => rfl

@[simp] theorem setWorker_chans : (s.setWorker i p).chans = s.chans := rfl
@[simp] theorem setWorker_issued : (s.setWorker i p).issued = s.issued := rfl
@[simp] theorem setWorker_reserved : (s.setWorker i p).reserved = s.reserved := rfl
@[simp] theorem setWorker_lost : (s.setWorker i p).lost = s.lost := rfl

theorem located_setWorker (hw : s.workers[i]? = some p) (q : Phase W w) :
    List.Perm ((s.setWorker i q).located ++ p.tasks.map Task.index) (s.located ++ q.tasks.map Task.index) := by
  have moved := List.flatMap_set_perm (fun p : Phase W w => p.tasks.map Task.index) hw q
  refine List.perm_iff_count.mpr fun a => ?_
  have := moved.count_eq a
  simp only [located, tasks, setWorker_workers, setWorker_shared, setWorker_unsent, setWorker_chans, List.map_append,
    List.map_flatMap, List.count_append] at this ⊢
  omega

theorem flatMap_tasks_resumeAll (workers : List (Phase W w)) :
    (resumeAll workers).flatMap Phase.tasks = workers.flatMap Phase.tasks := by
  simp only [resumeAll, List.flatMap_map]
  exact List.flatMap_congr fun p _ => by cases p <;> rfl

theorem ended_setWorker (hw : s.workers[i]? = some p) (q : Phase W w) :
    (s.setWorker i q).ended + (if p.ended then 1 else 0) = s.ended + (if q.ended then 1 else 0) :=
  List.countP_set_add _ hw

theorem Conserved.setWorker (inv : s.Conserved) (indexed : s.Indexed) (hw : s.workers[i]? = some p)
    (workers : t.workers = s.workers) (issued : t.issued = s.issued) (reserved : t.reserved = s.reserved)
    (drops : List (BitVec w)) (lost : t.lost = s.lost ++ drops) (removed : List (BitVec w))
    (moved : List.Perm (t.located ++ q.tasks.map Task.index ++ drops ++ removed) (s.located ++ p.tasks.map Task.index))
    (ends : drops.length + (if p.ended then 1 else 0) ≤ if q.ended then 1 else 0)
    (replaces : s.located.Nodup → removed = []) :
    (t.setWorker i q).Conserved := by
  have perm := located_setWorker (s := t) (workers ▸ hw) q
  have ended := ended_setWorker (s := t) (workers ▸ hw) q
  have same : t.ended = s.ended := by simp only [System.ended, workers]
  refine inv.of_perm indexed (by simp [reserved]) [] (by simp [issued]) drops (by simp [lost]) (by omega) removed
    (List.perm_iff_count.mpr fun a => ?_) fun _ nodup => replaces nodup
  have := perm.count_eq a
  have := moved.count_eq a
  simp only [List.count_append, List.map_nil, List.count_nil] at *
  omega

theorem Conserved.setWorker_idle (inv : s.Conserved) (indexed : s.Indexed) (hw : s.workers[i]? = some p)
    (workers : t.workers = s.workers) (issued : t.issued = s.issued) (reserved : t.reserved = s.reserved)
    (lost : t.lost = s.lost) (same : t.located = s.located) (tasks : q.tasks = p.tasks) (alive : p.ended = false) :
    (t.setWorker i q).Conserved :=
  inv.setWorker indexed hw workers issued reserved [] (by rw [lost, List.append_nil]) []
    (by rw [same, tasks, List.append_nil, List.append_nil])
    (by simp only [List.length_nil, alive, Bool.false_eq_true, if_false, Nat.zero_add, Nat.zero_le]) fun _ => rfl

theorem Conserved.advance (inv : s.Conserved) (indexed : s.Indexed) (h : s.advance retry i = some s') :
    s'.Conserved := by
  cases hw : s.workers[i]? with
  | none => simp [System.advance, hw] at h
  | some p =>
    cases p with
    | top | awake | polling =>
      simp only [System.advance, hw, Option.some.injEq] at h; subst h
      exact inv.setWorker_idle indexed hw rfl rfl rfl rfl rfl (by split <;> rfl) rfl
    | popping =>
      simp only [System.advance, hw] at h
      split at h <;> simp only [Option.some.injEq] at h <;> subst h
      · obtain ⟨_, -, entries⟩ := RetryQueue.tryPop_eq_some ‹_›
        refine inv.setWorker indexed hw rfl rfl rfl [] (List.append_nil _).symm [] (List.perm_iff_count.mpr fun a => ?_)
          (by simp) fun _ => rfl
        simp only [located, tasks, entries, Phase.tasks, List.map_append, List.map_cons, List.map_nil,
          List.count_append, List.count_cons, List.count_nil]
        omega
      · exact inv.setWorker_idle indexed hw rfl rfl rfl rfl rfl rfl rfl
    | receiving =>
      simp only [System.advance, hw] at h
      split at h <;> simp only [Option.some.injEq] at h <;> subst h
      · refine inv.setWorker indexed hw rfl rfl rfl [] (List.append_nil _).symm [] (List.perm_iff_count.mpr fun a => ?_)
          (by simp) fun _ => rfl
        simp only [located, tasks, ‹s.shared.taskRx = _›, Phase.tasks, List.map_append, List.map_cons,
          List.map_nil, List.count_append, List.count_cons, List.count_nil]
        omega
      · exact inv.setWorker_idle indexed hw rfl rfl rfl rfl rfl (by split <;> rfl) rfl
    | received task =>
      simp only [System.advance, hw] at h
      split at h <;> simp only [Option.some.injEq] at h <;> subst h
      · exact inv.setWorker_idle indexed hw rfl rfl rfl rfl rfl rfl rfl
      · exact inv.setWorker indexed hw rfl rfl rfl [task.index] rfl [] (by simp; exact .refl _) (by simp)
          fun _ => rfl
    | finishing panicking =>
      simp only [System.advance, hw] at h
      split at h <;> simp only [Option.some.injEq] at h <;> subst h
      · obtain ⟨_, -, rfl⟩ := Shared.finishTask_eq_some ‹_›
        exact inv.setWorker_idle indexed hw rfl rfl rfl rfl rfl rfl rfl
      · exact inv.setWorker_idle indexed hw rfl rfl rfl rfl rfl rfl rfl
    | notifying =>
      simp only [System.advance, hw, Option.some.injEq] at h; subst h
      exact inv.setWorker_idle indexed hw rfl rfl rfl rfl rfl rfl rfl
    | parked | running _ | exited | crashed => simp [System.advance, hw] at h

theorem mem_tasks_of_worker (hw : s.workers[i]? = some p) {task : Task W w} (held : task ∈ p.tasks) :
    task ∈ s.tasks :=
  List.mem_append_right _ (List.mem_flatMap.mpr ⟨p, List.getElem?_mem hw, held⟩)

theorem index_mem_tasks (hw : s.workers[i]? = some p) {task : Task W w} (held : task ∈ p.tasks) :
    task.index ∈ s.tasks.map Task.index :=
  List.mem_map_of_mem _ (mem_tasks_of_worker hw held)

theorem Conserved.store {task : Task W w} {o : Outcome W w} (inv : s.Conserved) (indexed : s.Indexed)
    (hw : s.workers[i]? = some (.running task)) (index : o.index = task.index) (panicking : Bool) :
    (s.store i task o panicking).Conserved := by
  obtain ⟨removed, perm, fresh⟩ := placed_sendOrStoreOutcome o task.outcomeTx s.shared.outcomes s.chans
  unfold System.store
  generalize sendOrStoreOutcome o task.outcomeTx s.shared.outcomes s.chans = after at perm fresh ⊢
  obtain ⟨outcomes, chans⟩ := after
  refine inv.setWorker indexed hw rfl rfl rfl [] (List.append_nil _).symm removed
    (List.perm_iff_count.mpr fun a => ?_) (by simp) fun nodup => ?_
  · have := perm.count_eq a
    simp only [located, tasks, index, List.count_append, List.map_append, Phase.tasks, List.map_cons,
      List.map_nil, List.count_cons, List.count_nil] at this ⊢
    omega
  · have apart := (List.nodup_append.mp nodup).2.2 (index_mem_tasks hw (List.mem_singleton_self task))
    exact fresh fun mem => apart (List.mem_append_left _ (index ▸ AList.mem_keys.mp mem))

theorem Conserved.handle {task : Task W w} (inv : s.Conserved) (indexed : s.Indexed)
    (hw : s.workers[i]? = some (.running task)) (processed : Processed W) :
    (s.handle retry i task processed).Conserved := by
  cases processed with
  | success value => exact inv.store indexed hw (o := .success task.index value) rfl false
  | fatal error => exact inv.store indexed hw (o := .failure task.index error) rfl false
  | panicked payload => exact inv.store indexed hw (o := .panic task.index payload) rfl true
  | retryable error =>
    simp only [System.handle]
    split
    · split
      · split
        · obtain ⟨delay, numTasks, -, -, rfl⟩ := Shared.queueRetry_eq_some ‹_›
          refine inv.setWorker indexed hw rfl rfl rfl [] (List.append_nil _).symm []
            (List.perm_iff_count.mpr fun a => ?_) (by simp) fun _ => rfl
          have := ((List.perm_orderedInsert DueBy (s.now + delay.toNat,
            (⟨task.input, { task.ctx with attempt := task.ctx.attempt + 1 }, task.outcomeTx⟩ : Task W w))
            s.shared.retryQueue.entries).map (·.2.index)).count_eq a
          simp only [located, tasks, RetryQueue.push, Task.index, List.count_append, List.map_append,
            List.map_map, Function.comp_def, List.map_cons, List.map_nil, List.count_cons, List.count_nil,
            Phase.tasks, List.append_nil] at this ⊢
          omega
        · exact inv.setWorker indexed hw rfl rfl rfl [task.index] rfl [] (by simp; exact .refl _) (by simp)
            fun _ => rfl
      · exact inv.store indexed hw (o := .maxRetriesAttempted task.index task.input error) rfl false
    · exact inv.store indexed hw (o := .failure task.index error) rfl false

theorem count_drained (s : System W w cap) (retry : Bool) (a : BitVec w) :
    ((s.shared.drained retry).map Task.index ++ s.shared.outcomes.keys).count a +
      (s.unsent.map Task.index ++ (if retry then [] else s.shared.retryQueue.entries.map (·.2.index)) ++
        (s.workers.flatMap Phase.tasks).map Task.index ++ s.chans.delivered.map (·.2.index)).count a =
      s.located.count a := by
  cases retry <;> simp only [Shared.drained, located, tasks, placed, List.count_append, List.map_append,
    List.map_map, Function.comp_def, if_true, if_false, Bool.false_eq_true, List.map_nil, List.append_nil,
    List.count_nil] <;> omega

theorem drained_subperm : ((s.shared.drained retry).map Task.index ++ s.shared.outcomes.keys).Subperm s.located :=
  List.subperm_ext_iff.mpr fun a _ => by have := count_drained s retry a; omega

theorem Conserved.drain (inv : s.Conserved) (indexed : s.Indexed) :
    ({ s with
      shared := (s.shared.drainTasksIntoUnprocessed retry s.chans).1
      chans := (s.shared.drainTasksIntoUnprocessed retry s.chans).2 } : System W w cap).Conserved := by
  obtain ⟨removed, perm, fresh⟩ := placed_sendOrStore (s.shared.drained retry) s.shared.outcomes s.chans
  rw [drainTasksIntoUnprocessed_eq]
  refine inv.of_perm indexed le_rfl [] (by simp) [] (by simp) (by simp [System.ended]) removed
    (List.perm_iff_count.mpr fun a => ?_) fun _ nodup => fresh (nodup_of_subperm drained_subperm nodup)
  have := perm.count_eq a
  have := count_drained s retry a
  cases retry <;> simp only [located, tasks, placed, List.count_append, List.map_append, if_true, if_false,
    Bool.false_eq_true, RetryQueue.empty, List.map_nil, List.count_nil, List.append_nil, List.nil_append,
    List.map_map, Function.comp_def] at * <;> omega

theorem Conserved.submitted (inv : s.Conserved) (indexed : s.Indexed) (h : Submitted s s') : s'.Conserved := by
  cases h with
  | task input tx fits =>
    exact inv.of_perm indexed (by simp) [(s.shared.nextTaskIndex, s.reserved)] rfl [] (by simp) (by simp [System.ended])
      [] (List.perm_iff_count.mpr fun a => by
        simp only [located, tasks, Shared.reserve, Task.index, Context.new, List.map_append, List.map_cons,
          List.map_nil, List.count_append, List.count_cons, List.count_nil]
        omega) fun _ _ => rfl
  | batch minSize inputs tx fits inRange => exact inv.of_moved indexed (by simp) rfl rfl (.refl _) le_rfl
  | batchOverflow minSize fits _ => exact inv.of_moved indexed (by simp) rfl rfl (.refl _) le_rfl
  | reservedNext k b position input inputs hb _ lt =>
    exact inv.of_perm indexed le_rfl [(b.start, position)] rfl [] (by simp) (by simp [System.ended])
      [] (List.perm_iff_count.mpr fun a => by
        simp only [located, tasks, Task.index, Context.new, List.map_append, List.map_cons, List.map_nil,
          List.count_append, List.count_cons, List.count_nil]
        omega) fun _ _ => rfl
  | excessNext k b position input inputs hb _ _ fits =>
    exact inv.of_perm indexed (by simp) [(s.shared.nextTaskIndex, s.reserved)] rfl [] (by simp) (by simp [System.ended])
      [] (List.perm_iff_count.mpr fun a => by
        simp only [located, tasks, Shared.reserve, Task.index, Context.new, List.map_append, List.map_cons,
          List.map_nil, List.count_append, List.count_cons, List.count_nil]
        omega) fun _ _ => rfl
  | ended k entry hb => exact inv.of_moved indexed le_rfl rfl rfl (.refl _) le_rfl
  | full => exact inv

theorem Conserved.step {a : Action W w} (inv : s.Conserved) (indexed : s.Indexed) (h : s.step retry a = some s') :
    s'.Conserved := by
  cases submits : a.submits
  · cases a with
    | send k =>
      cases hu : s.unsent[k]? with
      | none => simp [System.step, hu] at h
      | some task =>
        simp only [System.step, hu, Option.some.injEq] at h; subst h
        have moved := List.flatMap_eraseIdx_perm (fun t : Task W w => [t.index]) hu
        refine inv.of_moved indexed le_rfl rfl rfl (List.perm_iff_count.mpr fun a => ?_) le_rfl
        have := moved.count_eq a
        simp only [← List.map_eq_flatMap, located, tasks, List.map_append, List.count_append, List.map_cons,
          List.map_nil] at this ⊢
        omega
    | hangUp | recheck _ =>
      simp only [System.step] at h
      split at h
      · cases h; exact inv.of_moved indexed le_rfl rfl rfl (.refl _) le_rfl
      · cases h
    | spawn =>
      cases h
      exact inv.of_moved indexed le_rfl rfl rfl (by simp [located, tasks]) (by simp [System.ended])
    | advance i => exact inv.advance indexed h
    | complete i processed =>
      simp only [System.step] at h
      split at h
      · cases h; exact inv.handle indexed ‹_› processed
      · cases h
    | setSuspended suspended =>
      cases h
      refine inv.of_moved indexed le_rfl rfl rfl ?_ ?_
      · split <;> simp only [located, tasks, Shared.setSuspended, flatMap_tasks_resumeAll, List.Perm.refl]
      · split <;> simp only [System.ended, countP_resumeAll (f := Phase.ended (W := W) (w := w)) rfl, le_refl]
    | drain =>
      simp only [System.step] at h
      split at h
      · cases h; exact inv.drain indexed
      · cases h
    | join | poison | tick | dropReceiver _ => cases h; exact inv.of_moved indexed le_rfl rfl rfl (.refl _) le_rfl
    | prepareTask _ _ | prepareBatch _ _ _ | batchNext _ => cases submits
  · exact inv.submitted indexed (step_submitted h submits)

theorem conserved_init (config : Config w) : (init config : System W w cap).Conserved :=
  ⟨by simp [located, tasks, placed, init, Shared.new, RetryQueue.empty], fun _ => by simp [init],
    by simp [init]⟩

theorem Reachable.conserved {config : Config w} (reach : Reachable retry config s) : s.Conserved := by
  induction reach with
  | init => exact conserved_init config
  | step a reach stepped inv => exact inv.step reach.indexed stepped

/-- In every reachable state of either build, across any interleaving of submitters, workers,
`set_suspended`, `poison` and drains, no task is duplicated and no outcome is invented: the
tasks waiting to be sent, in the task channel, in the retry queue and in the workers' hands,
with the outcomes stored and delivered, carry each index at most as often as `prepare_task` and
the `prepare_batch` iterators issued it. Before the index counter wraps, every index is in one
place at most. -/
theorem tasks_never_duplicated {config : Config w} (reach : Reachable retry config s) :
    s.located.Subperm (s.issued.map (·.1)) ∧ (s.reserved < 2 ^ w → s.located.Nodup) :=
  ⟨reach.conserved.located_subperm, reach.conserved.nodup reach.indexed⟩

theorem tasks_never_duplicated_sample :
    let s := sample
    Reachable true sampleConfig s ∧
      (s.located.Subperm (s.issued.map (·.1)) ∧ (s.reserved < 2 ^ 64 → s.located.Nodup)) :=
  ⟨reachable_sample, tasks_never_duplicated reachable_sample⟩

/-- A step drops a task only where `transfer(1)` fails for the task a worker received, which ends
the worker with an error, or where `queue_retry` panics for the task a worker retries, which
ends the worker thread. -/
theorem lost_step {a : Action W w} (h : s.step retry a = some s') :
    s'.lost = s.lost ∨ ∃ (i : Nat) (task : Task W w), s'.lost = s.lost ++ [task.index] ∧
      ((a = .advance i ∧ s.workers[i]? = some (.received task) ∧
          (∃ e, s.shared.numTasks.transfer 1 = .error e) ∧ s'.workers[i]? = some .exited) ∨
        ∃ error, a = .complete i (.retryable error) ∧ s.workers[i]? = some (.running task) ∧
          s.shared.queueRetry task.input { task.ctx with attempt := task.ctx.attempt + 1 } task.outcomeTx s.now =
            none ∧ s'.workers[i]? = some .crashed) := by
  cases submits : a.submits
  · cases a with
    | advance i =>
      cases hw : s.workers[i]? with
      | none => simp [System.advance, System.step, hw] at h
      | some p =>
        have within := (List.getElem?_eq_some_iff.mp hw).1
        cases p <;> simp only [System.step, System.advance, hw] at h
        case received task =>
          split at h <;> simp only [Option.some.injEq] at h <;> subst h
          · exact .inl rfl
          · exact .inr ⟨i, task, rfl, .inl ⟨rfl, hw, ⟨_, ‹_›⟩, by simp [within]⟩⟩
        all_goals first
          | (simp only [Option.some.injEq] at h; subst h; exact .inl rfl)
          | (split at h <;> simp only [Option.some.injEq] at h <;> subst h <;> exact .inl rfl)
          | cases h
    | complete i processed =>
      simp only [System.step] at h
      split at h
      · cases h
        rename_i task hw
        have within := (List.getElem?_eq_some_iff.mp hw).1
        cases processed <;> simp only [System.handle, System.store]
        case retryable error =>
          split
          · split
            · split
              · exact .inl rfl
              · exact .inr ⟨i, task, rfl, .inr ⟨error, rfl, hw, ‹_›, by simp [within]⟩⟩
            · exact .inl rfl
          · exact .inl rfl
        all_goals exact .inl rfl
      · cases h
    | send _ | hangUp | recheck _ | drain =>
      simp only [System.step] at h
      split at h
      · cases h; exact .inl rfl
      · cases h
    | spawn | join | setSuspended _ | poison | tick | dropReceiver _ => cases h; exact .inl rfl
    | prepareTask _ _ | prepareBatch _ _ _ | batchNext _ => cases submits
  · exact .inl (by cases step_submitted h submits <;> rfl)

/-- In every reachable state of either build, the tasks dropped are no more than the worker
threads that ended, and before the index counter wraps, every issued task is, exactly once, in
the hive (unsent, in the task channel, in the retry queue, in a worker's hands), an outcome
stored or delivered, or dropped. A step drops a task only where `transfer(1)` fails in
`next_task` for the task the worker received, or `queue_retry` panics for the task it retries,
and each drop ends that worker thread. -/
theorem tasks_lost_only_with_workers {config : Config w} (reach : Reachable retry config s) :
    s.lost.length ≤ s.ended ∧
      (s.reserved < 2 ^ w → (s.located ++ s.lost).Perm (s.issued.map (·.1))) ∧
      ∀ (a : Action W w) (s' : System W w cap), s.step retry a = some s' → s'.lost = s.lost ∨
        ∃ (i : Nat) (task : Task W w), s'.lost = s.lost ++ [task.index] ∧
          ((a = .advance i ∧ s.workers[i]? = some (.received task) ∧
              (∃ e, s.shared.numTasks.transfer 1 = .error e) ∧ s'.workers[i]? = some .exited) ∨
            ∃ error, a = .complete i (.retryable error) ∧ s.workers[i]? = some (.running task) ∧
              s.shared.queueRetry task.input { task.ctx with attempt := task.ctx.attempt + 1 } task.outcomeTx
                s.now = none ∧ s'.workers[i]? = some .crashed) :=
  have inv := reach.conserved
  ⟨inv.dropped, fun small => inv.subperm.perm_of_length_le (by simpa using inv.exact small), fun _ _ => lost_step⟩

/-- Two tasks for two workers under an active capacity of 1: the second worker's `transfer(1)`
overflows the active count, so it drops task 1 and exits. -/
def overflowRun : List (Action ⟨Unit, Unit, Unit⟩ 64) :=
  [.prepareTask () none, .prepareTask () none, .send 0, .send 0, .spawn, .spawn] ++
    List.replicate 5 (.advance 0) ++ List.replicate 5 (.advance 1)

def overflowed : System ⟨Unit, Unit, Unit⟩ 64 ⟨2, 1⟩ :=
  (run true (init sampleConfig) overflowRun).getD (init sampleConfig)

theorem tasks_lost_only_with_workers_overflow :
    let s := overflowed
    Reachable true sampleConfig s ∧ s.lost = [1] ∧
      (s.lost.length ≤ s.ended ∧
        (s.reserved < 2 ^ 64 → (s.located ++ s.lost).Perm (s.issued.map (·.1))) ∧
        ∀ (a : Action ⟨Unit, Unit, Unit⟩ 64) (s' : System ⟨Unit, Unit, Unit⟩ 64 ⟨2, 1⟩),
          s.step true a = some s' → s'.lost = s.lost ∨
          ∃ (i : Nat) (task : Task ⟨Unit, Unit, Unit⟩ 64), s'.lost = s.lost ++ [task.index] ∧
            ((a = .advance i ∧ s.workers[i]? = some (.received task) ∧
                (∃ e, s.shared.numTasks.transfer 1 = .error e) ∧ s'.workers[i]? = some .exited) ∨
              ∃ error, a = .complete i (.retryable error) ∧ s.workers[i]? = some (.running task) ∧
                s.shared.queueRetry task.input { task.ctx with attempt := task.ctx.attempt + 1 } task.outcomeTx
                  s.now = none ∧ s'.workers[i]? = some .crashed)) :=
  have reach : Reachable true sampleConfig overflowed :=
    .run .init (rfl : run true (init sampleConfig) overflowRun = some overflowed)
  ⟨reach, by decide, tasks_lost_only_with_workers reach⟩

end System

/-! ## Draining and rehydration -/

end Procpool
