import Procpool.Hive.Conservation

/-! What `num_panics` counts: the `Panic` outcomes stored or delivered, less those whose worker has
not yet reached `finish_task(true)`. -/
namespace Procpool

variable {W : Worker} {w : Nat} {cap : Capacity}

def Outcome.isPanic : Outcome W w → Bool
  | .panic _ _ => true
  | _ => false

/-- About to call `finish_task(true)`. -/
@[simp] def Phase.panicking : Phase W w → Bool
  | .finishing true => true
  | _ => false

/-- The `Panic` outcomes stored or delivered to their senders. -/
def panicCount (outcomes : Outcomes W w) (chans : Channels W w) : Nat :=
  outcomes.entries.countP (fun entry => entry.2.isPanic) + chans.delivered.countP fun entry => entry.2.isPanic

theorem panicCount_le (outcomes : Outcomes W w) (chans : Channels W w) :
    panicCount outcomes chans ≤ (placed outcomes chans).length := by
  have := outcomes.entries.countP_le_length fun entry => entry.2.isPanic
  have := chans.delivered.countP_le_length fun entry => entry.2.isPanic
  simp only [panicCount, placed, List.length_append, List.length_map, AList.keys, List.keys]
  omega

theorem panicCount_sendOrStoreOutcome {o : Outcome W w} (tx : Option OutcomeSender) (outcomes : Outcomes W w)
    (chans : Channels W w) (fresh : o.index ∉ outcomes) :
    panicCount (sendOrStoreOutcome o tx outcomes chans).1 (sendOrStoreOutcome o tx outcomes chans).2 =
      panicCount outcomes chans + if o.isPanic then 1 else 0 := by
  have stored := AList.insert_entries_of_neg (a := o.index) (b := o) fresh
  cases tx with
  | none => simp only [sendOrStoreOutcome, addOutcome, panicCount, stored, List.countP_cons]; omega
  | some tx =>
    by_cases dropped : tx.receiver ∈ chans.dropped <;>
      simp only [sendOrStoreOutcome, Channels.trySendMsg, dropped, ite_true, ite_false, addOutcome, panicCount,
        stored, List.countP_cons, List.countP_append, List.countP_nil] <;> omega

theorem panicCount_sendOrStore (tasks : List (Task W w)) (outcomes : Outcomes W w) (chans : Channels W w)
    (fresh : (tasks.map Task.index ++ outcomes.keys).Nodup) :
    panicCount (sendOrStore tasks outcomes chans).1 (sendOrStore tasks outcomes chans).2 =
      panicCount outcomes chans := by
  induction tasks generalizing outcomes chans with
  | nil => rfl
  | cons task tasks ih =>
    obtain ⟨unused, rest⟩ := fresh_sendOrStoreOutcome chans fresh
    rw [sendOrStore_cons, ih _ _ rest, panicCount_sendOrStoreOutcome (o := task.unprocessed) _ _ _ unused]
    rfl

namespace System

variable {s s' t : System W w cap} {retry : Bool} {i : Nat} {p q : Phase W w}

def panicking (s : System W w cap) : Nat := s.workers.countP Phase.panicking

/-- Before the index counter wraps, `num_panics` with the workers about to call
`finish_task(true)` is the number of `Panic` outcomes stored or delivered. -/
def PanicsCounted (s : System W w cap) : Prop :=
  s.reserved < 2 ^ w → s.shared.numPanics.toNat + s.panicking = panicCount s.shared.outcomes s.chans

theorem Indexed.length_issued_le (inv : s.Indexed) : s.issued.length ≤ s.reserved := by
  have := (inv.distinct.of_append_left.subperm fun p mem =>
    List.mem_range.mpr (inv.claimed p (List.mem_append_left _ mem))).length_le
  simpa only [List.length_map, List.length_range] using this

theorem panicCount_lt (conserved : s.Conserved) (indexed : s.Indexed) (small : s.reserved < 2 ^ w) :
    panicCount s.shared.outcomes s.chans < 2 ^ w := by
  have := panicCount_le s.shared.outcomes s.chans
  have := conserved.subperm.length_le
  have := indexed.length_issued_le
  simp only [located, List.length_append, List.length_map] at *
  omega

theorem not_mem_outcomes {task : Task W w} (conserved : s.Conserved) (indexed : s.Indexed)
    (small : s.reserved < 2 ^ w) (hw : s.workers[i]? = some (.running task)) : task.index ∉ s.shared.outcomes :=
  fun stored => (List.nodup_append.mp (conserved.nodup indexed small)).2.2
    (index_mem_tasks hw (List.mem_singleton_self task)) (List.mem_append_left _ (AList.mem_keys.mpr stored))

theorem Counted.finishTask_ne_none {panicking : Bool} (inv : s.Counted)
    (hw : s.workers[i]? = some (.finishing panicking)) : s.shared.finishTask panicking ≠ none := by
  have one : 1 ≤ s.shared.numTasks.right := inv.active ▸ one_le_countP (f := Phase.holds) hw rfl
  simp [Shared.finishTask, DualCounter.decrementRight, dif_pos one]

theorem panicking_setWorker (hw : s.workers[i]? = some p) (q : Phase W w) :
    (s.setWorker i q).panicking + (if p.panicking then 1 else 0) = s.panicking + (if q.panicking then 1 else 0) :=
  List.countP_set_add _ hw

theorem PanicsCounted.setWorker (inv : s.PanicsCounted) (hw : s.workers[i]? = some p)
    (workers : t.workers = s.workers) (grows : s.reserved ≤ t.reserved)
    (moved : s.reserved < 2 ^ w → t.shared.numPanics.toNat + (if q.panicking then 1 else 0) +
      panicCount s.shared.outcomes s.chans =
        s.shared.numPanics.toNat + (if p.panicking then 1 else 0) + panicCount t.shared.outcomes t.chans) :
    (t.setWorker i q).PanicsCounted := fun small => by
  have small : s.reserved < 2 ^ w := Nat.lt_of_le_of_lt grows small
  have same : t.panicking = s.panicking := by simp only [panicking, workers]
  have := panicking_setWorker (workers ▸ hw : t.workers[i]? = some p) q
  have := inv small
  have := moved small
  simp only [setWorker_shared, setWorker_chans]
  omega

theorem PanicsCounted.advance (inv : s.PanicsCounted) (counted : s.Counted) (conserved : s.Conserved)
    (indexed : s.Indexed) (h : s.advance retry i = some s') : s'.PanicsCounted := by
  cases hw : s.workers[i]? with
  | none => simp [System.advance, hw] at h
  | some p =>
    cases p with
    | top | awake | polling | notifying =>
      simp only [System.advance, hw, Option.some.injEq] at h; subst h
      exact inv.setWorker hw rfl le_rfl fun _ => by split <;> rfl
    | popping | receiving | received task =>
      simp only [System.advance, hw] at h
      split at h <;> simp only [Option.some.injEq] at h <;> subst h <;>
        exact inv.setWorker hw rfl le_rfl fun _ => by first | rfl | (split <;> rfl)
    | finishing panicking =>
      simp only [System.advance, hw] at h
      split at h <;> simp only [Option.some.injEq] at h <;> subst h
      · obtain ⟨_, -, rfl⟩ := Shared.finishTask_eq_some ‹_›
        refine inv.setWorker hw rfl le_rfl fun small => ?_
        cases panicking
        · rfl
        · have := panicCount_lt conserved indexed small
          have := inv small
          have : 1 ≤ s.panicking := one_le_countP hw rfl
          have one : 1 % 2 ^ w = 1 := Nat.mod_eq_of_lt (by omega)
          have sum : (s.shared.numPanics.toNat + 1) % 2 ^ w = s.shared.numPanics.toNat + 1 :=
            Nat.mod_eq_of_lt (by omega)
          simp only [if_true, Phase.panicking, Bool.false_eq_true, ite_false, BitVec.toNat_add, BitVec.ofNat_eq_ofNat,
            BitVec.toNat_ofNat, one, sum]
      · cases panicking
        · exact inv.setWorker hw rfl le_rfl fun _ => rfl
        · exact absurd ‹_› (counted.finishTask_ne_none hw)
    | parked | running _ | exited | crashed => simp [System.advance, hw] at h

theorem PanicsCounted.store {task : Task W w} {o : Outcome W w} (inv : s.PanicsCounted) (conserved : s.Conserved)
    (indexed : s.Indexed) (hw : s.workers[i]? = some (.running task)) (index : o.index = task.index)
    (panicking : Bool) (agrees : o.isPanic = panicking) : (s.store i task o panicking).PanicsCounted := by
  have added := fun small => panicCount_sendOrStoreOutcome task.outcomeTx s.shared.outcomes s.chans
    (by rw [index]; exact not_mem_outcomes conserved indexed small hw)
  unfold System.store
  generalize sendOrStoreOutcome o task.outcomeTx s.shared.outcomes s.chans = after at added ⊢
  obtain ⟨outcomes, chans⟩ := after
  refine inv.setWorker hw rfl le_rfl fun small => ?_
  have := added small
  cases panicking <;> simp only [agrees, Phase.panicking, if_true, if_false, Bool.false_eq_true] at this ⊢ <;> omega

theorem PanicsCounted.handle {task : Task W w} (inv : s.PanicsCounted) (conserved : s.Conserved)
    (indexed : s.Indexed) (hw : s.workers[i]? = some (.running task)) (processed : Processed W) :
    (s.handle retry i task processed).PanicsCounted := by
  cases processed with
  | success value => exact inv.store conserved indexed hw (o := .success task.index value) rfl false rfl
  | fatal error => exact inv.store conserved indexed hw (o := .failure task.index error) rfl false rfl
  | panicked payload => exact inv.store conserved indexed hw (o := .panic task.index payload) rfl true rfl
  | retryable error =>
    simp only [System.handle]
    split
    · split
      · split
        · obtain ⟨delay, numTasks, -, -, rfl⟩ := Shared.queueRetry_eq_some ‹_›
          exact inv.setWorker hw rfl le_rfl fun _ => rfl
        · exact inv.setWorker hw rfl le_rfl fun _ => rfl
      · exact inv.store conserved indexed hw (o := .maxRetriesAttempted task.index task.input error) rfl false rfl
    · exact inv.store conserved indexed hw (o := .failure task.index error) rfl false rfl

theorem PanicsCounted.drain (inv : s.PanicsCounted) (conserved : s.Conserved) (indexed : s.Indexed) :
    ({ s with
      shared := (s.shared.drainTasksIntoUnprocessed retry s.chans).1
      chans := (s.shared.drainTasksIntoUnprocessed retry s.chans).2 } : System W w cap).PanicsCounted :=
  fun small => by
    rw [drainTasksIntoUnprocessed_eq]
    exact (inv small).trans (panicCount_sendOrStore _ _ _
      (nodup_of_subperm drained_subperm (conserved.nodup indexed small))).symm

theorem PanicsCounted.submitted (inv : s.PanicsCounted) (h : Submitted s s') : s'.PanicsCounted := by
  cases h with
  | task | excessNext | batch | batchOverflow => exact fun small => inv (by simp only at small; omega)
  | reservedNext | ended | full => exact inv

theorem PanicsCounted.step {a : Action W w} (inv : s.PanicsCounted) (counted : s.Counted) (conserved : s.Conserved)
    (indexed : s.Indexed) (h : s.step retry a = some s') : s'.PanicsCounted := by
  cases submits : a.submits
  · cases a with
    | send k =>
      cases hu : s.unsent[k]? with
      | none => simp [System.step, hu] at h
      | some task => simp only [System.step, hu, Option.some.injEq] at h; subst h; exact inv
    | hangUp | recheck _ =>
      simp only [System.step] at h
      split at h
      · cases h; exact inv
      · cases h
    | spawn => cases h; exact fun small => by simpa [panicking] using inv small
    | advance i => exact inv.advance counted conserved indexed h
    | complete i processed =>
      simp only [System.step] at h
      split at h
      · cases h; exact inv.handle conserved indexed ‹_› processed
      · cases h
    | setSuspended suspended =>
      cases h
      split
      · exact fun small => by
          simpa only [panicking, countP_resumeAll (f := Phase.panicking (W := W) (w := w)) rfl] using inv small
      · exact inv
    | drain =>
      simp only [System.step] at h
      split at h
      · cases h; exact inv.drain conserved indexed
      · cases h
    | join | poison | tick | dropReceiver _ => cases h; exact inv
    | prepareTask _ _ | prepareBatch _ _ _ | batchNext _ => cases submits
  · exact inv.submitted (step_submitted h submits)

end System

end Procpool
