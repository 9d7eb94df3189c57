import Procpool.Hive.Counting

/-! Task indices: each reservation position is claimed at most once, so the indices are distinct
exactly as long as fewer than `2 ^ w` have been reserved; the ghost `reserved` counts them. -/
namespace Procpool

variable {W : Worker} {w : Nat} {cap : Capacity}

namespace List

variable {α β : Type} [DecidableEq β] {l : List α} {k : Nat} {e : α}

theorem flatMap_set_perm (f : α → List β) (hk : l[k]? = some e) (x : α) :
    List.Perm ((l.set k x).flatMap f ++ f e) (l.flatMap f ++ f x) := by
  obtain ⟨lt, get⟩ := List.getElem?_eq_some_iff.mp hk
  obtain ⟨l₁, l₂, split, -, set⟩ := @List.exists_of_set _ _ x _ lt
  rw [get] at split
  rw [set, split]
  simp only [List.flatMap_append, List.flatMap_cons, List.append_assoc]
  exact List.perm_iff_count.mpr fun a => by simp only [List.count_append]; omega

theorem flatMap_eraseIdx_perm (f : α → List β) (hk : l[k]? = some e) :
    List.Perm ((l.eraseIdx k).flatMap f ++ f e) (l.flatMap f) := by
  obtain ⟨lt, get⟩ := List.getElem?_eq_some_iff.mp hk
  obtain ⟨l₁, l₂, split, length, -⟩ := @List.exists_of_set _ _ e _ lt
  rw [get] at split
  subst split
  rw [List.eraseIdx_append_of_length_le (by omega), length, Nat.sub_self, List.eraseIdx_cons_zero]
  simp only [List.flatMap_append, List.flatMap_cons, List.append_assoc]
  exact List.perm_iff_count.mpr fun a => by simp only [List.count_append]; omega

end List

theorem Shared.toNat_reserve (s : Shared W w cap) (n : Nat) (fits : s.numTasks.left + n ≤ cap.left) :
    (s.reserve n fits).nextTaskIndex.toNat = (s.nextTaskIndex.toNat + n) % 2 ^ w := by
  simp [Shared.reserve, BitVec.toNat_add]

namespace System

variable {s s' : System W w cap} {retry : Bool} {a : Action W w} {i : Nat}

/-- The reservation positions still claimed: by a produced task, or by a live batch iterator
for the indices it has left. -/
def claims (s : System W w cap) : List Nat :=
  s.issued.map (·.2) ++ s.batches.flatMap fun e => List.range' e.2 e.1.reservedLeft

/-- The index counter and the ghost reservations agree, and no position is claimed twice. -/
structure Indexed (s : System W w cap) : Prop where
  counter : s.shared.nextTaskIndex.toNat = s.reserved % 2 ^ w
  issued : ∀ e ∈ s.issued, e.1.toNat = e.2 % 2 ^ w
  batches : ∀ e ∈ s.batches, e.1.start.toNat = e.2 % 2 ^ w
  distinct : s.claims.Nodup
  claimed : ∀ p ∈ s.claims, p < s.reserved

def indices (s : System W w cap) :
    BitVec w × Nat × List (BitVec w × Nat) × List (BatchIter W w × Nat) :=
  (s.shared.nextTaskIndex, s.reserved, s.issued, s.batches)

theorem Indexed.of_indices (inv : s.Indexed) (same : s'.indices = s.indices) :
    s'.Indexed ∧ s.reserved ≤ s'.reserved := by
  simp only [indices, Prod.mk.injEq] at same
  obtain ⟨counter, reserved, issued, batches⟩ := same
  refine ⟨⟨by rw [counter, reserved]; exact inv.counter, by rw [issued]; exact inv.issued,
    by rw [batches]; exact inv.batches, by rw [claims, issued, batches]; exact inv.distinct,
    by rw [claims, issued, batches, reserved]; exact inv.claimed⟩, reserved.ge⟩

theorem Indexed.of_claims (inv : s.Indexed) (dropped fresh : List Nat)
    (perm : List.Perm (s'.claims ++ dropped) (s.claims ++ fresh)) (distinct : fresh.Nodup)
    (range : ∀ p ∈ fresh, s.reserved ≤ p ∧ p < s'.reserved) (grows : s.reserved ≤ s'.reserved)
    (counter : s'.shared.nextTaskIndex.toNat = s'.reserved % 2 ^ w)
    (issued : ∀ e ∈ s'.issued, e.1.toNat = e.2 % 2 ^ w)
    (batches : ∀ e ∈ s'.batches, e.1.start.toNat = e.2 % 2 ^ w) :
    s'.Indexed ∧ s.reserved ≤ s'.reserved := by
  have before : (s.claims ++ fresh).Nodup :=
    List.nodup_append.mpr ⟨inv.distinct, distinct, fun p old new => by
      have := inv.claimed p old; have := (range p new).1; omega⟩
  refine ⟨⟨counter, issued, batches, (perm.nodup_iff.mpr before).of_append_left, fun p mem => ?_⟩, grows⟩
  rcases List.mem_append.mp (perm.subset (List.mem_append_left _ mem)) with old | new
  · exact (inv.claimed p old).trans_le grows
  · exact (range p new).2

theorem init_indexed (config : Config w) : (init config : System W w cap).Indexed :=
  ⟨rfl, nofun, nofun, List.nodup_nil, nofun⟩

theorem advance_indices (h : s.advance retry i = some s') : s'.indices = s.indices := by
  cases hw : s.workers[i]? with
  | none => simp [advance, hw] at h
  | some p =>
    cases p <;> simp only [advance, hw] at h
    case finishing =>
      split at h <;> simp only [Option.some.injEq] at h <;> subst h
      · obtain ⟨_, -, rfl⟩ := Shared.finishTask_eq_some ‹_›
        rfl
      · rfl
    all_goals first
      | (simp only [Option.some.injEq] at h; subst h; rfl)
      | (split at h <;> simp only [Option.some.injEq] at h <;> subst h <;> rfl)
      | cases h

theorem handle_indices (task : Task W w) (processed : Processed W) :
    (s.handle retry i task processed).indices = s.indices := by
  cases processed <;> simp only [handle, store]
  case retryable =>
    split
    · split
      · split
        · obtain ⟨_, _, -, -, rfl⟩ := Shared.queueRetry_eq_some ‹_›
          rfl
        · rfl
      · rfl
    · rfl
  all_goals rfl

theorem Indexed.counter_reserve (inv : s.Indexed) (n : Nat) (fits : s.shared.numTasks.left + n ≤ cap.left) :
    (s.shared.reserve n fits).nextTaskIndex.toNat = (s.reserved + n) % 2 ^ w := by
  rw [Shared.toNat_reserve, inv.counter, Nat.mod_add_mod]

theorem claims_take {batches : List (BatchIter W w × Nat)} (index : BitVec w)
    (same : List.Perm (batches.flatMap fun e => List.range' e.2 e.1.reservedLeft)
      (s.batches.flatMap fun e => List.range' e.2 e.1.reservedLeft)) :
    List.Perm ({ s with batches, issued := s.issued ++ [(index, s.reserved)] }.claims ++ [])
      (s.claims ++ [s.reserved]) := by
  simp only [claims, List.map_append, List.map_cons, List.map_nil, List.append_nil, List.append_assoc,
    List.singleton_append]
  exact List.Perm.append_left _ ((same.cons _).trans (List.perm_append_singleton _ _).symm)

theorem Indexed.submitted (inv : s.Indexed) (h : Submitted s s') : s'.Indexed ∧ s.reserved ≤ s'.reserved := by
  cases h with
  | task input tx fits =>
    exact inv.of_claims [] [s.reserved] (claims_take _ (.refl _)) (List.nodup_singleton _) (by simp) (by simp)
      (inv.counter_reserve 1 fits) (List.forall_mem_append.mpr ⟨inv.issued, List.forall_mem_singleton.mpr inv.counter⟩)
      inv.batches
  | batch minSize inputs tx fits inRange =>
    have reserved : (⟨inputs, s.shared.nextTaskIndex, s.shared.nextTaskIndex + minSize, tx⟩ :
        BatchIter W w).reservedLeft = minSize.toNat := by
      simp only [BatchIter.reservedLeft, BitVec.toNat_add, Nat.mod_eq_of_lt inRange]; omega
    exact inv.of_claims [] (List.range' s.reserved minSize.toNat) (.of_eq (by simp [claims, reserved]))
      (List.nodup_range' _ _) (fun p mem => List.mem_range'_1.mp mem) (by simp) (inv.counter_reserve _ fits)
      inv.issued (List.forall_mem_append.mpr ⟨inv.batches, List.forall_mem_singleton.mpr inv.counter⟩)
  | batchOverflow minSize fits _ =>
    exact inv.of_claims [] [] (.refl _) List.nodup_nil nofun (by simp) (inv.counter_reserve _ fits)
      inv.issued inv.batches
  | reservedNext k b position input inputs hb _ lt =>
    have start := inv.batches _ (List.getElem?_mem hb)
    have perm := List.flatMap_set_perm (fun e : BatchIter W w × Nat => List.range' e.2 e.1.reservedLeft) hb
      ({ b with inputs, start := b.start + 1 }, position + 1)
    simp only [← b.reservedLeft_next inputs lt, List.range'_succ] at perm
    refine inv.of_claims [] [] (List.perm_iff_count.mpr fun p => ?_) List.nodup_nil nofun le_rfl inv.counter
      (List.forall_mem_append.mpr ⟨inv.issued, List.forall_mem_singleton.mpr start⟩) fun e mem => ?_
    · have := List.perm_iff_count.mp perm p
      simp only [claims, List.map_append, List.map_cons, List.map_nil, List.append_nil, List.count_append,
        List.count_cons, List.count_nil] at this ⊢
      omega
    · rcases List.mem_or_eq_of_mem_set mem with old | new
      · exact inv.batches e old
      · subst new
        have := b.stop.isLt
        have := BitVec.lt_def.mp lt
        show (b.start + 1).toNat = (position + 1) % 2 ^ w
        rw [b.toNat_start_succ lt, ← Nat.mod_add_mod, ← start,
          Nat.mod_eq_of_lt (show b.start.toNat + 1 < 2 ^ w by omega)]
  | excessNext k b position input inputs hb _ _ fits =>
    have start := inv.batches _ (List.getElem?_mem hb)
    exact inv.of_claims [] [s.reserved]
      (claims_take _ ((List.perm_append_right_iff _).mp (List.flatMap_set_perm _ hb _)))
      (List.nodup_singleton _) (by simp) (by simp) (inv.counter_reserve 1 fits)
      (List.forall_mem_append.mpr ⟨inv.issued, List.forall_mem_singleton.mpr inv.counter⟩)
      fun e mem => (List.mem_or_eq_of_mem_set mem).elim (inv.batches e) fun new => by subst new; exact start
  | ended k entry hb =>
    refine inv.of_claims (List.range' entry.2 entry.1.reservedLeft) [] ?_ List.nodup_nil nofun le_rfl inv.counter
      inv.issued fun e mem => inv.batches e (List.mem_of_mem_eraseIdx mem)
    simpa only [claims, List.append_assoc, List.append_nil] using
      (List.flatMap_eraseIdx_perm _ hb).append_left (s.issued.map (·.2))
  | full => exact inv.of_indices rfl

theorem Indexed.step (inv : s.Indexed) (h : s.step retry a = some s') :
    s'.Indexed ∧ s.reserved ≤ s'.reserved := by
  cases submits : a.submits
  · cases a with
    | advance i => exact inv.of_indices (advance_indices h)
    | complete i processed =>
      simp only [System.step] at h
      split at h
      · cases h; exact inv.of_indices (handle_indices _ _)
      · cases h
    | send k =>
      cases hu : s.unsent[k]? with
      | none => simp [System.step, hu] at h
      | some task => simp only [System.step, hu, Option.some.injEq] at h; subst h; exact inv.of_indices rfl
    | hangUp | recheck _ | drain =>
      simp only [System.step] at h
      split at h
      · cases h; cases retry <;> exact inv.of_indices rfl
      · cases h
    | spawn | join | setSuspended _ | poison | tick | dropReceiver _ => cases h; exact inv.of_indices rfl
    | prepareTask _ _ | prepareBatch _ _ _ | batchNext _ => cases submits
  · exact inv.submitted (step_submitted h submits)

theorem Reachable.indexed {config : Config w} (reach : Reachable retry config s) : s.Indexed := by
  induction reach with
  | init => exact init_indexed config
  | step a _ stepped inv => exact (inv.step stepped).1

theorem Indexed.toNat_index (inv : s.Indexed) {e : BitVec w × Nat} (mem : e ∈ s.issued)
    (small : s.reserved < 2 ^ w) : e.1.toNat = e.2 := by
  rw [inv.issued e mem, Nat.mod_eq_of_lt ((inv.claimed _ (List.mem_append_left _ (List.mem_map_of_mem _ mem))).trans small)]

/-- In every reachable state of either build the index counter is the number of reserved
indices modulo `2 ^ w`, each produced task's index is its reservation position modulo `2 ^ w`,
no position is used twice, and no step lowers the number reserved. So while fewer than `2 ^ w`
indices have been reserved, the produced indices are pairwise distinct and below the counter,
and the counter does not decrease. -/
theorem task_indices_distinct_before_wrap {config : Config w} (reach : Reachable retry config s) :
    s.shared.nextTaskIndex.toNat = s.reserved % 2 ^ w ∧
      (∀ e ∈ s.issued, e.1.toNat = e.2 % 2 ^ w ∧ e.2 < s.reserved) ∧
      (s.issued.map (·.2)).Nodup ∧
      (s.reserved < 2 ^ w →
        (s.issued.map (·.1)).Nodup ∧ ∀ e ∈ s.issued, e.1 < s.shared.nextTaskIndex) ∧
      (∀ (a : Action W w) (s' : System W w cap), s.step retry a = some s' →
        s.reserved ≤ s'.reserved ∧
          (s'.reserved < 2 ^ w → s.shared.nextTaskIndex ≤ s'.shared.nextTaskIndex)) := by
  have inv := reach.indexed
  have positions : ∀ e ∈ s.issued, e.2 < s.reserved :=
    fun e mem => inv.claimed _ (List.mem_append_left _ (List.mem_map_of_mem _ mem))
  have distinct : (s.issued.map (·.2)).Nodup := inv.distinct.of_append_left
  refine ⟨inv.counter, fun e mem => ⟨inv.issued e mem, positions e mem⟩, distinct,
    fun small => ⟨?_, fun e mem => ?_⟩, fun a s' h => ?_⟩
  · refine (distinct.of_map _).map_on fun x xm y ym same => Prod.ext same ?_
    rw [← inv.toNat_index xm small, ← inv.toNat_index ym small, same]
  · rw [BitVec.lt_def, inv.toNat_index mem small, inv.counter, Nat.mod_eq_of_lt small]
    exact positions e mem
  · obtain ⟨inv', grows⟩ := inv.step h
    refine ⟨grows, fun small => BitVec.le_def.mpr ?_⟩
    rw [inv.counter, inv'.counter, Nat.mod_eq_of_lt (show s.reserved < 2 ^ w by omega), Nat.mod_eq_of_lt small]
    exact grows

theorem task_indices_distinct_sample :
    let s := sample
    Reachable true sampleConfig s ∧
      (s.shared.nextTaskIndex.toNat = s.reserved % 2 ^ 64 ∧
        (∀ e ∈ s.issued, e.1.toNat = e.2 % 2 ^ 64 ∧ e.2 < s.reserved) ∧
        (s.issued.map (·.2)).Nodup ∧
        (s.reserved < 2 ^ 64 →
          (s.issued.map (·.1)).Nodup ∧ ∀ e ∈ s.issued, e.1 < s.shared.nextTaskIndex) ∧
        (∀ (a : Action ⟨Unit, Unit, Unit⟩ 64) (s' : System ⟨Unit, Unit, Unit⟩ 64 ⟨4, 4⟩),
          s.step true a = some s' →
            s.reserved ≤ s'.reserved ∧
              (s'.reserved < 2 ^ 64 → s.shared.nextTaskIndex ≤ s'.shared.nextTaskIndex))) :=
  ⟨reachable_sample, task_indices_distinct_before_wrap reachable_sample⟩

/-! ## The index counter wraps -/

/-- A hive with one worker at the top of its loop and no task anywhere. -/
structure Quiet (s : System W w cap) : Prop where
  workers : s.workers = [.top]
  unsent : s.unsent = []
  taskRx : s.shared.taskRx = []
  queued : s.shared.numTasks.left = 0
  active : s.shared.numTasks.right = 0
  connected : s.disconnected = false
  resumed : s.shared.suspended = false
  healthy : s.shared.poisoned = false
  noRetry : s.shared.nextRetry = none

/-- One task through a quiet hive: prepared, sent, received, run and finished by its worker. -/
def round (input : W.Input) (value : W.Output) : List (Action W w) :=
  [.prepareTask input none, .send 0, .advance 0, .advance 0, .advance 0, .advance 0, .advance 0,
    .complete 0 (.success value), .advance 0, .advance 0]

theorem Quiet.round (retry : Bool) (quiet : s.Quiet) (fits : 1 ≤ cap.left) (room : 1 ≤ cap.right) (input : W.Input)
    (value : W.Output) :
    ∃ s', run retry s (round input value) = some s' ∧ s'.Quiet ∧
      s'.shared.nextTaskIndex = s.shared.nextTaskIndex + 1 ∧
      s'.issued = s.issued ++ [(s.shared.nextTaskIndex, s.reserved)] := by
  obtain ⟨workers, unsent, rx, queued, active, connected, resumed, healthy, noRetry⟩ := quiet
  simp only [run, System.round, step, connected, Bool.false_eq_true, ↓reduceIte,
    Shared.prepareTask_ok (show s.shared.numTasks.left + 1 ≤ cap.left by omega), Shared.reserve, queued, zero_add,
    active, healthy, resumed, rx, noRetry, unsent, List.nil_append, workers, List.eraseIdx_zero, advance, setWorker,
    Bool.and_eq_true, DualCounter.transfer, Shared.finishTask, DualCounter.decrementRight, BitVec.ofNat_eq_ofNat,
    handle, store, Option.bind_some, Option.some_bind, List.length_singleton, Nat.zero_lt_one, List.getElem?_eq_getElem,
    List.getElem_cons_zero, List.tail_cons, List.set_cons_zero, Option.map_none', Option.getD_none, and_false,
    le_refl, ↓reduceDIte, room, Nat.sub_self, Option.some.injEq, exists_eq_left', List.append_cancel_left_eq,
    List.cons.injEq, Prod.mk.injEq, and_true, true_and]
  exact ⟨⟨rfl, rfl, rfl, rfl, rfl, rfl, rfl, rfl, rfl⟩, rfl⟩

theorem rounds (retry : Bool) (fits : 1 ≤ cap.left) (room : 1 ≤ cap.right) (config : Config w) (input : W.Input)
    (value : W.Output) :
    ∀ k : Nat, ∃ s : System W w cap, Reachable retry config s ∧ s.Quiet ∧
      s.shared.nextTaskIndex = BitVec.ofNat w k ∧ s.issued.map (·.1) = (List.range k).map (BitVec.ofNat w)
  | 0 => ⟨_, Reachable.init.step .spawn rfl, ⟨rfl, rfl, rfl, rfl, rfl, rfl, rfl, rfl, rfl⟩, rfl, rfl⟩
  | k + 1 => by
    obtain ⟨s, reach, quiet, index, issued⟩ := rounds retry fits room config input value k
    obtain ⟨s', ran, quiet', index', issued'⟩ := quiet.round retry fits room input value
    refine ⟨s', reach.run ran, quiet', ?_, ?_⟩
    · rw [index', index]
      exact BitVec.eq_of_toNat_eq (by simp [BitVec.toNat_add, Nat.add_mod])
    · simp [issued', issued, index, List.range_succ]

end System

open System in
/-- At every word size and every capacity that lets one task be queued and one run, in both
builds, a hive that runs `2 ^ w + 1` tasks one after another gives the last the index `0` of
the first. -/
theorem task_index_repeats_after_wrap :
    ¬ ∃ (w : Nat) (cap : Capacity), 1 ≤ cap.left ∧ 1 ≤ cap.right ∧ ∃ retry : Bool,
      ∀ s : System ⟨Unit, Unit, Unit⟩ w cap, Reachable retry ⟨.unsync none, .unsync none, .unsync none⟩ s →
        (s.issued.map (·.1)).Nodup := by
  rintro ⟨w, cap, fits, room, retry, distinct⟩
  obtain ⟨s, reach, -, -, issued⟩ :=
    rounds (W := ⟨Unit, Unit, Unit⟩) retry fits room ⟨.unsync none, .unsync none, .unsync none⟩ () ()
      (2 ^ w + 1)
  have nodup := distinct s reach
  rw [issued, List.range_succ, List.map_append, List.nodup_append] at nodup
  refine nodup.2.2 (List.mem_map.mpr ⟨0, List.mem_range.mpr (Nat.two_pow_pos w), ?_⟩) (List.mem_singleton_self _)
  exact BitVec.eq_of_toNat_eq (by simp)

end Procpool
