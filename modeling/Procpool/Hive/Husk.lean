import Procpool.Hive.Counting

/-! Draining tasks into `Unprocessed` outcomes, the `Husk` a hive leaves, rebuilding a hive from it,
and `take_unprocessed`. -/
namespace Procpool

variable {W : Worker} {w : Nat} {cap : Capacity}

namespace Task

def unprocessed (task : Task W w) : Outcome W w := .unprocessed task.index task.input

/-- What the task's sender takes: the outcome, if the task has a sender whose receiver is
still there. -/
def delivery (task : Task W w) (chans : Channels W w) : Option (OutcomeSender × Outcome W w) :=
  task.outcomeTx.bind fun tx =>
    if tx.receiver ∈ chans.dropped then none else some (tx, task.unprocessed)

def stored (task : Task W w) (chans : Channels W w) : Option (Sigma fun _ : BitVec w => Outcome W w) :=
  match task.delivery chans with
  | some _ => none
  | none => some ⟨task.index, task.unprocessed⟩

end Task

/-! ## Conservation -/

theorem sendOrStore_append (first second : List (Task W w)) (outcomes : Outcomes W w)
    (chans : Channels W w) :
    sendOrStore (first ++ second) outcomes chans =
      sendOrStore second (sendOrStore first outcomes chans).1 (sendOrStore first outcomes chans).2 := by
  induction first generalizing outcomes chans with
  | nil => rfl
  | cons task first ih =>
    simp only [List.cons_append, sendOrStore]
    split <;> exact ih ..

/-- The tasks `drain_tasks_into_unprocessed` and `try_into_husk` take, in order: those in the
task channel, then, in the retry build, those in the retry queue. -/
def Shared.drained (retry : Bool) (s : Shared W w cap) : List (Task W w) :=
  s.taskRx ++ if retry then s.retryQueue.entries.map (·.2) else []

theorem drainTasksIntoUnprocessed_eq (retry : Bool) (s : Shared W w cap) (chans : Channels W w) :
    s.drainTasksIntoUnprocessed retry chans =
      ({ s with
          taskRx := []
          outcomes := (sendOrStore (s.drained retry) s.outcomes chans).1
          retryQueue := if retry then .empty else s.retryQueue },
        (sendOrStore (s.drained retry) s.outcomes chans).2) := by
  cases retry <;>
    simp only [Shared.drainTasksIntoUnprocessed, Shared.drainNoRetry_eq, Shared.drainRetry_eq,
      Shared.drained, sendOrStore_append, if_true, if_false, Bool.false_eq_true, List.append_nil]

/-! ## The husk -/

/-- Modelled from the spec: `Config::into_unsync` of `hive/config.rs`, which turns every
field into its `Unsync` variant. -/
def Config.intoUnsync (config : Config w) : Config w :=
  ⟨config.numThreads.intoUnsync, config.maxRetries.intoUnsync, config.retryFactor.intoUnsync⟩

theorem List.kerase_eq_filter {α : Type} {β : α → Type} [DecidableEq α] (a : α) :
    ∀ {l : List (Sigma β)}, l.NodupKeys → l.kerase a = l.filter fun entry => entry.1 ≠ a
  | [], _ => rfl
  | e :: l, nd => by
    obtain ⟨fresh, nd⟩ := List.nodupKeys_cons.mp nd
    by_cases h : a = e.1
    · subst h
      rw [List.kerase_cons_eq rfl, List.filter_cons_of_neg (by simp), List.filter_eq_self.mpr]
      exact fun x mem => decide_eq_true fun same : x.1 = e.1 => fresh (same ▸ List.mem_keys_of_mem mem)
    · rw [List.kerase_cons_ne h, List.filter_cons_of_pos (by simpa using Ne.symm h),
        List.kerase_eq_filter a nd]

/-- `outcomes.remove(&index).unwrap()` over the indices in turn, collecting what each removes;
`none` is the panic of an `unwrap` on a missing key. -/
def removeEach : List (BitVec w) → Outcomes W w → Option (List (Outcome W w) × Outcomes W w)
  | [], outcomes => some ([], outcomes)
  | index :: indices, outcomes =>
    match outcomes.lookup index with
    | some outcome =>
      (removeEach indices (outcomes.erase index)).map fun (taken, outcomes) => (outcome :: taken, outcomes)
    | none => none

/-- `Shared::take_unprocessed`: the keys of the `Unprocessed` outcomes, in the order `keys()`
yields the map's keys, each then removed from the map. -/
def Shared.takeUnprocessed (s : Shared W w cap) (keys : List (BitVec w)) :
    Option (List (Outcome W w) × Shared W w cap) :=
  let unprocessedIndices := keys.filter fun index => (s.outcomes.lookup index).any Outcome.isUnprocessed
  (removeEach unprocessedIndices s.outcomes).map fun (taken, outcomes) => (taken, { s with outcomes })

theorem removeEach_spec {indices : List (BitVec w)} {outcomes : Outcomes W w}
    (distinct : indices.Nodup) (present : ∀ index ∈ indices, index ∈ outcomes) :
    ∃ rest, removeEach indices outcomes = some (indices.filterMap outcomes.lookup, rest) ∧
      rest.entries = outcomes.entries.filter fun entry => entry.1 ∉ indices := by
  induction indices generalizing outcomes with
  | nil => exact ⟨outcomes, rfl, by simp⟩
  | cons index indices ih =>
    obtain ⟨fresh, distinct⟩ := List.nodup_cons.mp distinct
    obtain ⟨o, found⟩ := Option.isSome_iff_exists.mp
      (AList.lookup_isSome.mpr (present index (List.mem_cons_self ..)))
    obtain ⟨rest, removed, kept⟩ := @ih (outcomes.erase index) distinct fun i mem =>
      AList.mem_erase.mpr ⟨fun same => fresh (same ▸ mem), present i (List.mem_cons_of_mem _ mem)⟩
    have others : indices.filterMap (outcomes.erase index).lookup = indices.filterMap outcomes.lookup :=
      List.filterMap_congr fun i mem => AList.lookup_erase_ne fun same => fresh (same ▸ mem)
    refine ⟨rest, by simp [removeEach, found, removed, others], ?_⟩
    rw [kept, show (outcomes.erase index).entries = outcomes.entries.kerase index from rfl,
      List.kerase_eq_filter _ outcomes.nodupKeys, List.filter_filter]
    congr; funext; simp [Bool.and_comm]

theorem lookup_any_of_mem {outcomes : Outcomes W w} {entry : Sigma fun _ : BitVec w => Outcome W w}
    (mem : entry ∈ outcomes.entries) (p : Outcome W w → Bool) :
    (outcomes.lookup entry.1).any p = p entry.2 := by
  rw [AList.mem_lookup_iff.mpr mem, Option.any_some]

theorem filterMap_lookup_keys (outcomes : Outcomes W w) (p : Outcome W w → Bool) :
    (outcomes.keys.filter fun index => (outcomes.lookup index).any p).filterMap outcomes.lookup =
      (outcomes.entries.filter fun entry => p entry.2).map (·.2) := by
  calc (outcomes.keys.filter fun index => (outcomes.lookup index).any p).filterMap outcomes.lookup
      _ = ((outcomes.entries.filter fun entry => p entry.2).map Sigma.fst).filterMap outcomes.lookup := by
        rw [AList.keys, List.keys, List.filter_map]
        congr 2
        exact List.filter_congr fun entry mem => lookup_any_of_mem mem p
      _ = (outcomes.entries.filter fun entry => p entry.2).map (·.2) := by
        rw [List.filterMap_map, ← List.filterMap_eq_map]
        exact List.filterMap_congr fun entry mem => AList.mem_lookup_iff.mpr (List.mem_filter.mp mem).1

/-- `take_unprocessed` never panics, whatever order `keys()` yields the keys in: every collected
key is still in the map when it is removed. It returns the map's `Unprocessed` outcomes, each
once, and leaves the map with exactly those entries removed and every other entry unchanged, in
place; no other field of the hive changes. -/
theorem take_unprocessed_takes_exactly_unprocessed (s : Shared W w cap) (keys : List (BitVec w))
    (order : keys.Perm s.outcomes.keys) :
    ∃ taken rest, s.takeUnprocessed keys = some (taken, { s with outcomes := rest }) ∧
      taken.Perm ((s.outcomes.entries.filter fun entry => entry.2.isUnprocessed).map (·.2)) ∧
      rest.entries = s.outcomes.entries.filter fun entry => !entry.2.isUnprocessed := by
  obtain ⟨rest, removed, kept⟩ := removeEach_spec
    ((order.nodup_iff.mpr s.outcomes.keys_nodup).filter fun index => (s.outcomes.lookup index).any Outcome.isUnprocessed)
    fun index mem => AList.mem_keys.mpr (order.subset (List.mem_filter.mp mem).1)
  refine ⟨_, rest, by simp only [Shared.takeUnprocessed, removed, Option.map_some']; rfl, ?_, ?_⟩
  · rw [← filterMap_lookup_keys]
    exact (order.filter _).filterMap _
  · rw [kept]
    refine List.filter_congr fun entry mem => ?_
    simp [List.mem_filter, lookup_any_of_mem mem, order.mem_iff.mpr (List.mem_keys_of_mem mem)]

/-- A map holding an `Unprocessed` and a `Success` outcome, its keys yielded newest first. -/
theorem take_unprocessed_of_two_outcomes :
    let s : Shared ⟨Unit, Unit, Unit⟩ 64 ⟨1, 1⟩ :=
      { Shared.new ⟨.unsync none, .unsync none, .unsync none⟩ with
        outcomes := ((∅ : Outcomes _ 64).insert 0 (.unprocessed 0 ())).insert 1 (.success 1 ()) }
    List.Perm [1, 0] s.outcomes.keys ∧
      ∃ taken rest, s.takeUnprocessed [1, 0] = some (taken, { s with outcomes := rest }) ∧
        taken.Perm ((s.outcomes.entries.filter fun entry => entry.2.isUnprocessed).map (·.2)) ∧
        rest.entries = s.outcomes.entries.filter fun entry => !entry.2.isUnprocessed :=
  ⟨.refl _, take_unprocessed_takes_exactly_unprocessed _ _ (.refl _)⟩

example :
    (({ Shared.new ⟨.unsync none, .unsync none, .unsync none⟩ with
        outcomes := ((∅ : Outcomes _ 64).insert 0 (.unprocessed 0 ())).insert 1 (.success 1 ()) } :
      Shared ⟨Unit, Unit, Unit⟩ 64 ⟨1, 1⟩).takeUnprocessed [1, 0]).map
        (fun (taken, s) => (taken.map Outcome.index, s.outcomes.keys)) = some ([0], [1]) := rfl

end Procpool
