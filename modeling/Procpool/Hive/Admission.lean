import Procpool.Hive.Shared

/-! Admitting tasks: `Shared::prepare_task` and `Shared::prepare_batch` with its lazy iterator.
A `none` result is a panic; a `usize` addition that overflows panics, as with overflow checks. -/
namespace Procpool

variable {W : Worker} {w : Nat} {cap : Capacity}

namespace Shared

/-- `Shared::prepare_task`: the counter's overflow panics before anything changes. -/
def prepareTask (s : Shared W w cap) (input : W.Input) (outcomeTx : Option OutcomeSender) :
    Option (Task W w) × Shared W w cap :=
  match s.numTasks.incrementLeft 1 with
  | .ok numTasks =>
    let index := s.nextTaskIndex
    (some ⟨input, .new index, outcomeTx⟩, { s with numTasks, nextTaskIndex := index + 1 })
  | .error _ => (none, s)

end Shared

/-- The iterator `Shared::prepare_batch` returns: the inputs left, the reserved indices left
(the range `start..stop`) and the sender every task gets. -/
structure BatchIter (W : Worker) (w : Nat) where
  inputs : List W.Input
  start : BitVec w
  stop : BitVec w
  outcomeTx : Option OutcomeSender

namespace Shared

/-- `Shared::prepare_batch`: reserves `min_size` queued slots and indices, then builds the
iterator. The counter's overflow panics before anything changes; the overflow of
`index_start + min_size` panics after both have been advanced. -/
def prepareBatch (s : Shared W w cap) (minSize : BitVec w) (inputs : List W.Input)
    (outcomeTx : Option OutcomeSender) : Option (BatchIter W w) × Shared W w cap :=
  match s.numTasks.incrementLeft minSize.toNat with
  | .ok numTasks =>
    let indexStart := s.nextTaskIndex
    let s := { s with numTasks, nextTaskIndex := indexStart + minSize }
    if indexStart.toNat + minSize.toNat < 2 ^ w then
      (some ⟨inputs, indexStart, indexStart + minSize, outcomeTx⟩, s)
    else (none, s)
  | .error _ => (none, s)

end Shared

namespace BatchIter

/-- One `next()`: an input and a reserved index make a task; an input past the reserved
indices goes through `prepare_task`; reserved indices past the inputs panic ("batch contained
fewer than {min_size} items"); the iterator ends when both run out. The result is `none` for
a panic and `some none` for the end. -/
def next (b : BatchIter W w) (s : Shared W w cap) :
    Option (Option (Task W w × BatchIter W w)) × Shared W w cap :=
  match b.inputs, decide (b.start < b.stop) with
  | input :: inputs, true =>
    (some (some (⟨input, .new b.start, b.outcomeTx⟩, { b with inputs, start := b.start + 1 })), s)
  | input :: inputs, false =>
    match s.prepareTask input b.outcomeTx with
    | (some task, s) => (some (some (task, { b with inputs })), s)
    | (none, s) => (none, s)
  | [], true => (none, s)
  | [], false => (some none, s)

end BatchIter

def Shared.prepareTasks (s : Shared W w cap) (outcomeTx : Option OutcomeSender) :
    List W.Input → Option (List (Task W w)) × Shared W w cap
  | [] => (some [], s)
  | input :: inputs =>
    match s.prepareTask input outcomeTx with
    | (some task, s) =>
      let (tasks, s) := s.prepareTasks outcomeTx inputs
      (tasks.map (task :: ·), s)
    | (none, s) => (none, s)

/-! ## The batch agrees with one-at-a-time submission -/

def Shared.reserve (s : Shared W w cap) (n : Nat) (fits : s.numTasks.left + n ≤ cap.left) :
    Shared W w cap :=
  { s with
    numTasks := { s.numTasks with left := s.numTasks.left + n, left_le := fits }
    nextTaskIndex := s.nextTaskIndex + BitVec.ofNat w n }

namespace Shared

variable {s : Shared W w cap} {input : W.Input} {tx : Option OutcomeSender}

theorem prepareTask_ok (fits : s.numTasks.left + 1 ≤ cap.left) :
    s.prepareTask input tx = (some ⟨input, .new s.nextTaskIndex, tx⟩, s.reserve 1 fits) := by
  simp only [prepareTask, DualCounter.incrementLeft, dif_pos fits]
  rfl

theorem prepareBatch_ok {minSize : BitVec w} {inputs : List W.Input}
    (fits : s.numTasks.left + minSize.toNat ≤ cap.left)
    (inRange : s.nextTaskIndex.toNat + minSize.toNat < 2 ^ w) :
    s.prepareBatch minSize inputs tx =
      (some ⟨inputs, s.nextTaskIndex, s.nextTaskIndex + minSize, tx⟩, s.reserve minSize.toNat fits) := by
  simp only [prepareBatch, DualCounter.incrementLeft, dif_pos fits, if_pos inRange, reserve,
    BitVec.ofNat_toNat, BitVec.setWidth_eq]

theorem prepareTask_cases (s : Shared W w cap) (input : W.Input) (tx : Option OutcomeSender) :
    (∃ fits, s.prepareTask input tx = (some ⟨input, .new s.nextTaskIndex, tx⟩, s.reserve 1 fits)) ∨
      (cap.left < s.numTasks.left + 1 ∧ s.prepareTask input tx = (none, s)) := by
  by_cases fits : s.numTasks.left + 1 ≤ cap.left
  · exact .inl ⟨fits, prepareTask_ok fits⟩
  · exact .inr ⟨by omega, by simp [prepareTask, DualCounter.incrementLeft, fits]⟩

theorem prepareBatch_cases (s : Shared W w cap) (minSize : BitVec w) (inputs : List W.Input)
    (tx : Option OutcomeSender) :
    (∃ fits, s.nextTaskIndex.toNat + minSize.toNat < 2 ^ w ∧ s.prepareBatch minSize inputs tx =
      (some ⟨inputs, s.nextTaskIndex, s.nextTaskIndex + minSize, tx⟩, s.reserve minSize.toNat fits)) ∨
    (∃ fits, 2 ^ w ≤ s.nextTaskIndex.toNat + minSize.toNat ∧
      s.prepareBatch minSize inputs tx = (none, s.reserve minSize.toNat fits)) ∨
    (cap.left < s.numTasks.left + minSize.toNat ∧ s.prepareBatch minSize inputs tx = (none, s)) := by
  by_cases fits : s.numTasks.left + minSize.toNat ≤ cap.left
  · by_cases inRange : s.nextTaskIndex.toNat + minSize.toNat < 2 ^ w
    · exact .inl ⟨fits, inRange, prepareBatch_ok fits inRange⟩
    · refine .inr (.inl ⟨fits, by omega, ?_⟩)
      simp only [prepareBatch, DualCounter.incrementLeft, dif_pos fits, if_neg inRange, reserve,
        BitVec.ofNat_toNat, BitVec.setWidth_eq]
  · exact .inr (.inr ⟨by omega, by simp [prepareBatch, DualCounter.incrementLeft, fits]⟩)

end Shared

namespace BatchIter

variable {s : Shared W w cap} {tx : Option OutcomeSender} {start stop : BitVec w}

theorem next_cases (b : BatchIter W w) (s : Shared W w cap) :
    (∃ input inputs, b.inputs = input :: inputs ∧ b.start < b.stop ∧
      b.next s = (some (some (⟨input, .new b.start, b.outcomeTx⟩,
        { b with inputs, start := b.start + 1 })), s)) ∨
    (∃ input inputs fits, b.inputs = input :: inputs ∧ ¬b.start < b.stop ∧
      b.next s = (some (some (⟨input, .new s.nextTaskIndex, b.outcomeTx⟩, { b with inputs })),
        s.reserve 1 fits)) ∨
    b.next s = (none, s) ∨ b.next s = (some none, s) := by
  obtain ⟨_ | ⟨input, inputs⟩, start, stop, tx⟩ := b
  · by_cases lt : start < stop <;> simp [next, lt]
  · by_cases lt : start < stop
    · exact .inl ⟨input, inputs, rfl, lt, by simp [next, lt]⟩
    · rcases s.prepareTask_cases input tx with ⟨fits, prepared⟩ | ⟨-, prepared⟩
      · exact .inr (.inl ⟨input, inputs, fits, rfl, lt, by simp [next, lt, prepared]⟩)
      · exact .inr (.inr (.inl (by simp [next, lt, prepared])))

end BatchIter

/-- On a 64-bit target with the index counter at `usize::MAX`, a batch of one input with
`min_size` 1 panics on `index_start + min_size` after reserving a queued slot, where one call
of `prepare_task` yields the task with index `usize::MAX`. -/
theorem prepare_batch_panics_at_top_index :
    let s : Shared ⟨Unit, Unit, Unit⟩ 64 ⟨1, 0⟩ :=
      { Shared.new ⟨.unsync none, .unsync none, .unsync none⟩ with nextTaskIndex := .allOnes 64 }
    (s.prepareBatch 1 [()] none).1 = none ∧ (s.prepareBatch 1 [()] none).2.numTasks.left = 1 ∧
      (s.prepareTasks none [()]).1 = some [⟨(), .new (.allOnes 64), none⟩] :=
  ⟨rfl, rfl, rfl⟩

end Procpool
