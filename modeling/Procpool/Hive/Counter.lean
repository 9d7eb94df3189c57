import Mathlib

/-! The `(queued, active)` task counter. `hive/counter.rs` is not among the sources, so it follows
the specification, with the two capacities a parameter of the whole model. -/
namespace Procpool

/-- Modelled from the spec: the capacities of the two fields of the `DualCounter` of
`hive/counter.rs`, which `src` does not hold. -/
structure Capacity where
  left : Nat
  right : Nat
  deriving DecidableEq, Repr

inductive CounterError where
  | overflow
  | underflow
  deriving DecidableEq, Repr

/-- Modelled from the spec: the `DualCounter` of `hive/counter.rs`, with `left` the queued
tasks and `right` the active ones. A counter over its capacity cannot be built. -/
structure DualCounter (cap : Capacity) where
  left : Nat
  right : Nat
  left_le : left ≤ cap.left
  right_le : right ≤ cap.right
  deriving DecidableEq

namespace DualCounter

variable {cap : Capacity} (c : DualCounter cap) (n : Nat)

instance : Inhabited (DualCounter cap) := ⟨⟨0, 0, Nat.zero_le _, Nat.zero_le _⟩⟩

@[simp] theorem default_left : (default : DualCounter cap).left = 0 := rfl
@[simp] theorem default_right : (default : DualCounter cap).right = 0 := rfl

def incrementLeft : Except CounterError (DualCounter cap) :=
  if h : c.left + n ≤ cap.left then .ok { c with left := c.left + n, left_le := h }
  else .error .overflow

def decrementRight : Except CounterError (DualCounter cap) :=
  if h : n ≤ c.right then .ok { c with right := c.right - n, right_le := by have := c.right_le; omega }
  else .error .underflow

/-- Modelled from the spec: moves `n` tasks from queued to active, failing if fewer are queued
or if the active count would overflow. -/
def transfer : Except CounterError (DualCounter cap) :=
  if h : n ≤ c.left then
    if h' : c.right + n ≤ cap.right then
      .ok ⟨c.left - n, c.right + n, by have := c.left_le; omega, h'⟩
    else .error .overflow
  else .error .underflow

variable {c n} {c' : DualCounter cap}

theorem incrementLeft_ok : c.incrementLeft n = .ok c' ↔
    c.left + n ≤ cap.left ∧ c'.left = c.left + n ∧ c'.right = c.right := by
  unfold incrementLeft
  split
  · constructor
    · rintro ⟨⟩; exact ⟨‹_›, rfl, rfl⟩
    · rintro ⟨-, left, right⟩
      cases c'; cases left; cases right; rfl
  · simp only [reduceCtorEq, false_iff, not_and]; intro; contradiction

theorem decrementRight_ok : c.decrementRight n = .ok c' ↔
    n ≤ c.right ∧ c'.left = c.left ∧ c'.right = c.right - n := by
  unfold decrementRight
  split
  · constructor
    · rintro ⟨⟩; exact ⟨‹_›, rfl, rfl⟩
    · rintro ⟨-, left, right⟩
      cases c'; cases left; cases right; rfl
  · simp only [reduceCtorEq, false_iff, not_and]; intro; contradiction

theorem transfer_ok : c.transfer n = .ok c' ↔
    n ≤ c.left ∧ c.right + n ≤ cap.right ∧ c'.left = c.left - n ∧ c'.right = c.right + n := by
  unfold transfer
  split
  · split
    · constructor
      · rintro ⟨⟩; exact ⟨‹_›, ‹_›, rfl, rfl⟩
      · rintro ⟨-, -, left, right⟩
        cases c'; cases left; cases right; rfl
    · simp only [reduceCtorEq, false_iff, not_and]; intros; contradiction
  · simp only [reduceCtorEq, false_iff, not_and]; intro; contradiction

end DualCounter

end Procpool
