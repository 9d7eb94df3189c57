import Procpool.Atomic
import Procpool.Hive.Task

/-! Retrying failed tasks: the configuration, the queue of delayed tasks, the hint `next_retry`
and the backoff delay of `Shared::queue_retry`, in nanoseconds. -/
namespace Procpool

variable {W : Worker} {w : Nat}

/-- Modelled from the spec: the `Config` of `hive/config.rs`, with the fields the modelled
functions read. -/
structure Config (w : Nat) where
  numThreads : AtomicOption (BitVec w) (AtomicUsize w)
  maxRetries : AtomicOption (BitVec 32) AtomicU32
  retryFactor : AtomicOption (BitVec 64) AtomicU64

def DueBy (a b : Nat × Task W w) : Prop := a.1 ≤ b.1

instance : DecidableRel (DueBy (W := W) (w := w)) := fun a b => Nat.decLe a.1 b.1
instance : IsTotal (Nat × Task W w) DueBy := ⟨fun a b => Nat.le_total a.1 b.1⟩
instance : IsTrans (Nat × Task W w) DueBy := ⟨fun _ _ _ => Nat.le_trans⟩

/-- Modelled from the spec: the `RetryQueue`, a min-heap of tasks by the instant they become
available, kept as a list sorted by that instant. -/
structure RetryQueue (W : Worker) (w : Nat) where
  entries : List (Nat × Task W w)
  sorted : entries.Sorted DueBy

namespace RetryQueue

def empty : RetryQueue W w := ⟨[], List.sorted_nil⟩

def push (queue : RetryQueue W w) (task : Task W w) (delay now : Nat) : Nat × RetryQueue W w :=
  (now + delay, ⟨queue.entries.orderedInsert DueBy (now + delay, task),
    queue.sorted.orderedInsert _ _⟩)

def tryPop (queue : RetryQueue W w) (now : Nat) : Option (Task W w × RetryQueue W w) :=
  match queue with
  | ⟨(at_, task) :: rest, sorted⟩ =>
    if at_ ≤ now then some (task, ⟨rest, sorted.of_cons⟩) else none
  | ⟨[], _⟩ => none

def nextAvailable (queue : RetryQueue W w) : Option Nat := (queue.entries.head?).map (·.1)

def drain (queue : RetryQueue W w) : List (Task W w) × RetryQueue W w :=
  (queue.entries.map (·.2), empty)

@[simp] theorem length_push (queue : RetryQueue W w) (task : Task W w) (delay now : Nat) :
    (queue.push task delay now).2.entries.length = queue.entries.length + 1 :=
  List.orderedInsert_length _ _ _

theorem tryPop_eq_some {queue queue' : RetryQueue W w} {now : Nat} {task : Task W w}
    (h : queue.tryPop now = some (task, queue')) :
    ∃ at_, at_ ≤ now ∧ queue.entries = (at_, task) :: queue'.entries := by
  obtain ⟨_ | ⟨⟨at_, task'⟩, rest⟩, sorted⟩ := queue
  · cases h
  · simp only [tryPop] at h
    split at h
    · cases h; exact ⟨at_, ‹_›, rfl⟩
    · cases h

end RetryQueue

/-- `Shared::update_next_retry`: a new instant replaces the hint only if it is earlier; `None`
clears it. -/
def updateNextRetry (nextRetry instant : Option Nat) : Option Nat :=
  match instant with
  | some newVal =>
    if (nextRetry.map fun curVal => decide (newVal < curVal)).getD true then some newVal
    else nextRetry
  | none => none

def canRetry (config : Config w) (ctx : Context w) : Bool :=
  (config.maxRetries.get.map fun maxRetries => decide (ctx.attempt < maxRetries)).getD false

def checkedPow (base : BitVec 64) (exp : BitVec 32) : Option (BitVec 64) :=
  if base.toNat ^ exp.toNat < 2 ^ 64 then some (BitVec.ofNat 64 (base.toNat ^ exp.toNat)) else none

def checkedMul (a b : BitVec 64) : Option (BitVec 64) :=
  if a.toNat * b.toNat < 2 ^ 64 then some (a * b) else none

/-- `u32` subtraction with overflow checks: `none` is the panic. -/
def checkedSub (a b : BitVec 32) : Option (BitVec 32) :=
  if b ≤ a then some (a - b) else none

/-- The delay, in nanoseconds, that `Shared::queue_retry` computes for a task at `attempt`;
`none` is a panic, of the subtraction or of the `unwrap`. -/
def retryDelay (config : Config w) (attempt : BitVec 32) : Option (BitVec 64) :=
  match config.retryFactor.get with
  | some retryFactor => (checkedSub attempt 1).bind fun exp =>
    (checkedPow 2 exp).bind fun multiplier =>
      ((checkedMul retryFactor multiplier).or (some (BitVec.allOnes 64)))
  | none => some 0

theorem checkedSub_one {a : BitVec 32} (pos : 1 ≤ a.toNat) :
    checkedSub a 1 = some (a - 1) ∧ (a - 1).toNat = a.toNat - 1 := by
  refine ⟨if_pos (by simpa [BitVec.le_def] using pos), ?_⟩
  simp only [BitVec.toNat_sub, BitVec.ofNat_eq_ofNat, BitVec.toNat_ofNat]
  omega

theorem checkedPow_two (exp : BitVec 32) :
    checkedPow 2 exp = if exp.toNat < 64 then some (BitVec.ofNat 64 (2 ^ exp.toNat)) else none := by
  have pow : 2 ^ exp.toNat < 2 ^ 64 ↔ exp.toNat < 64 := Nat.pow_lt_pow_iff_right (by omega)
  simp only [checkedPow, BitVec.ofNat_eq_ofNat, BitVec.toNat_ofNat, Nat.reduceMod, pow]

theorem retryDelay_panics {config : Config w} {factor : BitVec 64}
    (set : config.retryFactor.get = some factor) {attempt : BitVec 32}
    (large : 65 ≤ attempt.toNat) : retryDelay config attempt = none := by
  obtain ⟨sub, subNat⟩ := checkedSub_one (a := attempt) (by omega)
  simp only [retryDelay, set, sub, Option.some_bind, checkedPow_two, subNat,
    if_neg (show ¬attempt.toNat - 1 < 64 by omega), Option.none_bind]

/-- A hive whose tasks may be retried 65 times, one nanosecond apart at first: the worker
raises the attempt to 65 and `queue_retry` panics instead of saturating the delay. -/
theorem queue_retry_panics_at_attempt_65 :
    retryDelay (⟨.unsync none, .unsync (some 65), .unsync (some 1)⟩ : Config 64) 65 = none := by
  have set : (⟨.unsync none, .unsync (some 65), .unsync (some 1)⟩ : Config 64).retryFactor.get = some 1 :=
    rfl
  exact retryDelay_panics set (by decide)

end Procpool
