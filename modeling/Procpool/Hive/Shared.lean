import Procpool.Hive.Counter
import Procpool.Hive.Retry

/-! The `Shared` record of a hive and its methods that read or flip a field, with the sequences of
`add_threads` and `ensure_threads` calls. -/
namespace Procpool

/-- The `Shared` record, with the fields the modelled methods read. The queen and the
referrer count are read by none of them; the two gates are the waiting threads of the system
model. `taskRx` holds the tasks waiting in the task channel, oldest first. -/
structure Shared (W : Worker) (w : Nat) (cap : Capacity) where
  config : Config w
  numTasks : DualCounter cap
  nextTaskIndex : BitVec w
  numPanics : BitVec w
  poisoned : Bool
  suspended : Bool
  taskRx : List (Task W w)
  outcomes : Outcomes W w
  retryQueue : RetryQueue W w
  nextRetry : Option Nat

namespace Shared

variable {W : Worker} {w : Nat} {cap : Capacity}

def new (config : Config w) : Shared W w cap where
  config := config
  numTasks := default
  nextTaskIndex := 0
  numPanics := 0
  poisoned := false
  suspended := false
  taskRx := []
  outcomes := ∅
  retryQueue := .empty
  nextRetry := none

/-- `Shared::add_threads`; `none` is the panic of the `unwrap`. -/
def addThreads (s : Shared W w cap) (numThreads : BitVec w) : Option (BitVec w × Shared W w cap) :=
  match s.config.numThreads.add numThreads with
  | (.ok prev, cell) => some (prev, { s with config := { s.config with numThreads := cell } })
  | (.error _, _) => none

def ensureThreads (s : Shared W w cap) (numThreads : BitVec w) :
    Option (BitVec w × Shared W w cap) :=
  match s.config.numThreads.setMax numThreads with
  | (.ok prev, cell) => some (prev, { s with config := { s.config with numThreads := cell } })
  | (.error _, _) => none

def hasWork (s : Shared W w cap) : Bool :=
  !s.poisoned && (0 < s.numTasks.right || (!s.suspended && 0 < s.numTasks.left))

/-- `Shared::set_suspended`: whether the flag changed. Waking the workers on the resume gate
when it is cleared is done by the system model. -/
def setSuspended (s : Shared W w cap) (suspended : Bool) : Bool × Shared W w cap :=
  (s.suspended != suspended, { s with suspended })

/-- The counting part of `Shared::finish_task`; `none` is the panic of its `expect`. The
notification of the join gate is done by the system model. -/
def finishTask (s : Shared W w cap) (panicking : Bool) : Option (Shared W w cap) :=
  match s.numTasks.decrementRight 1 with
  | .ok numTasks =>
    some { s with numTasks, numPanics := if panicking then s.numPanics + 1 else s.numPanics }
  | .error _ => none

/-- `Shared::queue_retry`: the task goes back to the retry queue after `delay` and counts as
queued again. `none` is a panic, of the delay or of the counter's overflow, which leaves the
record as it was. -/
def queueRetry (s : Shared W w cap) (input : W.Input) (ctx : Context w)
    (outcomeTx : Option OutcomeSender) (now : Nat) : Option (Shared W w cap) :=
  (retryDelay s.config ctx.attempt).bind fun delay =>
    match s.numTasks.incrementLeft 1 with
    | .ok numTasks =>
      let (availableAt, queue) := s.retryQueue.push ⟨input, ctx, outcomeTx⟩ delay.toNat now
      some { s with
        numTasks
        retryQueue := queue
        nextRetry := updateNextRetry s.nextRetry (some availableAt) }
    | .error _ => none

theorem finishTask_eq_some {s s' : Shared W w cap} {panicking : Bool}
    (h : s.finishTask panicking = some s') :
    ∃ numTasks, s.numTasks.decrementRight 1 = .ok numTasks ∧
      s' = { s with numTasks, numPanics := if panicking then s.numPanics + 1 else s.numPanics } := by
  unfold finishTask at h
  split at h
  · cases h; exact ⟨_, ‹_›, rfl⟩
  · cases h

theorem queueRetry_eq_some {s s' : Shared W w cap} {input : W.Input} {ctx : Context w}
    {outcomeTx : Option OutcomeSender} {now : Nat} (h : s.queueRetry input ctx outcomeTx now = some s') :
    ∃ delay numTasks, retryDelay s.config ctx.attempt = some delay ∧
      s.numTasks.incrementLeft 1 = .ok numTasks ∧
      s' = { s with
        numTasks
        retryQueue := (s.retryQueue.push ⟨input, ctx, outcomeTx⟩ delay.toNat now).2
        nextRetry := updateNextRetry s.nextRetry (some (now + delay.toNat)) } := by
  simp only [queueRetry, Option.bind_eq_some] at h
  obtain ⟨delay, delayed, h⟩ := h
  split at h
  · cases h; exact ⟨delay, _, delayed, ‹_›, rfl⟩
  · cases h

def withThreads (s : Shared W w cap) (p : BitVec w) : Shared W w cap :=
  { s with config := { s.config with numThreads := .sync (some ⟨p⟩) } }

@[simp] theorem withThreads_withThreads (s : Shared W w cap) (p q : BitVec w) :
    (s.withThreads p).withThreads q = s.withThreads q := rfl

end Shared

/-! ## Growing the thread count -/

/-- One call of `add_threads` or `ensure_threads`. -/
inductive ThreadsCall (w : Nat) where
  | add (numThreads : BitVec w)
  | ensure (numThreads : BitVec w)

namespace ThreadsCall

variable {W : Worker} {w : Nat} {cap : Capacity}

def result (p : BitVec w) : ThreadsCall w → BitVec w
  | .add k => p + k
  | .ensure m => if p < m then m else p

def Wraps (p : BitVec w) : ThreadsCall w → Prop
  | .add k => 2 ^ w ≤ p.toNat + k.toNat
  | .ensure _ => False

@[simp] theorem toNat_result_add (p k : BitVec w) :
    (result p (.add k)).toNat = (p.toNat + k.toNat) % 2 ^ w :=
  BitVec.toNat_add ..

@[simp] theorem toNat_result_ensure (p m : BitVec w) :
    (result p (.ensure m)).toNat = max p.toNat m.toNat := by
  by_cases lt : p < m <;> simp only [result, lt, ite_true, ite_false] <;>
    simp only [BitVec.lt_def] at lt <;> omega

theorem le_result (p : BitVec w) (call : ThreadsCall w) (fits : ¬call.Wraps p) :
    p.toNat ≤ (result p call).toNat := by
  cases call with
  | add k =>
    simp only [Wraps, not_le] at fits
    rw [toNat_result_add, Nat.mod_eq_of_lt fits]; omega
  | ensure m => rw [toNat_result_ensure]; exact le_max_left _ _

def call (s : Shared W w cap) : ThreadsCall w → Option (BitVec w × Shared W w cap)
  | .add k => s.addThreads k
  | .ensure m => s.ensureThreads m

theorem call_spec (s : Shared W w cap) {p : BitVec w}
    (synced : s.config.numThreads = .sync (some ⟨p⟩)) (c : ThreadsCall w) :
    call s c = some (p, s.withThreads (result p c)) := by
  cases c with
  | add k => simp only [call, Shared.addThreads, synced]; rfl
  | ensure m =>
    simp only [call, Shared.ensureThreads, synced, AtomicOption.setMax, AtomicOption.mutate]
    by_cases lt : p < m <;> simp [Atomic.setWith, lt, Shared.withThreads, result, ← synced]

def run (s : Shared W w cap) : List (ThreadsCall w) → Option (List (BitVec w) × Shared W w cap)
  | [] => some ([], s)
  | c :: calls =>
    (call s c).bind fun (prev, s) => (run s calls).map fun (prevs, s) => (prev :: prevs, s)

def returns (p : BitVec w) : List (ThreadsCall w) → List (BitVec w)
  | [] => []
  | c :: calls => p :: returns (result p c) calls

def values (p : BitVec w) : List (ThreadsCall w) → List (BitVec w)
  | [] => [p]
  | c :: calls => p :: values (result p c) calls

def NoWrap (p : BitVec w) : List (ThreadsCall w) → Prop
  | [] => True
  | c :: calls => ¬c.Wraps p ∧ NoWrap (result p c) calls

theorem run_spec (s : Shared W w cap) {p : BitVec w}
    (synced : s.config.numThreads = .sync (some ⟨p⟩)) (calls : List (ThreadsCall w)) :
    run s calls = some (returns p calls, s.withThreads (calls.foldl result p)) := by
  induction calls generalizing s p with
  | nil => simp only [run, returns, List.foldl_nil, Shared.withThreads, ← synced]
  | cons c calls ih =>
    simp only [run, call_spec s synced, Option.some_bind, ih (s.withThreads (result p c)) rfl,
      Option.map_some', returns, List.foldl_cons, Shared.withThreads_withThreads]

theorem values_chain (p : BitVec w) (calls : List (ThreadsCall w)) (fits : NoWrap p calls) :
    (values p calls).Chain' fun x y => x.toNat ≤ y.toNat := by
  induction calls generalizing p with
  | nil => exact List.chain'_singleton p
  | cons c calls ih =>
    cases calls with
    | nil => exact List.chain'_pair.mpr (le_result p c fits.1)
    | cons c' calls' => exact (ih (result p c) fits.2).cons (le_result p c fits.1)

end ThreadsCall

section Threads

variable {W : Worker} {w : Nat} {cap : Capacity}

/-- While `num_threads` is a set `Sync` cell, as the builder leaves it, no call of
`add_threads` or `ensure_threads` panics; each returns the previous value `p`, `add_threads(k)`
leaves `p + k` modulo `2^w` and `ensure_threads(m)` leaves `max(p, m)`. Along a sequence whose
`add_threads` calls never wrap, the count never decreases. -/
theorem num_threads_calls (s : Shared W w cap) (p : BitVec w)
    (synced : s.config.numThreads = .sync (some ⟨p⟩)) (calls : List (ThreadsCall w)) :
    ThreadsCall.run s calls =
        some (ThreadsCall.returns p calls, s.withThreads (calls.foldl ThreadsCall.result p)) ∧
      (∀ q k : BitVec w, (ThreadsCall.result q (.add k)).toNat = (q.toNat + k.toNat) % 2 ^ w) ∧
      (∀ q m : BitVec w, (ThreadsCall.result q (.ensure m)).toNat = max q.toNat m.toNat) ∧
      (ThreadsCall.NoWrap p calls →
        (ThreadsCall.values p calls).Chain' fun x y => x.toNat ≤ y.toNat) :=
  ⟨ThreadsCall.run_spec s synced calls, ThreadsCall.toNat_result_add,
    ThreadsCall.toNat_result_ensure, ThreadsCall.values_chain p calls⟩

theorem num_threads_calls_from_four :
    let s : Shared ⟨Unit, Unit, Unit⟩ 64 ⟨1, 1⟩ := .new ⟨.sync (some ⟨4⟩), .unsync none, .unsync none⟩
    let calls : List (ThreadsCall 64) := [.add 2, .ensure 3]
    s.config.numThreads = .sync (some ⟨4⟩) ∧
      (ThreadsCall.run s calls =
          some (ThreadsCall.returns 4 calls, s.withThreads (calls.foldl ThreadsCall.result 4)) ∧
        (∀ q k : BitVec 64, (ThreadsCall.result q (.add k)).toNat = (q.toNat + k.toNat) % 2 ^ 64) ∧
        (∀ q m : BitVec 64, (ThreadsCall.result q (.ensure m)).toNat = max q.toNat m.toNat) ∧
        (ThreadsCall.NoWrap 4 calls → (ThreadsCall.values 4 calls).Chain' fun x y => x.toNat ≤ y.toNat)) :=
  ⟨rfl, num_threads_calls _ 4 rfl _⟩

/-- On a 64-bit target, `add_threads(1)` on a count of `usize::MAX` returns it and wraps the
count to 0. -/
theorem add_threads_wraps_to_zero :
    ThreadsCall.call (Shared.new ⟨.sync (some ⟨.allOnes 64⟩), .unsync none, .unsync none⟩ :
        Shared ⟨Unit, Unit, Unit⟩ 64 ⟨1, 1⟩) (.add 1) =
      some (.allOnes 64, (Shared.new ⟨.sync (some ⟨.allOnes 64⟩), .unsync none, .unsync none⟩ :
        Shared ⟨Unit, Unit, Unit⟩ 64 ⟨1, 1⟩).withThreads 0) := by
  rw [ThreadsCall.call_spec _ rfl]
  rfl

end Threads

end Procpool
