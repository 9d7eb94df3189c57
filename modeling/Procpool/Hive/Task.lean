import Mathlib

/-! Tasks, outcomes and where an outcome goes. The types follow the specification; the routing
functions are translated from `hive/shared.rs`, with `usize` a `w`-bit vector. -/
namespace Procpool

/-- The associated types of the `Worker` trait. -/
structure Worker where
  Input : Type
  Output : Type
  Error : Type

variable {W : Worker} {w : Nat}

structure OutcomeSender where
  receiver : Nat
  deriving DecidableEq, Repr

/-- Modelled from the spec: the execution context of a task. The shared `suspended` flag it
also carries is read by no modelled function. -/
structure Context (w : Nat) where
  index : BitVec w
  attempt : BitVec 32
  deriving DecidableEq, Repr

def Context.new (index : BitVec w) : Context w := ⟨index, 0⟩

structure Task (W : Worker) (w : Nat) where
  input : W.Input
  ctx : Context w
  outcomeTx : Option OutcomeSender

def Task.index (task : Task W w) : BitVec w := task.ctx.index

inductive Outcome (W : Worker) (w : Nat) where
  | success (index : BitVec w) (value : W.Output)
  | failure (index : BitVec w) (error : W.Error)
  | panic (index : BitVec w) (payload : String)
  | unprocessed (index : BitVec w) (input : W.Input)
  | maxRetriesAttempted (index : BitVec w) (input : W.Input) (lastError : W.Error)

def Outcome.index : Outcome W w → BitVec w
  | .success index _ | .failure index _ | .panic index _ | .unprocessed index _
  | .maxRetriesAttempted index _ _ => index

abbrev Outcomes (W : Worker) (w : Nat) := AList fun _ : BitVec w => Outcome W w

/-- Modelled from the spec: the receiving ends of the outcome channels. A receiver in
`dropped` has hung up; `delivered` lists what was sent, in order. -/
structure Channels (W : Worker) (w : Nat) where
  dropped : List Nat
  delivered : List (OutcomeSender × Outcome W w)

/-- Modelled from the spec: `SenderExt::try_send_msg`, which gives the message back if the
send fails. -/
def Channels.trySendMsg (chans : Channels W w) (tx : OutcomeSender) (outcome : Outcome W w) :
    Option (Outcome W w) × Channels W w :=
  if tx.receiver ∈ chans.dropped then (some outcome, chans)
  else (none, { chans with delivered := chans.delivered ++ [(tx, outcome)] })

def Task.intoUnprocessedTrySend (task : Task W w) (chans : Channels W w) :
    Option (Outcome W w) × Channels W w :=
  match task.outcomeTx with
  | some tx => chans.trySendMsg tx (.unprocessed task.index task.input)
  | none => (some (.unprocessed task.index task.input), chans)

def addOutcome (outcome : Outcome W w) (outcomes : Outcomes W w) : Outcomes W w :=
  outcomes.insert outcome.index outcome

def sendOrStoreOutcome (outcome : Outcome W w) (outcomeTx : Option OutcomeSender)
    (outcomes : Outcomes W w) (chans : Channels W w) : Outcomes W w × Channels W w :=
  let (unsent, chans) := match outcomeTx with
    | some tx => chans.trySendMsg tx outcome
    | none => (some outcome, chans)
  match unsent with
  | some outcome => (addOutcome outcome outcomes, chans)
  | none => (outcomes, chans)

/-- `send_or_store`: every task becomes `Unprocessed`, and what its sender did not take is
inserted under the outcome's index. -/
def sendOrStore : List (Task W w) → Outcomes W w → Channels W w → Outcomes W w × Channels W w
  | [], outcomes, chans => (outcomes, chans)
  | task :: tasks, outcomes, chans =>
    match task.intoUnprocessedTrySend chans with
    | (some outcome, chans) => sendOrStore tasks (outcomes.insert outcome.index outcome) chans
    | (none, chans) => sendOrStore tasks outcomes chans

end Procpool
