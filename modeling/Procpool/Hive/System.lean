import Procpool.Hive.Admission

/-! The hive as a system of threads around one `Shared` record, one step per lock or atomic the
code holds; the worker loop of `hive/mod.rs` follows the specification, and `retry` selects the build. -/
namespace Procpool

variable {W : Worker} {w : Nat} {cap : Capacity}

inductive Processed (W : Worker) where
  | success (value : W.Output)
  | retryable (error : W.Error)
  | fatal (error : W.Error)
  | panicked (payload : String)

/-- Where a worker thread is. -/
inductive Phase (W : Worker) (w : Nat) where
  /-- At the top of `next_task`'s loop, about to check the resume gate. -/
  | top
  /-- Waiting on the resume gate. -/
  | parked
  /-- Past the resume gate, about to check `poisoned`. -/
  | awake
  /-- About to read `next_retry` (retry build) or to receive. -/
  | polling
  /-- Holding the retry queue's lock, about to `try_pop`. -/
  | popping
  /-- In `recv_timeout` on the task channel. -/
  | receiving
  /-- Holding a task it received or popped, about to `transfer` it. -/
  | received (task : Task W w)
  /-- `next_task` returned the task; the processor runs it. -/
  | running (task : Task W w)
  /-- About to call `finish_task`. -/
  | finishing (panicking : Bool)
  /-- In `finish_task`, about to check `has_work` and notify the join gate. -/
  | notifying
  /-- `next_task` returned an error; the thread has ended. -/
  | exited
  /-- A panic outside the processor ended the thread while its task counted as active. -/
  | crashed

namespace Phase

@[simp] def holds : Phase W w → Bool
  | .running _ | .finishing _ | .crashed => true
  | _ => false

@[simp] def isReceived : Phase W w → Bool
  | .received _ => true
  | _ => false

@[simp] def isParked : Phase W w → Bool
  | .parked => true
  | _ => false

end Phase

/-- Where a thread in `Shared::wait_on_done` is. -/
inductive Joiner where
  /-- About to evaluate `has_work` under the join gate's lock. -/
  | checking
  /-- Waiting on the join gate. -/
  | blocked
  /-- `wait_on_done` returned. -/
  | returned
  deriving DecidableEq, Repr

/-- The hive and the threads around it. `unsent` holds the tasks submitters have prepared and
not yet sent; `batches` the live `prepare_batch` iterators with the ghost position of their
next reserved index; `chans` the outcome channels; `disconnected` whether the task sender has
been dropped. `reserved`, `issued` and `lost` are ghost state: the indices reserved so far,
each issued index with its reservation position, and the index of each task a worker dropped. -/
structure System (W : Worker) (w : Nat) (cap : Capacity) where
  shared : Shared W w cap
  unsent : List (Task W w)
  batches : List (BatchIter W w × Nat)
  workers : List (Phase W w)
  joiners : List Joiner
  chans : Channels W w
  now : Nat
  disconnected : Bool
  reserved : Nat
  issued : List (BitVec w × Nat)
  lost : List (BitVec w)

inductive Action (W : Worker) (w : Nat) where
  | prepareTask (input : W.Input) (outcomeTx : Option OutcomeSender)
  | prepareBatch (minSize : BitVec w) (inputs : List W.Input) (outcomeTx : Option OutcomeSender)
  | batchNext (k : Nat)
  | send (k : Nat)
  | hangUp
  | spawn
  | advance (i : Nat)
  | complete (i : Nat) (processed : Processed W)
  | join
  | recheck (j : Nat)
  | setSuspended (suspended : Bool)
  | poison
  | drain
  | tick
  | dropReceiver (receiver : Nat)

def Action.submits : Action W w → Bool
  | .prepareTask _ _ | .prepareBatch _ _ _ | .batchNext _ => true
  | _ => false

/-- `resume_gate.notify_all()`: every parked worker checks the gate again. -/
def resumeAll (workers : List (Phase W w)) : List (Phase W w) :=
  workers.map fun phase => if phase.isParked then .top else phase

/-- `join_gate.notify_all()`: every blocked joiner evaluates `has_work` again. -/
def joinAll (joiners : List Joiner) : List Joiner :=
  joiners.map fun j => if j = .blocked then .checking else j

namespace Shared

def drainNoRetry (s : Shared W w cap) (chans : Channels W w) : Shared W w cap × Channels W w :=
  let (outcomes, chans) := sendOrStore s.taskRx s.outcomes chans
  ({ s with taskRx := [], outcomes }, chans)

/-- `drain_tasks_into_unprocessed` of the `retry` module: the channel, then the retry queue. -/
def drainRetry (s : Shared W w cap) (chans : Channels W w) : Shared W w cap × Channels W w :=
  let (outcomes, chans) := sendOrStore s.taskRx s.outcomes chans
  let (tasks, retryQueue) := s.retryQueue.drain
  let (outcomes, chans) := sendOrStore tasks outcomes chans
  ({ s with taskRx := [], outcomes, retryQueue }, chans)

theorem drainNoRetry_eq (s : Shared W w cap) (chans : Channels W w) :
    s.drainNoRetry chans = ({ s with taskRx := [], outcomes := (sendOrStore s.taskRx s.outcomes chans).1 },
      (sendOrStore s.taskRx s.outcomes chans).2) := rfl

theorem drainRetry_eq (s : Shared W w cap) (chans : Channels W w) :
    s.drainRetry chans =
      let channel := sendOrStore s.taskRx s.outcomes chans
      let queue := sendOrStore (s.retryQueue.entries.map (·.2)) channel.1 channel.2
      ({ s with taskRx := [], outcomes := queue.1, retryQueue := .empty }, queue.2) := rfl

def drainTasksIntoUnprocessed (retry : Bool) (s : Shared W w cap) (chans : Channels W w) :
    Shared W w cap × Channels W w :=
  if retry then s.drainRetry chans else s.drainNoRetry chans

end Shared

namespace System

def setWorker (s : System W w cap) (i : Nat) (phase : Phase W w) : System W w cap :=
  { s with workers := s.workers.set i phase }

section SetWorker

variable (s : System W w cap) (i : Nat) (phase : Phase W w)

@[simp] theorem setWorker_shared : (s.setWorker i phase).shared = s.shared := rfl
@[simp] theorem setWorker_unsent : (s.setWorker i phase).unsent = s.unsent := rfl
@[simp] theorem setWorker_batches : (s.setWorker i phase).batches = s.batches := rfl
@[simp] theorem setWorker_workers : (s.setWorker i phase).workers = s.workers.set i phase := rfl
@[simp] theorem setWorker_joiners : (s.setWorker i phase).joiners = s.joiners := rfl

end SetWorker

def init (config : Config w) : System W w cap :=
  ⟨.new config, [], [], [], [], ⟨[], []⟩, 0, false, 0, [], []⟩

def store (s : System W w cap) (i : Nat) (task : Task W w) (outcome : Outcome W w)
    (panicking : Bool) : System W w cap :=
  let (outcomes, chans) := sendOrStoreOutcome outcome task.outcomeTx s.shared.outcomes s.chans
  { s with shared := { s.shared with outcomes }, chans }.setWorker i (.finishing panicking)

/-- Worker `i`'s processor returns `processed` for `task`: a retryable error is queued again
when the build retries and `can_retry` allows it, and otherwise every result becomes an
outcome. -/
def handle (retry : Bool) (s : System W w cap) (i : Nat) (task : Task W w) :
    Processed W → System W w cap
  | .success value => s.store i task (.success task.index value) false
  | .fatal error => s.store i task (.failure task.index error) false
  | .panicked payload => s.store i task (.panic task.index payload) true
  | .retryable error =>
    if retry then
      if canRetry s.shared.config task.ctx then
        let ctx := { task.ctx with attempt := task.ctx.attempt + 1 }
        match s.shared.queueRetry task.input ctx task.outcomeTx s.now with
        | some shared => { s with shared }.setWorker i (.finishing false)
        | none => { s with lost := s.lost ++ [task.index] }.setWorker i .crashed
      else s.store i task (.maxRetriesAttempted task.index task.input error) false
    else s.store i task (.failure task.index error) false

/-- One step of worker `i` other than its processor returning; `none` if it has none. -/
def advance (retry : Bool) (s : System W w cap) (i : Nat) : Option (System W w cap) :=
  match s.workers[i]? with
  | some .top => some (s.setWorker i (if s.shared.suspended then .parked else .awake))
  | some .awake => some (s.setWorker i (if s.shared.poisoned then .exited else .polling))
  | some .polling =>
    some (s.setWorker i
      (if retry && (s.shared.nextRetry.map fun at_ => decide (at_ ≤ s.now)).getD false
        then .popping else .receiving))
  | some .popping =>
    match s.shared.retryQueue.tryPop s.now with
    | some (task, queue) =>
      some ({ s with shared := { s.shared with
        retryQueue := queue
        nextRetry := updateNextRetry s.shared.nextRetry queue.nextAvailable } }.setWorker i
          (.received task))
    | none => some (s.setWorker i .receiving)
  | some .receiving =>
    match s.shared.taskRx with
    | task :: rest =>
      some ({ s with shared := { s.shared with taskRx := rest } }.setWorker i (.received task))
    | [] => some (s.setWorker i (if s.disconnected then .exited else .top))
  | some (.received task) =>
    match s.shared.numTasks.transfer 1 with
    | .ok numTasks => some ({ s with shared := { s.shared with numTasks } }.setWorker i (.running task))
    | .error _ =>
      some ({ s with
        shared := { s.shared with poisoned := s.shared.poisoned || !retry }
        lost := s.lost ++ [task.index] }.setWorker i .exited)
  | some (.finishing panicking) =>
    match s.shared.finishTask panicking with
    | some shared => some ({ s with shared }.setWorker i .notifying)
    | none => some (s.setWorker i .crashed)
  | some .notifying =>
    some ({ s with joiners := if s.shared.hasWork then s.joiners else joinAll s.joiners }.setWorker i
      .top)
  | _ => none

/-- The step of the system by `action`; `none` if the action cannot be taken. -/
def step (retry : Bool) (s : System W w cap) : Action W w → Option (System W w cap)
  | .prepareTask input tx =>
    if s.disconnected then none else
    match s.shared.prepareTask input tx with
    | (some task, shared) => some { s with
        shared
        unsent := s.unsent ++ [task]
        reserved := s.reserved + 1
        issued := s.issued ++ [(task.index, s.reserved)] }
    | (none, shared) => some { s with shared }
  | .prepareBatch minSize inputs tx =>
    if s.disconnected then none else
    let reserved := match s.shared.numTasks.incrementLeft minSize.toNat with
      | .ok _ => s.reserved + minSize.toNat
      | .error _ => s.reserved
    match s.shared.prepareBatch minSize inputs tx with
    | (some b, shared) => some { s with shared, batches := s.batches ++ [(b, s.reserved)], reserved }
    | (none, shared) => some { s with shared, reserved }
  | .batchNext k =>
    match s.batches[k]? with
    | some (b, position) =>
      match b.next s.shared with
      | (some (some (task, b')), shared) =>
        if b.start < b.stop then
          some { s with
            shared
            unsent := s.unsent ++ [task]
            batches := s.batches.set k (b', position + 1)
            issued := s.issued ++ [(task.index, position)] }
        else
          some { s with
            shared
            unsent := s.unsent ++ [task]
            batches := s.batches.set k (b', position)
            reserved := s.reserved + 1
            issued := s.issued ++ [(task.index, s.reserved)] }
      | (_, shared) => some { s with shared, batches := s.batches.eraseIdx k }
    | none => none
  | .send k =>
    match s.unsent[k]? with
    | some task => some { s with
        unsent := s.unsent.eraseIdx k
        shared := { s.shared with taskRx := s.shared.taskRx ++ [task] } }
    | none => none
  | .hangUp => if s.unsent.isEmpty && s.batches.isEmpty then some { s with disconnected := true } else none
  | .spawn => some { s with workers := s.workers ++ [.top] }
  | .advance i => s.advance retry i
  | .complete i processed =>
    match s.workers[i]? with
    | some (.running task) => some (s.handle retry i task processed)
    | _ => none
  | .join => some { s with joiners := s.joiners ++ [.checking] }
  | .recheck j =>
    match s.joiners[j]? with
    | some .checking =>
      some { s with joiners := s.joiners.set j (if s.shared.hasWork then .blocked else .returned) }
    | _ => none
  | .setSuspended suspended =>
    let (changed, shared) := s.shared.setSuspended suspended
    some { s with shared, workers := if changed && !suspended then resumeAll s.workers else s.workers }
  | .poison => some { s with shared := { s.shared with poisoned := true } }
  | .drain =>
    if s.shared.poisoned then
      let (shared, chans) := s.shared.drainTasksIntoUnprocessed retry s.chans
      some { s with shared, chans }
    else none
  | .tick => some { s with now := s.now + 1 }
  | .dropReceiver receiver => some { s with chans := { s.chans with dropped := receiver :: s.chans.dropped } }

/-- What a submitter's step can do. -/
inductive Submitted (s : System W w cap) : System W w cap → Prop where
  /-- `prepare_task` takes the next index. -/
  | task (input : W.Input) (tx : Option OutcomeSender) (fits : s.shared.numTasks.left + 1 ≤ cap.left) :
      Submitted s { s with
        shared := s.shared.reserve 1 fits
        unsent := s.unsent ++ [⟨input, .new s.shared.nextTaskIndex, tx⟩]
        reserved := s.reserved + 1
        issued := s.issued ++ [(s.shared.nextTaskIndex, s.reserved)] }
  /-- `prepare_batch` reserves `min_size` indices and returns its iterator. -/
  | batch (minSize : BitVec w) (inputs : List W.Input) (tx : Option OutcomeSender)
      (fits : s.shared.numTasks.left + minSize.toNat ≤ cap.left)
      (inRange : s.shared.nextTaskIndex.toNat + minSize.toNat < 2 ^ w) :
      Submitted s { s with
        shared := s.shared.reserve minSize.toNat fits
        batches := s.batches ++
          [(⟨inputs, s.shared.nextTaskIndex, s.shared.nextTaskIndex + minSize, tx⟩, s.reserved)]
        reserved := s.reserved + minSize.toNat }
  /-- `prepare_batch` reserves and then panics on `index_start + min_size`. -/
  | batchOverflow (minSize : BitVec w) (fits : s.shared.numTasks.left + minSize.toNat ≤ cap.left)
      (outOfRange : 2 ^ w ≤ s.shared.nextTaskIndex.toNat + minSize.toNat) :
      Submitted s { s with
        shared := s.shared.reserve minSize.toNat fits
        reserved := s.reserved + minSize.toNat }
  /-- A batch iterator yields an input with its next reserved index. -/
  | reservedNext (k : Nat) (b : BatchIter W w) (position : Nat) (input : W.Input) (inputs : List W.Input)
      (hb : s.batches[k]? = some (b, position)) (rest : b.inputs = input :: inputs) (lt : b.start < b.stop) :
      Submitted s { s with
        unsent := s.unsent ++ [⟨input, .new b.start, b.outcomeTx⟩]
        batches := s.batches.set k ({ b with inputs, start := b.start + 1 }, position + 1)
        issued := s.issued ++ [(b.start, position)] }
  /-- A batch iterator past its reserved indices calls `prepare_task`. -/
  | excessNext (k : Nat) (b : BatchIter W w) (position : Nat) (input : W.Input) (inputs : List W.Input)
      (hb : s.batches[k]? = some (b, position)) (rest : b.inputs = input :: inputs) (ge : ¬b.start < b.stop)
      (fits : s.shared.numTasks.left + 1 ≤ cap.left) :
      Submitted s { s with
        shared := s.shared.reserve 1 fits
        unsent := s.unsent ++ [⟨input, .new s.shared.nextTaskIndex, b.outcomeTx⟩]
        batches := s.batches.set k ({ b with inputs }, position)
        reserved := s.reserved + 1
        issued := s.issued ++ [(s.shared.nextTaskIndex, s.reserved)] }
  /-- A batch iterator ends, or panics, and is dropped. -/
  | ended (k : Nat) (entry : BatchIter W w × Nat) (hb : s.batches[k]? = some entry) :
      Submitted s { s with batches := s.batches.eraseIdx k }
  /-- The queued counter is full: the call panics and leaves the hive as it was. -/
  | full : Submitted s s

theorem step_submitted {retry : Bool} {a : Action W w} {s s' : System W w cap}
    (h : s.step retry a = some s') (submits : a.submits = true) : Submitted s s' := by
  cases a with
  | prepareTask input tx =>
    simp only [step] at h
    split at h; · cases h
    rcases s.shared.prepareTask_cases input tx with ⟨fits, prepared⟩ | ⟨-, prepared⟩ <;>
      simp only [prepared, Option.some.injEq] at h <;> subst h
    · exact .task input tx fits
    · exact .full
  | prepareBatch minSize inputs tx =>
    simp only [step] at h
    split at h; · cases h
    rcases s.shared.prepareBatch_cases minSize inputs tx with
      ⟨fits, inRange, prepared⟩ | ⟨fits, outOfRange, prepared⟩ | ⟨overflow, prepared⟩ <;>
      simp only [prepared, DualCounter.incrementLeft, Option.some.injEq] at h
    · simp only [dif_pos fits] at h; subst h; exact .batch minSize inputs tx fits inRange
    · simp only [dif_pos fits] at h; subst h; exact .batchOverflow minSize fits outOfRange
    · simp only [dif_neg (Nat.not_le.mpr overflow)] at h; subst h; exact .full
  | batchNext k =>
    cases hb : s.batches[k]? with
    | none => simp [step, hb] at h
    | some entry =>
      obtain ⟨b, position⟩ := entry
      rcases b.next_cases s.shared with ⟨input, inputs, rest, lt, next⟩ |
          ⟨input, inputs, fits, rest, lt, next⟩ | next | next <;>
        simp only [step, hb, next] at h
      · simp only [if_pos lt, Option.some.injEq] at h; subst h
        exact .reservedNext k b position input inputs hb rest lt
      · simp only [if_neg lt, Option.some.injEq] at h; subst h
        exact .excessNext k b position input inputs hb rest lt fits
      all_goals simp only [Option.some.injEq] at h; subst h; exact .ended k _ hb
  | send _ | hangUp | spawn | advance _ | complete _ _ | join | recheck _ | setSuspended _ | poison | drain
    | tick | dropReceiver _ => cases submits

/-- The states a run of steps reaches from a fresh hive. -/
inductive Reachable (retry : Bool) (config : Config w) : System W w cap → Prop where
  | init : Reachable retry config (init config)
  | step {s s' : System W w cap} (a : Action W w) :
      Reachable retry config s → step retry s a = some s' → Reachable retry config s'

def run (retry : Bool) (s : System W w cap) : List (Action W w) → Option (System W w cap)
  | [] => some s
  | a :: actions => (s.step retry a).bind fun s => run retry s actions

theorem run_invariant {retry : Bool} {P : System W w cap → Prop} {allowed : Action W w → Prop}
    (step : ∀ {s s' : System W w cap} {a : Action W w}, allowed a → P s → s.step retry a = some s' → P s') :
    ∀ {actions : List (Action W w)} {s s' : System W w cap},
      (∀ a ∈ actions, allowed a) → P s → run retry s actions = some s' → P s'
  | [], _, _, _, holds, ran => by cases ran; exact holds
  | a :: _, _, _, all, holds, ran => by
    simp only [run, Option.bind_eq_some] at ran
    obtain ⟨_, stepped, rest⟩ := ran
    exact run_invariant step (fun b mem => all b (.tail _ mem)) (step (all a (.head _)) holds stepped) rest

theorem Reachable.run {retry : Bool} {config : Config w} {s s' : System W w cap} {actions : List (Action W w)}
    (reach : Reachable retry config s) (ran : run retry s actions = some s') : Reachable retry config s' :=
  run_invariant (fun _ reach stepped => reach.step _ stepped) (fun _ _ => trivial) reach ran

end System

end Procpool
