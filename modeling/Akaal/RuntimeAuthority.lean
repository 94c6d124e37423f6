/-
# The runtime authority

`RuntimeAuthority` of `akaalEngine/runtime/api.py` with its admission controller, its registry of
workers and its two executors: a task is admitted, assigned to a worker under a lease, and run by a pool
that calls back when it is done.

* `RuntimeAuthority.submitTask`, `RuntimeAuthority.cancelTask`, `RuntimeAuthority.completionCallback` :
  what the authority does;
* `RuntimeRun.runtimeStep` : the calls, and what happens in the pools between them;
* `RuntimeAuthority.submitTask_cases` : what a submission leaves behind.

Amounts of CPU and memory and the load of a worker are exact numbers; what a task computes, and whether
a pool takes it, are inputs.
-/
import Akaal.ExecutionLeases

open CDC Durability

namespace EngineRuntime

/-! ## Tasks -/

/-- `TaskState`. -/
inductive TaskState where
  | pending
  | admitted
  | assigned
  | running
  | paused
  | cancelling
  | cancelled
  | succeeded
  | failed
  | abandoned
  deriving DecidableEq

/-- `_VALID_TASK_TRANSITIONS`. -/
def TaskState.next : TaskState → List TaskState
  | .pending => [.admitted, .cancelling, .cancelled, .abandoned]
  | .admitted => [.assigned, .cancelling, .cancelled, .failed, .abandoned]
  | .assigned => [.running, .cancelling, .cancelled, .failed, .abandoned]
  | .running => [.paused, .cancelling, .cancelled, .succeeded, .failed, .abandoned]
  | .paused => [.running, .cancelling, .cancelled, .failed, .abandoned]
  | .cancelling => [.cancelled, .failed, .abandoned]
  | .cancelled => []
  | .succeeded => []
  | .failed => [.pending]
  | .abandoned => [.pending]

/-- `validate_task_transition` accepts the transition. -/
def TaskState.mayBecome (current target : TaskState) : Bool :=
  current = target || target ∈ current.next

/-- The states of a task that is done. -/
def TaskState.isTerminal : TaskState → Bool
  | .cancelled | .succeeded | .failed | .abandoned => true
  | _ => false

/-- `ResourceRequirement`. -/
structure ResourceRequirement where
  cpuCores : ℚ
  memoryMb : ℚ
  concurrencySlots : ℤ
  weight : ℤ

/-- `TaskSpec`, as far as the authority reads it; `hasFunc` when it has a function. -/
structure TaskSpec where
  taskId : String
  taskType : String
  hasFunc : Bool
  requiredCapabilities : List String
  cpuCoresRequired : ℚ
  memoryMbRequired : ℚ
  weight : ℤ
  allowCancellation : Bool
  processIsolated : Bool

/-- What a task requires. -/
def TaskSpec.requirement (spec : TaskSpec) : ResourceRequirement where
  cpuCores := spec.cpuCoresRequired
  memoryMb := spec.memoryMbRequired
  concurrencySlots := 1
  weight := spec.weight

/-- `TaskSnapshot`. -/
structure TaskSnapshot where
  taskId : String
  taskType : String
  state : TaskState
  workerId : Option String := none
  leaseId : Option String := none
  attemptId : Option String := none
  fencingEpoch : ℤ := 0
  submittedAt : String
  startedAt : Option String := none
  completedAt : Option String := none
  result : PyValue := .none
  errorMessage : Option String := none

/-- `is_terminal`. -/
def TaskSnapshot.isTerminal (snap : TaskSnapshot) : Bool := snap.state.isTerminal

/-! ## Admission -/

/-- `ResourceBudget`, as far as the controller reads it. -/
structure ResourceBudget where
  maxWorkerSlots : ℤ
  maxCpuCores : ℚ
  maxMemoryMb : ℚ

/-- Why a task is not admitted. -/
inductive AdmissionDenial where
  | draining
  | slotsExhausted (allocated budget : ℤ)
  | cpuExceeded (allocated budget : ℚ)
  | memoryExceeded (allocated budget : ℚ)
  deriving DecidableEq

/-- `ResourceAdmissionController`. -/
structure ResourceAdmissionController where
  budget : ResourceBudget
  allowOversubscription : Bool
  allocatedCpu : ℚ
  allocatedMemoryMb : ℚ
  allocatedSlots : ℤ
  isDraining : Bool

namespace ResourceAdmissionController

variable (c : ResourceAdmissionController) (req : ResourceRequirement)

/-- `evaluate_admission`: why the requirement is not admitted, if it is not. -/
def evaluateAdmission : Option AdmissionDenial :=
  if c.isDraining then some .draining
  else if c.budget.maxWorkerSlots < c.allocatedSlots + req.concurrencySlots then
    some (.slotsExhausted c.allocatedSlots c.budget.maxWorkerSlots)
  else if c.allowOversubscription then none
  else if c.budget.maxCpuCores < c.allocatedCpu + req.cpuCores then
    some (.cpuExceeded c.allocatedCpu c.budget.maxCpuCores)
  else if c.budget.maxMemoryMb < c.allocatedMemoryMb + req.memoryMb then
    some (.memoryExceeded c.allocatedMemoryMb c.budget.maxMemoryMb)
  else none

/-- `allocate`, of a requirement that is admitted. -/
def allocate : ResourceAdmissionController :=
  { c with
    allocatedCpu := c.allocatedCpu + req.cpuCores
    allocatedMemoryMb := c.allocatedMemoryMb + req.memoryMb
    allocatedSlots := c.allocatedSlots + req.concurrencySlots }

/-- `release`. -/
def release : ResourceAdmissionController :=
  { c with
    allocatedCpu := max 0 (c.allocatedCpu - req.cpuCores)
    allocatedMemoryMb := max 0 (c.allocatedMemoryMb - req.memoryMb)
    allocatedSlots := max 0 (c.allocatedSlots - req.concurrencySlots) }

end ResourceAdmissionController

/-! ## Workers -/

/-- `WorkerState`. -/
inductive WorkerState where
  | registered
  | available
  | busy
  | draining
  | unhealthy
  | deregistered
  deriving DecidableEq

/-- `WorkerSpec`, as far as the registry reads it. -/
structure WorkerSpec where
  workerId : String
  nodeId : String
  capabilities : List String
  maxConcurrencySlots : ℤ

/-- `WorkerRegistry`. -/
structure WorkerRegistry where
  workers : PyDict WorkerSpec
  states : PyDict WorkerState
  activeTasks : PyDict (List String)

namespace WorkerRegistry

variable (r : WorkerRegistry)

/-- `register_worker`. -/
def registerWorker (spec : WorkerSpec) : WorkerRegistry where
  workers := r.workers.set spec.workerId spec
  states := r.states.set spec.workerId .available
  activeTasks := r.activeTasks.set spec.workerId []

/-- `deregister_worker`. -/
def deregisterWorker (workerId : String) : WorkerRegistry :=
  if (r.workers.get? workerId).isSome then
    { r with states := r.states.set workerId .deregistered }
  else r

/-- The active tasks of a worker. -/
def tasksOf (workerId : String) : List String := (r.activeTasks.get? workerId).getD []

/-- `assign_task`, of a worker that is registered. -/
def assignTask (spec : WorkerSpec) (taskId : String) : WorkerRegistry :=
  let tasks := if taskId ∈ r.tasksOf spec.workerId then r.tasksOf spec.workerId
    else r.tasksOf spec.workerId ++ [taskId]
  { r with
    activeTasks := r.activeTasks.set spec.workerId tasks
    states := if spec.maxConcurrencySlots ≤ tasks.length then r.states.set spec.workerId .busy
      else r.states }

/-- `unassign_task`. -/
def unassignTask (workerId taskId : String) : WorkerRegistry :=
  match r.activeTasks.get? workerId with
  | none => r
  | some active =>
    let tasks := active.erase taskId
    { r with
      activeTasks := r.activeTasks.set workerId tasks
      states :=
        match r.workers.get? workerId with
        | none => r.states
        | some spec =>
          if r.states.get? workerId = some .busy ∧ tasks.length < spec.maxConcurrencySlots then
            r.states.set workerId .available
          else r.states }

/-- `is_available`, of the snapshot of a worker. -/
def isAvailable (spec : WorkerSpec) : Bool :=
  r.states.get? spec.workerId = some .available &&
    (r.tasksOf spec.workerId).length < spec.maxConcurrencySlots

/-- `list_available_workers`. -/
def listAvailableWorkers (requiredCapabilities : List String) : List WorkerSpec :=
  (r.workers.items.map Prod.snd).filter fun spec =>
    r.isAvailable spec && requiredCapabilities.all fun capability => capability ∈ spec.capabilities

/-- The load of a worker. -/
def load (spec : WorkerSpec) : ℚ := (r.tasksOf spec.workerId).length / spec.maxConcurrencySlots

/-- The order of the candidates: by load, by node, by worker. -/
def precedes (spec spec' : WorkerSpec) : Prop :=
  r.load spec < r.load spec' ∨ r.load spec = r.load spec' ∧
    (spec.nodeId < spec'.nodeId ∨ spec.nodeId = spec'.nodeId ∧ spec.workerId ≤ spec'.workerId)

instance : DecidableRel r.precedes := fun _ _ => inferInstanceAs (Decidable (_ ∨ _))

/-- `select_worker` of `TaskAssignmentEngine`; `none` when it raises. -/
def selectWorker (spec : TaskSpec) : Option WorkerSpec :=
  ((r.listAvailableWorkers spec.requiredCapabilities).insertionSort r.precedes).head?

end WorkerRegistry

/-! ## Attempts -/

/-- Where an attempt is: it has no worker, it waits in a pool, it runs, it has ended and is about to call
back, or it is over. -/
inductive Phase where
  | waiting
  | queued
  | running
  | returned (outcome : Except String PyValue)
  | ended

/-- The callback of the attempt may still run. -/
def Phase.isOutstanding : Phase → Bool
  | .queued | .running | .returned _ => true
  | .waiting | .ended => false

/-- An attempt of a task: the submission that was admitted, with the snapshot its callback has, and
whether the task was cancelled. -/
structure Attempt where
  spec : TaskSpec
  snap : Option TaskSnapshot
  phase : Phase
  cancelled : Bool

/-- The attempt is not over, and its task was not cancelled. -/
def Attempt.isOpen (a : Attempt) : Bool :=
  match a.phase with
  | .ended => false
  | _ => !a.cancelled

/-- Why a call of the authority is refused. -/
inductive RuntimeRefusal where
  | notStarted
  | shuttingDown
  | rejected (taskId : String)
  | admissionDenied (denial : AdmissionDenial)
  | taskNotFound (taskId : String)
  | invalidTransition (taskId : String) (current target : TaskState)
  | cancellationUnsupported (taskId : String)
  deriving DecidableEq

/-- The message of the error a cancelled token raises. -/
def cancelledText (taskId reason : String) : String :=
  "[TASK_EXECUTION_FAILED] Execution failed for task '" ++ taskId ++ "': Cancelled: " ++ reason

/-- `RuntimeAuthority`, with what its executors hold: the cancellation tokens of the tasks, each with the
reason when it is cancelled, and the latest future of each task, an index of the attempts. -/
structure RuntimeAuthority where
  isRunning : Bool
  isShuttingDown : Bool
  fencing : Option FencingManager
  admission : ResourceAdmissionController
  registry : WorkerRegistry
  leases : ExecutionLeaseManager
  specs : PyDict TaskSpec
  snapshots : PyDict TaskSnapshot
  tokens : PyDict (Option String)
  threadFutures : PyDict ℕ
  processFutures : PyDict ℕ
  attempts : List Attempt

namespace RuntimeAuthority

section Operations

variable (s : RuntimeAuthority)

/-- The snapshot of a task is replaced. -/
def setSnapshot (snap : TaskSnapshot) : RuntimeAuthority :=
  { s with snapshots := s.snapshots.set snap.taskId snap }

/-- An admitted task: its resources are allocated, and its snapshot is ADMITTED. -/
def withAdmitted (spec : TaskSpec) (now : String) : RuntimeAuthority :=
  { s with
    admission := s.admission.allocate spec.requirement
    specs := s.specs.set spec.taskId spec
    snapshots := s.snapshots.set spec.taskId
      { taskId := spec.taskId, taskType := spec.taskType, state := .admitted, submittedAt := now } }

/-- A task that could not be dispatched: its snapshot is PENDING. -/
def leavePending (spec : TaskSpec) (now : String) : TaskSnapshot × RuntimeAuthority :=
  let snap : TaskSnapshot :=
    { taskId := spec.taskId, taskType := spec.taskType, state := .pending, submittedAt := now }
  (snap, { s.setSnapshot snap with attempts := s.attempts ++ [⟨spec, none, .waiting, false⟩] })

/-- A worker is selected and gets the lease of the task: the snapshot is ASSIGNED. -/
def assign (spec : TaskSpec) (now : String) (clock : ℚ) (issuedAt : Option String) :
    Option (TaskSnapshot × RuntimeAuthority) :=
  match s.registry.selectWorker spec with
  | none => none
  | some worker =>
    match s.leases.acquireLease s.fencing spec.taskId worker.workerId none none clock issuedAt with
    | .error _ => none
    | .ok (lease, leases) =>
      let snap : TaskSnapshot :=
        { taskId := spec.taskId
          taskType := spec.taskType
          state := .assigned
          workerId := some worker.workerId
          leaseId := some lease.leaseId
          attemptId := some lease.attemptId
          fencingEpoch := lease.fencingEpoch
          submittedAt := now }
      some (snap, { s.setSnapshot snap with
          leases := leases
          registry := s.registry.assignTask worker spec.taskId })

/-- The executor of threads has a token for a task before its pool gets it. -/
def withToken (spec : TaskSpec) : RuntimeAuthority :=
  if spec.processIsolated ∨ (s.tokens.get? spec.taskId).isSome then s
  else { s with tokens := s.tokens.set spec.taskId none }

/-- A pool takes the task, whose snapshot is RUNNING. -/
def enqueue (spec : TaskSpec) (running : TaskSnapshot) : RuntimeAuthority :=
  { s with
    threadFutures := if spec.processIsolated then s.threadFutures
      else s.threadFutures.set spec.taskId s.attempts.length
    processFutures := if spec.processIsolated then s.processFutures.set spec.taskId s.attempts.length
      else s.processFutures
    attempts := s.attempts ++ [⟨spec, some running, .queued, false⟩] }

/-- `_dispatch_execution`: the snapshot is RUNNING, and the pool gets the task; the flag says whether it
took it. -/
def dispatchExecution (spec : TaskSpec) (snap : TaskSnapshot) (startedAt : String)
    (poolAccepts : Bool) : Bool × TaskSnapshot × RuntimeAuthority :=
  let running := { snap with state := .running, startedAt := some startedAt }
  let s := s.setSnapshot running
  if !spec.hasFunc then (false, running, s)
  else if !poolAccepts then (false, running, s.withToken spec)
  else (true, running, (s.withToken spec).enqueue spec running)

/-- The submission of a task is not refused. -/
def admits (spec : TaskSpec) : Bool :=
  s.isRunning && !s.isShuttingDown &&
    !((s.snapshots.get? spec.taskId).any fun snap => !snap.isTerminal) &&
    (s.admission.evaluateAdmission spec.requirement).isNone

/-- `submit_task`. -/
def submitTask (spec : TaskSpec) (now : String) (clock : ℚ) (issuedAt : Option String)
    (startedAt : String) (poolAccepts : Bool) : Except RuntimeRefusal TaskSnapshot × RuntimeAuthority :=
  if !s.isRunning then (.error .notStarted, s)
  else if s.isShuttingDown then (.error .shuttingDown, s)
  else if (s.snapshots.get? spec.taskId).any fun snap => !snap.isTerminal then
    (.error (.rejected spec.taskId), s)
  else
    match s.admission.evaluateAdmission spec.requirement with
    | some denial => (.error (.admissionDenied denial), s)
    | none =>
      let admitted := s.withAdmitted spec now
      match admitted.assign spec now clock issuedAt with
      | none => let (snap, s) := admitted.leavePending spec now; (.ok snap, s)
      | some (assigned, s) =>
        match s.dispatchExecution spec assigned startedAt poolAccepts with
        | (false, _, s) => let (snap, s) := s.leavePending spec now; (.ok snap, s)
        | (true, running, s) => (.ok running, s)

/-- The state of a task whose callback runs. -/
def finishedState (outcome : Except String PyValue) (current : Option TaskSnapshot) : TaskState :=
  if current.any fun c => c.state = .cancelling then .cancelled
  else
    match outcome with
    | .error _ => .failed
    | .ok _ => .succeeded

/-- The snapshot of a task whose callback runs. -/
def finishedSnapshot (spec : TaskSpec) (snap : TaskSnapshot) (outcome : Except String PyValue)
    (finishedAt : String) (current : Option TaskSnapshot) : TaskSnapshot where
  taskId := spec.taskId
  taskType := spec.taskType
  state := finishedState outcome current
  workerId := snap.workerId
  leaseId := snap.leaseId
  fencingEpoch := snap.fencingEpoch
  submittedAt := snap.submittedAt
  startedAt := snap.startedAt
  completedAt := some finishedAt
  result :=
    match outcome with
    | .ok result => result
    | .error _ => .none
  errorMessage :=
    match outcome with
    | .ok _ => none
    | .error text => some text

/-- What a callback gives back: the resources, the worker and the lease. -/
def giveBack (spec : TaskSpec) (snap : TaskSnapshot) : RuntimeAuthority :=
  { s with
    admission := s.admission.release spec.requirement
    registry :=
      match snap.workerId with
      | some workerId =>
        if workerId = "" then s.registry else s.registry.unassignTask workerId spec.taskId
      | none => s.registry
    leases :=
      match snap.leaseId with
      | some leaseId => if leaseId = "" then s.leases else s.leases.releaseLease leaseId
      | none => s.leases }

/-- `_completion_cb`; a snapshot of a task that is done is not overwritten. -/
def completionCallback (spec : TaskSpec) (snap : TaskSnapshot) (outcome : Except String PyValue)
    (finishedAt : String) : RuntimeAuthority :=
  if (s.snapshots.get? spec.taskId).any TaskSnapshot.isTerminal then s.giveBack spec snap
  else (s.giveBack spec snap).setSnapshot
    (finishedSnapshot spec snap outcome finishedAt (s.snapshots.get? spec.taskId))

/-- The attempt enters a phase. -/
def setPhase (i : ℕ) (phase : Phase) : RuntimeAuthority :=
  { s with attempts := s.attempts.modify i fun a => { a with phase := phase } }

/-- The callback of an attempt that has a snapshot runs, and the attempt is over. -/
def callBack (i : ℕ) (a : Attempt) (outcome : Except String PyValue) (finishedAt : String) :
    RuntimeAuthority :=
  match a.snap with
  | none => s.setPhase i .ended
  | some snap => (s.completionCallback a.spec snap outcome finishedAt).setPhase i .ended

/-- The future of a task that has not begun. -/
def queuedFuture (futures : PyDict ℕ) (taskId : String) : Option (ℕ × Attempt) :=
  (futures.get? taskId).bind fun i => (s.attempts[i]?).bind fun a =>
    match a.phase with
    | .queued => some (i, a)
    | _ => none

/-- The token of a task is cancelled, if the task has one that is not. -/
def cancelToken (taskId reason : String) : RuntimeAuthority :=
  match s.tokens.get? taskId with
  | some none => { s with tokens := s.tokens.set taskId (some reason) }
  | _ => s

/-- A future that has not begun does not begin. -/
def giveUp (futures : PyDict ℕ) (taskId : String) : RuntimeAuthority :=
  match s.queuedFuture futures taskId with
  | some (i, _) => s.setPhase i .ended
  | none => s

/-- `cancel` of `BoundedThreadExecutor`. -/
def cancelThread (taskId reason : String) : RuntimeAuthority :=
  (s.cancelToken taskId reason).giveUp s.threadFutures taskId

/-- `cancel` of `IsolatedProcessExecutor`: a future that has not begun does not begin, and its callback
runs with a `CancelledError`. -/
def cancelProcess (taskId finishedAt : String) : RuntimeAuthority :=
  match s.queuedFuture s.processFutures taskId with
  | some (i, a) => s.callBack i a (.error "") finishedAt
  | none => s

/-- The attempts of a task that was cancelled. -/
def cancelAttempts (taskId : String) : RuntimeAuthority :=
  { s with attempts := s.attempts.map fun a =>
      if a.spec.taskId = taskId then { a with cancelled := true } else a }

/-- The snapshot of a task that is being cancelled. -/
def cancellingSnapshot (taskId : String) (snap : TaskSnapshot) : TaskSnapshot where
  taskId := taskId
  taskType := snap.taskType
  state := .cancelling
  workerId := snap.workerId
  leaseId := snap.leaseId
  fencingEpoch := snap.fencingEpoch
  submittedAt := snap.submittedAt
  startedAt := snap.startedAt

/-- The snapshot of a task that was cancelled. -/
def cancelledSnapshot (taskId reason now : String) (snap : TaskSnapshot) : TaskSnapshot where
  taskId := taskId
  taskType := snap.taskType
  state := .cancelled
  workerId := snap.workerId
  leaseId := snap.leaseId
  fencingEpoch := snap.fencingEpoch
  submittedAt := snap.submittedAt
  startedAt := snap.startedAt
  completedAt := some now
  errorMessage := some ("Cancelled: " ++ reason)

/-- The task is cancelled in the executor of threads: what a callback finds that the executor of
processes makes. -/
def cancelling (taskId reason : String) (snap : TaskSnapshot) : RuntimeAuthority :=
  (s.setSnapshot (cancellingSnapshot taskId snap)).cancelThread taskId reason

/-- `cancel_task` reaches the executors: the snapshot of the task when it does. -/
def cancellable (taskId : String) : Except RuntimeRefusal (TaskSnapshot × Bool) :=
  match s.snapshots.get? taskId with
  | none => .error (.taskNotFound taskId)
  | some snap =>
    if snap.isTerminal then .ok (snap, false)
    else if !snap.state.mayBecome .cancelling then
      .error (.invalidTransition taskId snap.state .cancelling)
    else if (s.specs.get? taskId).any fun spec => !spec.allowCancellation then
      .error (.cancellationUnsupported taskId)
    else .ok (snap, true)

/-- `cancel_task`. -/
def cancelTask (taskId reason now : String) : Except RuntimeRefusal TaskSnapshot × RuntimeAuthority :=
  match s.cancellable taskId with
  | .error e => (.error e, s)
  | .ok (snap, false) => (.ok snap, s)
  | .ok (snap, true) =>
    (.ok (cancelledSnapshot taskId reason now snap),
      (((s.cancelling taskId reason snap).cancelProcess taskId now).setSnapshot
        (cancelledSnapshot taskId reason now snap)).cancelAttempts taskId)

/-! ## What happens in the pools -/

/-- The token of the task of an attempt in the pool of threads, when it is cancelled. -/
def cancelReason (a : Attempt) : Option String :=
  if a.spec.processIsolated then none else ((s.tokens.get? a.spec.taskId).getD none)

/-- A pool begins an attempt; one whose token is cancelled ends at once, without a callback. -/
def start (i : ℕ) : Option RuntimeAuthority :=
  (s.attempts[i]?).bind fun a =>
    match a.phase with
    | .queued => some (s.setPhase i (if (s.cancelReason a).isSome then .ended else .running))
    | _ => none

/-- What the function of an attempt gives; in the pool of threads the token is checked once more. -/
def checkedOutcome (a : Attempt) (outcome : Except String PyValue) : Except String PyValue :=
  match s.cancelReason a, outcome with
  | some reason, .ok _ => .error (cancelledText a.spec.taskId reason)
  | _, outcome => outcome

/-- The function of an attempt ends. -/
def finish (i : ℕ) (outcome : Except String PyValue) : Option RuntimeAuthority :=
  (s.attempts[i]?).bind fun a =>
    match a.phase with
    | .running => some (s.setPhase i (.returned (s.checkedOutcome a outcome)))
    | _ => none

/-- The attempt that has ended and is about to call back. -/
def returnedAttempt (i : ℕ) : Option (Attempt × Except String PyValue) :=
  (s.attempts[i]?).bind fun a =>
    match a.phase with
    | .returned outcome => some (a, outcome)
    | _ => none

/-- An attempt that has ended calls back. -/
def complete (i : ℕ) (finishedAt : String) : Option RuntimeAuthority :=
  (s.returnedAttempt i).map fun (a, outcome) => s.callBack i a outcome finishedAt

end Operations

/-! ## Submissions -/

variable {s s' s'' : RuntimeAuthority}

/-- Nothing is different but the snapshot of one task, the workers, the leases and the tokens. -/
structure Keeps (taskId : String) (s s' : RuntimeAuthority) : Prop where
  admission : s'.admission = s.admission
  attempts : s'.attempts = s.attempts
  threadFutures : s'.threadFutures = s.threadFutures
  processFutures : s'.processFutures = s.processFutures
  snapshots : ∀ id, id ≠ taskId → s'.snapshots.get? id = s.snapshots.get? id

theorem Keeps.trans {taskId : String} (h : Keeps taskId s s') (h' : Keeps taskId s' s'') :
    Keeps taskId s s'' where
  admission := h'.admission.trans h.admission
  attempts := h'.attempts.trans h.attempts
  threadFutures := h'.threadFutures.trans h.threadFutures
  processFutures := h'.processFutures.trans h.processFutures
  snapshots := fun id hid => (h'.snapshots id hid).trans (h.snapshots id hid)

theorem keeps_setSnapshot (s : RuntimeAuthority) {snap : TaskSnapshot} {taskId : String}
    (h : snap.taskId = taskId) : Keeps taskId s (s.setSnapshot snap) := by
  subst h
  exact ⟨rfl, rfl, rfl, rfl, fun _ hid => PyDict.get?_set_of_ne _ _ hid⟩

theorem keeps_withToken (s : RuntimeAuthority) (spec : TaskSpec) (taskId : String) :
    Keeps taskId s (s.withToken spec) := by
  unfold withToken
  split_ifs
  · exact ⟨rfl, rfl, rfl, rfl, fun _ _ => rfl⟩
  · exact ⟨rfl, rfl, rfl, rfl, fun _ _ => rfl⟩

theorem snapshots_withToken (s : RuntimeAuthority) (spec : TaskSpec) :
    (s.withToken spec).snapshots = s.snapshots := by
  unfold withToken
  split_ifs
  · rfl
  · rfl

theorem assign_eq_some {spec : TaskSpec} {now : String} {clock : ℚ} {issuedAt : Option String}
    {snap : TaskSnapshot} (h : s.assign spec now clock issuedAt = some (snap, s')) :
    snap.taskId = spec.taskId ∧ Keeps spec.taskId s s' := by
  unfold assign at h
  cases hworker : s.registry.selectWorker spec with
  | none =>
    rw [hworker] at h
    cases h
  | some worker =>
    rw [hworker] at h
    dsimp only at h
    cases hlease : s.leases.acquireLease s.fencing spec.taskId worker.workerId none none clock issuedAt with
    | error e =>
      rw [hlease] at h
      cases h
    | ok granted =>
      rw [hlease] at h
      cases h
      exact ⟨rfl, rfl, rfl, rfl, rfl, fun _ hid => PyDict.get?_set_of_ne _ _ hid⟩

/-- What an admitted submission leaves behind: the resources are allocated, and there is one more
attempt, which waits for a worker or in a pool. -/
structure Submitted (spec : TaskSpec) (s s' : RuntimeAuthority) : Prop where
  fresh : ∀ snap, s.snapshots.get? spec.taskId = some snap → snap.isTerminal = true
  admission : s'.admission = s.admission.allocate spec.requirement
  attempts : ∃ snap phase, s'.attempts = s.attempts ++ [⟨spec, snap, phase, false⟩] ∧
    (phase = .waiting ∨ phase = .queued ∧ snap.isSome = true ∧
      (if spec.processIsolated then s'.processFutures else s'.threadFutures).get? spec.taskId =
        some s.attempts.length)
  current : ∃ snap, s'.snapshots.get? spec.taskId = some snap ∧ snap.isTerminal = false
  snapshots : ∀ id, id ≠ spec.taskId → s'.snapshots.get? id = s.snapshots.get? id
  threads : ∀ id i, s'.threadFutures.get? id = some i → s.threadFutures.get? id = some i ∨
    id = spec.taskId ∧ i = s.attempts.length ∧ spec.processIsolated = false
  processes : ∀ id i, s'.processFutures.get? id = some i → s.processFutures.get? id = some i ∨
    id = spec.taskId ∧ i = s.attempts.length ∧ spec.processIsolated = true
  futures : ∀ id, id ≠ spec.taskId → s'.threadFutures.get? id = s.threadFutures.get? id ∧
    s'.processFutures.get? id = s.processFutures.get? id

/-- A task that is left pending was submitted. -/
theorem submitted_leavePending {spec : TaskSpec} {now : String}
    (hfresh : ∀ snap, s.snapshots.get? spec.taskId = some snap → snap.isTerminal = true)
    (h : Keeps spec.taskId { s with admission := s.admission.allocate spec.requirement } s') :
    Submitted spec s (s'.leavePending spec now).2 where
  fresh := hfresh
  admission := h.admission
  attempts := by
    refine ⟨none, .waiting, ?_, .inl rfl⟩
    rw [leavePending, h.attempts]
  current := ⟨_, PyDict.get?_set _ _ _, rfl⟩
  snapshots := fun id hid => (PyDict.get?_set_of_ne _ _ hid).trans (h.snapshots id hid)
  threads := fun id i hi => .inl (by rw [← hi]; exact congrArg (fun d => d.get? id) h.threadFutures.symm)
  processes := fun id i hi => .inl (by rw [← hi]; exact congrArg (fun d => d.get? id) h.processFutures.symm)
  futures := fun id _ => ⟨congrArg (fun d => d.get? id) h.threadFutures,
    congrArg (fun d => d.get? id) h.processFutures⟩

/-- A task that a pool takes was submitted. -/
theorem submitted_enqueue {spec : TaskSpec} {running : TaskSnapshot}
    (hfresh : ∀ snap, s.snapshots.get? spec.taskId = some snap → snap.isTerminal = true)
    (h : Keeps spec.taskId { s with admission := s.admission.allocate spec.requirement } s')
    (hcurrent : s'.snapshots.get? spec.taskId = some running) (hrunning : running.isTerminal = false) :
    Submitted spec s (s'.enqueue spec running) where
  fresh := hfresh
  admission := h.admission
  attempts := by
    refine ⟨some running, .queued, ?_, .inr ⟨rfl, rfl, ?_⟩⟩
    · rw [enqueue, h.attempts]
    · rw [enqueue, h.attempts]
      cases hisolated : spec.processIsolated with
      | true => exact PyDict.get?_set _ _ _
      | false => exact PyDict.get?_set _ _ _
  current := ⟨running, hcurrent, hrunning⟩
  snapshots := h.snapshots
  threads := by
    intro id i hi
    rw [enqueue, h.threadFutures, h.attempts] at hi
    cases hisolated : spec.processIsolated with
    | true =>
      rw [hisolated] at hi
      exact .inl hi
    | false =>
      rw [hisolated] at hi
      dsimp only at hi
      rw [if_neg Bool.false_ne_true] at hi
      by_cases hid : id = spec.taskId
      · subst hid
        rw [PyDict.get?_set] at hi
        exact .inr ⟨rfl, (Option.some.inj hi).symm, rfl⟩
      · rw [PyDict.get?_set_of_ne _ _ hid] at hi
        exact .inl hi
  processes := by
    intro id i hi
    rw [enqueue, h.processFutures, h.attempts] at hi
    cases hisolated : spec.processIsolated with
    | false =>
      rw [hisolated] at hi
      exact .inl hi
    | true =>
      rw [hisolated] at hi
      dsimp only at hi
      rw [if_pos rfl] at hi
      by_cases hid : id = spec.taskId
      · subst hid
        rw [PyDict.get?_set] at hi
        exact .inr ⟨rfl, (Option.some.inj hi).symm, rfl⟩
      · rw [PyDict.get?_set_of_ne _ _ hid] at hi
        exact .inl hi
  futures := by
    intro id hid
    rw [enqueue, h.threadFutures, h.processFutures]
    cases spec.processIsolated with
    | true => exact ⟨rfl, PyDict.get?_set_of_ne _ _ hid⟩
    | false => exact ⟨PyDict.get?_set_of_ne _ _ hid, rfl⟩

/-- **A submission** is refused and changes nothing, or the task was submitted. -/
theorem submitTask_cases (s : RuntimeAuthority) (spec : TaskSpec) (now : String) (clock : ℚ)
    (issuedAt : Option String) (startedAt : String) (poolAccepts : Bool) :
    s.admits spec = false ∧ (s.submitTask spec now clock issuedAt startedAt poolAccepts).2 = s ∨
      s.admits spec = true ∧
        Submitted spec s (s.submitTask spec now clock issuedAt startedAt poolAccepts).2 := by
  unfold submitTask admits
  split_ifs with hrunning hdown hlive
  · rw [Bool.not_eq_true'] at hrunning
    exact .inl ⟨by rw [hrunning]; rfl, rfl⟩
  · exact .inl ⟨by rw [hdown, Bool.not_true, Bool.and_false]; rfl, rfl⟩
  · exact .inl ⟨by rw [hlive, Bool.not_true, Bool.and_false]; rfl, rfl⟩
  have hfresh : ∀ snap, s.snapshots.get? spec.taskId = some snap → snap.isTerminal = true := by
    intro snap hsnap
    rw [hsnap, Option.any_some, Bool.not_eq_true, Bool.not_eq_false'] at hlive
    exact hlive
  rw [Bool.not_eq_true, Bool.not_eq_false'] at hrunning
  rw [Bool.not_eq_true] at hdown hlive
  rw [hrunning, hdown, hlive]
  cases s.admission.evaluateAdmission spec.requirement with
  | some denial => exact .inl ⟨rfl, rfl⟩
  | none =>
    have hallocated : Keeps spec.taskId { s with admission := s.admission.allocate spec.requirement }
        (s.withAdmitted spec now) := ⟨rfl, rfl, rfl, rfl, fun _ hid => PyDict.get?_set_of_ne _ _ hid⟩
    dsimp only
    refine .inr ⟨rfl, ?_⟩
    cases hassign : (s.withAdmitted spec now).assign spec now clock issuedAt with
    | none => exact submitted_leavePending hfresh hallocated
    | some assigned =>
      obtain ⟨snap, s'⟩ := assigned
      obtain ⟨hsnap, hkeeps⟩ := assign_eq_some hassign
      have hset := (hallocated.trans hkeeps).trans
        (@keeps_setSnapshot s' { snap with state := .running, startedAt := some startedAt } _ hsnap)
      dsimp only
      unfold dispatchExecution
      cases spec.hasFunc with
      | false => exact submitted_leavePending hfresh hset
      | true =>
        have htoken := hset.trans (keeps_withToken _ spec spec.taskId)
        cases poolAccepts with
        | false => exact submitted_leavePending hfresh htoken
        | true =>
          refine submitted_enqueue hfresh htoken ?_ rfl
          rw [snapshots_withToken, setSnapshot, ← hsnap]
          exact PyDict.get?_set _ _ _

/-! ## Attempts that go on -/

theorem getElem?_setPhase (s : RuntimeAuthority) (i : ℕ) (phase : Phase) (j : ℕ) :
    (s.setPhase i phase).attempts[j]? =
      (s.attempts[j]?).map fun a => if i = j then { a with phase := phase } else a := by
  rw [setPhase, List.getElem?_modify]
  rfl

theorem length_setPhase (s : RuntimeAuthority) (i : ℕ) (phase : Phase) :
    (s.setPhase i phase).attempts.length = s.attempts.length := List.length_modify _ _ _

theorem queuedFuture_eq_some {futures : PyDict ℕ} {taskId : String} {i : ℕ} {a : Attempt} :
    s.queuedFuture futures taskId = some (i, a) ↔
      futures.get? taskId = some i ∧ s.attempts[i]? = some a ∧ a.phase = .queued := by
  unfold queuedFuture
  rw [Option.bind_eq_some_iff]
  constructor
  · rintro ⟨i', hi, h⟩
    obtain ⟨a', ha, h⟩ := Option.bind_eq_some_iff.mp h
    split at h
    · next hqueued =>
        cases h
        exact ⟨hi, ha, hqueued⟩
    · cases h
  · rintro ⟨hi, ha, hqueued⟩
    refine ⟨i, hi, Option.bind_eq_some_iff.mpr ⟨a, ha, ?_⟩⟩
    rw [hqueued]

theorem returnedAttempt_eq_some {i : ℕ} {a : Attempt} {outcome : Except String PyValue} :
    s.returnedAttempt i = some (a, outcome) ↔ s.attempts[i]? = some a ∧ a.phase = .returned outcome := by
  unfold returnedAttempt
  rw [Option.bind_eq_some_iff]
  constructor
  · rintro ⟨a', ha, h⟩
    split at h
    · next outcome' hreturned =>
        cases h
        exact ⟨ha, hreturned⟩
    · cases h
  · rintro ⟨ha, hreturned⟩
    refine ⟨a, ha, ?_⟩
    rw [hreturned]

/-- A callback gives back what the task requires, leaves a snapshot of a task that is done, and touches
no other snapshot. -/
structure CalledBack (i : ℕ) (spec : TaskSpec) (s s' : RuntimeAuthority) : Prop where
  admission : s'.admission = s.admission.release spec.requirement
  attempts : s'.attempts = (s.setPhase i .ended).attempts
  threadFutures : s'.threadFutures = s.threadFutures
  processFutures : s'.processFutures = s.processFutures
  current : ∃ snap, s'.snapshots.get? spec.taskId = some snap ∧ snap.isTerminal = true
  snapshots : ∀ id, id ≠ spec.taskId → s'.snapshots.get? id = s.snapshots.get? id

theorem isTerminal_finishedState (outcome : Except String PyValue) (current : Option TaskSnapshot) :
    (finishedState outcome current).isTerminal = true := by
  unfold finishedState
  split_ifs
  · rfl
  · cases outcome with
    | error text => rfl
    | ok result => rfl

/-- **A callback** gives back what the task requires, and the task is done. -/
theorem calledBack_callBack (s : RuntimeAuthority) (i : ℕ) {a : Attempt} (hsnap : a.snap.isSome = true)
    (outcome : Except String PyValue) (finishedAt : String) :
    CalledBack i a.spec s (s.callBack i a outcome finishedAt) := by
  obtain ⟨snap, hsnap⟩ := Option.isSome_iff_exists.mp hsnap
  rw [callBack, hsnap]
  dsimp only
  unfold completionCallback
  split_ifs with hdone
  · cases hcurrent : s.snapshots.get? a.spec.taskId with
    | none =>
      rw [hcurrent] at hdone
      cases hdone
    | some current =>
      rw [hcurrent] at hdone
      exact ⟨rfl, rfl, rfl, rfl, ⟨current, hcurrent, hdone⟩, fun _ _ => rfl⟩
  · exact ⟨rfl, rfl, rfl, rfl, ⟨_, PyDict.get?_set _ _ _, isTerminal_finishedState _ _⟩,
      fun _ hid => PyDict.get?_set_of_ne _ _ hid⟩

/-! ## Cancellations -/

/-- The futures of the executors are attempts of their tasks in their pools, and an attempt in a pool has
a snapshot. -/
structure Wellformed (s : RuntimeAuthority) : Prop where
  threads : ∀ id i, s.threadFutures.get? id = some i →
    ∃ a, s.attempts[i]? = some a ∧ a.spec.taskId = id ∧ a.spec.processIsolated = false
  processes : ∀ id i, s.processFutures.get? id = some i →
    ∃ a, s.attempts[i]? = some a ∧ a.spec.taskId = id ∧ a.spec.processIsolated = true
  snaps : ∀ (i : ℕ) (a : Attempt), s.attempts[i]? = some a → a.phase.isOutstanding = true → a.snap.isSome = true

theorem keeps_cancelToken (s : RuntimeAuthority) (taskId reason id : String) :
    Keeps id s (s.cancelToken taskId reason) := by
  unfold cancelToken
  split
  · exact ⟨rfl, rfl, rfl, rfl, fun _ _ => rfl⟩
  · exact ⟨rfl, rfl, rfl, rfl, fun _ _ => rfl⟩

/-- A future that is given up is an attempt that enters another phase. -/
theorem giveUp_spec (s : RuntimeAuthority) (futures : PyDict ℕ) (taskId : String) :
    (s.giveUp futures taskId).admission = s.admission ∧
      (s.giveUp futures taskId).snapshots = s.snapshots ∧
      (s.giveUp futures taskId).threadFutures = s.threadFutures ∧
      (s.giveUp futures taskId).processFutures = s.processFutures := by
  unfold giveUp
  split
  · exact ⟨rfl, rfl, rfl, rfl⟩
  · exact ⟨rfl, rfl, rfl, rfl⟩

/-- An attempt after a future is given up: if it was that future it is not queued any more, and if it was
not it is as it was. -/
theorem getElem?_giveUp (futures : PyDict ℕ) (taskId : String) {j : ℕ} {a : Attempt}
    (ha : s.attempts[j]? = some a) :
    ∃ phase, (s.giveUp futures taskId).attempts[j]? = some { a with phase := phase } ∧
      (phase = a.phase ∨ phase = .ended) ∧ (futures.get? taskId = some j → phase ≠ .queued) ∧
      (futures.get? taskId ≠ some j → phase = a.phase) := by
  unfold giveUp
  cases hfuture : s.queuedFuture futures taskId with
  | none =>
    refine ⟨a.phase, ha, .inl rfl, fun hget hqueued => ?_, fun _ => rfl⟩
    rw [queuedFuture_eq_some.mpr ⟨hget, ha, hqueued⟩] at hfuture
    cases hfuture
  | some future =>
    obtain ⟨i, b⟩ := future
    obtain ⟨hget, hb, -⟩ := queuedFuture_eq_some.mp hfuture
    dsimp only
    rw [getElem?_setPhase, ha, Option.map_some]
    by_cases hij : i = j
    · subst hij
      rw [if_pos rfl]
      exact ⟨.ended, rfl, .inr rfl, fun _ => nofun, fun hne => absurd hget hne⟩
    · rw [if_neg hij]
      refine ⟨a.phase, rfl, .inl rfl, fun hget' => ?_, fun _ => rfl⟩
      exact absurd (Option.some.inj (hget.symm.trans hget')) hij

/-- What a cancellation that reaches the executors leaves behind: the resources are given back when the
task waits in the pool of processes, its attempts are cancelled, the queued ones are over, and its
snapshot is of a task that is done. -/
structure Cancelled (taskId : String) (s s' : RuntimeAuthority) : Prop where
  admission : s'.admission = (s.queuedFuture s.processFutures taskId).elim s.admission fun future =>
    s.admission.release future.2.spec.requirement
  attempts : ∀ (j : ℕ) (a : Attempt), s.attempts[j]? = some a → ∃ phase,
    s'.attempts[j]? = some { a with
      phase := phase, cancelled := if a.spec.taskId = taskId then true else a.cancelled } ∧
    (phase = a.phase ∨ phase = .ended) ∧ (a.spec.taskId ≠ taskId → phase = a.phase) ∧
    (s.threadFutures.get? taskId = some j ∨ s.processFutures.get? taskId = some j → phase ≠ .queued)
  length : s'.attempts.length = s.attempts.length
  threadFutures : s'.threadFutures = s.threadFutures
  processFutures : s'.processFutures = s.processFutures
  current : ∃ snap, s'.snapshots.get? taskId = some snap ∧ snap.isTerminal = true
  snapshots : ∀ id, id ≠ taskId → s'.snapshots.get? id = s.snapshots.get? id

/-- The callback that the executor of processes makes, if it makes one. -/
theorem cancelProcess_spec (finishedAt : String) {taskId : String} (h : ∀ i a,
    s.queuedFuture s.processFutures taskId = some (i, a) → a.spec.taskId = taskId ∧ a.snap.isSome = true) :
    (s.cancelProcess taskId finishedAt).admission =
        (s.queuedFuture s.processFutures taskId).elim s.admission (fun future =>
          s.admission.release future.2.spec.requirement) ∧
      (s.cancelProcess taskId finishedAt).attempts = (s.giveUp s.processFutures taskId).attempts ∧
      (s.cancelProcess taskId finishedAt).threadFutures = s.threadFutures ∧
      (s.cancelProcess taskId finishedAt).processFutures = s.processFutures ∧
      ∀ id, id ≠ taskId → (s.cancelProcess taskId finishedAt).snapshots.get? id = s.snapshots.get? id := by
  unfold cancelProcess giveUp
  cases hfuture : s.queuedFuture s.processFutures taskId with
  | none => exact ⟨rfl, rfl, rfl, rfl, fun _ _ => rfl⟩
  | some future =>
    obtain ⟨i, a⟩ := future
    obtain ⟨htask, hsnap⟩ := h i a hfuture
    have hback := s.calledBack_callBack i hsnap (.error "") finishedAt
    refine ⟨hback.admission, hback.attempts, hback.threadFutures, hback.processFutures, fun id hid => ?_⟩
    refine hback.snapshots id ?_
    rw [htask]
    exact hid

theorem length_giveUp (s : RuntimeAuthority) (futures : PyDict ℕ) (taskId : String) :
    (s.giveUp futures taskId).attempts.length = s.attempts.length := by
  unfold giveUp
  split
  · exact length_setPhase _ _ _
  · rfl

theorem Wellformed.queuedFuture_giveUp (h : Wellformed s) (taskId : String) :
    (s.giveUp s.threadFutures taskId).queuedFuture s.processFutures taskId =
      s.queuedFuture s.processFutures taskId := by
  apply Option.ext
  rintro ⟨i, a⟩
  rw [queuedFuture_eq_some, queuedFuture_eq_some]
  refine and_congr_right fun hget => ?_
  obtain ⟨b, hb, -, hisolated⟩ := h.processes taskId i hget
  obtain ⟨phase, hphase, -, -, hsame⟩ := getElem?_giveUp s.threadFutures taskId hb
  have hthread : s.threadFutures.get? taskId ≠ some i := by
    intro hthread
    obtain ⟨c, hc, -, hnot⟩ := h.threads taskId i hthread
    obtain rfl := Option.some.inj (hb.symm.trans hc)
    rw [hisolated] at hnot
    cases hnot
  rw [hphase, hsame hthread, hb]

theorem exists_cancelling (s : RuntimeAuthority) (taskId reason : String) (snap : TaskSnapshot) :
    ∃ u : RuntimeAuthority, s.cancelling taskId reason snap = u.giveUp s.threadFutures taskId ∧
      Keeps taskId s u := by
  refine ⟨(s.setSnapshot (cancellingSnapshot taskId snap)).cancelToken taskId reason, rfl, ?_⟩
  exact (@keeps_setSnapshot s (cancellingSnapshot taskId snap) taskId rfl).trans
    (keeps_cancelToken _ taskId reason taskId)

/-- What the executor of threads leaves is well formed, and it leaves the future of the executor of
processes alone. -/
theorem Wellformed.cancelling (h : Wellformed s) (taskId reason : String) (snap : TaskSnapshot) :
    (s.cancelling taskId reason snap).admission = s.admission ∧
      (s.cancelling taskId reason snap).threadFutures = s.threadFutures ∧
      (s.cancelling taskId reason snap).processFutures = s.processFutures ∧
      (∀ id, id ≠ taskId → (s.cancelling taskId reason snap).snapshots.get? id = s.snapshots.get? id) ∧
      (s.cancelling taskId reason snap).attempts = (s.giveUp s.threadFutures taskId).attempts ∧
      (s.cancelling taskId reason snap).queuedFuture s.processFutures taskId =
        s.queuedFuture s.processFutures taskId := by
  obtain ⟨u, hcancelling, hkeeps⟩ := s.exists_cancelling taskId reason snap
  obtain ⟨hadmission, hsnapshots, hthreads, hprocesses⟩ := u.giveUp_spec s.threadFutures taskId
  have hattempts : (u.giveUp s.threadFutures taskId).attempts =
      (s.giveUp s.threadFutures taskId).attempts := by
    have hqueued : u.queuedFuture s.threadFutures taskId = s.queuedFuture s.threadFutures taskId := by
      rw [queuedFuture, queuedFuture, hkeeps.attempts]
    unfold giveUp
    rw [hqueued]
    cases s.queuedFuture s.threadFutures taskId with
    | none => exact hkeeps.attempts
    | some future =>
      show u.attempts.modify _ _ = s.attempts.modify _ _
      rw [hkeeps.attempts]
  rw [hcancelling]
  refine ⟨hadmission.trans hkeeps.admission, hthreads.trans hkeeps.threadFutures,
    hprocesses.trans hkeeps.processFutures, fun id hid => ?_, hattempts, ?_⟩
  · rw [hsnapshots]
    exact hkeeps.snapshots id hid
  · rw [← h.queuedFuture_giveUp taskId, queuedFuture, queuedFuture, hattempts]

/-- **A cancellation that reaches the executors.** -/
theorem Wellformed.cancelled (h : Wellformed s) {taskId reason now : String} {snap : TaskSnapshot}
    (hlive : s.cancellable taskId = .ok (snap, true)) :
    Cancelled taskId s (s.cancelTask taskId reason now).2 := by
  obtain ⟨hadmission, hthreads, hprocesses, hsnapshots, hattempts, hqueue⟩ :=
    h.cancelling taskId reason snap
  set u := s.cancelling taskId reason snap with hu
  rw [← hprocesses] at hqueue
  have hfuture : ∀ i a, u.queuedFuture u.processFutures taskId = some (i, a) →
      a.spec.taskId = taskId ∧ a.snap.isSome = true := by
    intro i a hfuture
    rw [hqueue, hprocesses] at hfuture
    obtain ⟨hget, ha, hqueued⟩ := queuedFuture_eq_some.mp hfuture
    obtain ⟨b, hb, htask, -⟩ := h.processes taskId i hget
    obtain rfl := Option.some.inj (ha.symm.trans hb)
    exact ⟨htask, h.snaps i a ha (by rw [hqueued]; rfl)⟩
  obtain ⟨hadmission', hattempts', hthreads', hprocesses', hsnapshots'⟩ :=
    u.cancelProcess_spec now hfuture
  unfold cancelTask
  rw [hlive]
  dsimp only
  rw [← hu]
  refine ⟨?_, fun j a ha => ?_, ?_, hthreads'.trans hthreads, hprocesses'.trans hprocesses,
    ⟨_, PyDict.get?_set _ _ _, rfl⟩, fun id hid => ?_⟩
  · show (u.cancelProcess taskId now).admission = _
    rw [hadmission', hqueue, hadmission, hprocesses]
  · obtain ⟨phase₁, ha₁, hphase₁, hqueued₁, hsame₁⟩ :=
      getElem?_giveUp s.threadFutures taskId ha
    rw [← hattempts] at ha₁
    obtain ⟨phase₂, ha₂, hphase₂, hqueued₂, hsame₂⟩ :=
      getElem?_giveUp u.processFutures taskId ha₁
    rw [← hattempts'] at ha₂
    refine ⟨phase₂, ?_, ?_, fun htask => ?_, ?_⟩
    · show ((u.cancelProcess taskId now).attempts.map _)[j]? = _
      rw [List.getElem?_map, ha₂, Option.map_some]
      split_ifs
      · rfl
      · rfl
    · rcases hphase₂ with rfl | rfl
      · exact hphase₁
      · exact .inr rfl
    · rw [hsame₂, hsame₁]
      · intro hget
        obtain ⟨b, hb, hbtask, -⟩ := h.threads taskId j hget
        exact htask (by rw [Option.some.inj (ha.symm.trans hb), hbtask])
      · rw [hprocesses]
        intro hget
        obtain ⟨b, hb, hbtask, -⟩ := h.processes taskId j hget
        exact htask (by rw [Option.some.inj (ha.symm.trans hb), hbtask])
    · rintro (hget | hget)
      · rcases hphase₂ with rfl | rfl
        · exact hqueued₁ hget
        · exact nofun
      · rw [← hprocesses] at hget
        exact hqueued₂ hget
  · show ((u.cancelProcess taskId now).attempts.map _).length = _
    rw [List.length_map, hattempts', length_giveUp, hattempts, length_giveUp]
  · show ((u.cancelProcess taskId now).snapshots.set taskId _).get? id = _
    rw [PyDict.get?_set_of_ne _ _ hid, hsnapshots' id hid, hsnapshots id hid]

theorem cancelTask_of_not_live {taskId reason now : String}
    (h : ∀ snap, s.cancellable taskId ≠ .ok (snap, true)) : (s.cancelTask taskId reason now).2 = s := by
  unfold cancelTask
  split
  · rfl
  · rfl
  · next snap hlive => exact absurd hlive (h snap)

/-! ## What happens in the pools -/

theorem start_eq_some {i : ℕ} (h : s.start i = some s') : ∃ a, s.attempts[i]? = some a ∧
    a.phase = .queued ∧ s' = s.setPhase i (if (s.cancelReason a).isSome then .ended else .running) := by
  obtain ⟨a, ha, h⟩ := Option.bind_eq_some_iff.mp h
  split at h
  · next hqueued =>
      refine ⟨a, ha, hqueued, ?_⟩
      exact (Option.some.inj h).symm
  · cases h

theorem finish_eq_some {i : ℕ} {outcome : Except String PyValue} (h : s.finish i outcome = some s') :
    ∃ a, s.attempts[i]? = some a ∧ a.phase = .running ∧
      s' = s.setPhase i (.returned (s.checkedOutcome a outcome)) := by
  obtain ⟨a, ha, h⟩ := Option.bind_eq_some_iff.mp h
  split at h
  · next hrunning => exact ⟨a, ha, hrunning, (Option.some.inj h).symm⟩
  · cases h

theorem complete_eq_some {i : ℕ} {finishedAt : String} (h : s.complete i finishedAt = some s') :
    ∃ a outcome, s.returnedAttempt i = some (a, outcome) ∧ s' = s.callBack i a outcome finishedAt := by
  obtain ⟨⟨a, outcome⟩, hreturned, rfl⟩ := Option.map_eq_some_iff.mp h
  exact ⟨a, outcome, hreturned, rfl⟩

/-- The attempts are the same ones, some of them further on. -/
structure Evolves (s s' : RuntimeAuthority) : Prop where
  threadFutures : s'.threadFutures = s.threadFutures
  processFutures : s'.processFutures = s.processFutures
  length : s'.attempts.length = s.attempts.length
  attempts : ∀ (j : ℕ) (a : Attempt), s.attempts[j]? = some a → ∃ a', s'.attempts[j]? = some a' ∧
    a'.spec = a.spec ∧ a'.snap = a.snap ∧ (a'.phase.isOutstanding = true → a.phase.isOutstanding = true)

theorem Evolves.of_get (h : Evolves s s') {j : ℕ} {a' : Attempt} (ha' : s'.attempts[j]? = some a') :
    ∃ a, s.attempts[j]? = some a ∧ a'.spec = a.spec ∧ a'.snap = a.snap ∧
      (a'.phase.isOutstanding = true → a.phase.isOutstanding = true) := by
  obtain ⟨hlt, -⟩ := List.getElem?_eq_some_iff.mp ha'
  rw [h.length] at hlt
  obtain ⟨b, hb, hspec⟩ := h.attempts j _ (List.getElem?_eq_getElem hlt)
  obtain rfl := Option.some.inj (ha'.symm.trans hb)
  exact ⟨_, List.getElem?_eq_getElem hlt, hspec⟩

theorem evolves_setPhase {i : ℕ} {phase : Phase} (h : ∀ a, s.attempts[i]? = some a →
    phase.isOutstanding = true → a.phase.isOutstanding = true) : Evolves s (s.setPhase i phase) := by
  refine ⟨rfl, rfl, length_setPhase _ _ _, fun j a ha => ?_⟩
  rw [getElem?_setPhase, ha, Option.map_some]
  by_cases hij : i = j
  · subst hij
    rw [if_pos rfl]
    exact ⟨_, rfl, rfl, rfl, h a ha⟩
  · rw [if_neg hij]
    exact ⟨a, rfl, rfl, rfl, id⟩

theorem CalledBack.evolves {i : ℕ} {spec : TaskSpec} (h : CalledBack i spec s s') : Evolves s s' := by
  have hover : Evolves s (s.setPhase i .ended) := evolves_setPhase fun _ _ h => by cases h
  refine ⟨h.threadFutures, h.processFutures, ?_, ?_⟩
  · rw [h.attempts]
    exact hover.length
  · rw [h.attempts]
    exact hover.attempts

theorem Cancelled.evolves {taskId : String} (h : Cancelled taskId s s') : Evolves s s' := by
  refine ⟨h.threadFutures, h.processFutures, h.length, fun j a ha => ?_⟩
  obtain ⟨phase, ha', hphase, -⟩ := h.attempts j a ha
  refine ⟨_, ha', rfl, rfl, ?_⟩
  rcases hphase with rfl | rfl
  · exact id
  · exact nofun

theorem Wellformed.evolve (h : Wellformed s) (he : Evolves s s') : Wellformed s' := by
  refine ⟨fun id i hi => ?_, fun id i hi => ?_, fun i a' ha' houtstanding => ?_⟩
  · rw [he.threadFutures] at hi
    obtain ⟨a, ha, htask, hisolated⟩ := h.threads id i hi
    obtain ⟨a', ha', hspec, -⟩ := he.attempts i a ha
    exact ⟨a', ha', by rw [hspec, htask], by rw [hspec, hisolated]⟩
  · rw [he.processFutures] at hi
    obtain ⟨a, ha, htask, hisolated⟩ := h.processes id i hi
    obtain ⟨a', ha', hspec, -⟩ := he.attempts i a ha
    exact ⟨a', ha', by rw [hspec, htask], by rw [hspec, hisolated]⟩
  · obtain ⟨a, ha, -, hsnap, hphase⟩ := he.of_get ha'
    rw [hsnap]
    exact h.snaps i a ha (hphase houtstanding)

theorem getElem?_concat_cases {l : List Attempt} {x a : Attempt} {i : ℕ}
    (h : (l ++ [x])[i]? = some a) : l[i]? = some a ∨ i = l.length ∧ a = x := by
  rcases lt_trichotomy i l.length with hlt | rfl | hlt
  · rw [List.getElem?_append_left hlt] at h
    exact .inl h
  · rw [List.getElem?_concat_length] at h
    exact .inr ⟨rfl, (Option.some.inj h).symm⟩
  · rw [List.getElem?_append_right hlt.le, List.getElem?_eq_none (by simp; omega)] at h
    cases h

theorem Wellformed.submitted (h : Wellformed s) {spec : TaskSpec} (hs : Submitted spec s s') :
    Wellformed s' := by
  obtain ⟨snap, phase, hattempts, hphase⟩ := hs.attempts
  have hold : ∀ {i : ℕ} {a : Attempt}, s.attempts[i]? = some a → s'.attempts[i]? = some a := by
    intro i a ha
    rw [hattempts, List.getElem?_append_left (List.getElem?_eq_some_iff.mp ha).1, ha]
  have hnew : s'.attempts[s.attempts.length]? = some ⟨spec, snap, phase, false⟩ := by
    rw [hattempts, List.getElem?_concat_length]
  refine ⟨fun id i hi => ?_, fun id i hi => ?_, fun i a ha houtstanding => ?_⟩
  · rcases hs.threads id i hi with hi | ⟨rfl, rfl, hisolated⟩
    · obtain ⟨a, ha, htask⟩ := h.threads id i hi
      exact ⟨a, hold ha, htask⟩
    · exact ⟨_, hnew, rfl, hisolated⟩
  · rcases hs.processes id i hi with hi | ⟨rfl, rfl, hisolated⟩
    · obtain ⟨a, ha, htask⟩ := h.processes id i hi
      exact ⟨a, hold ha, htask⟩
    · exact ⟨_, hnew, rfl, hisolated⟩
  · rw [hattempts] at ha
    rcases getElem?_concat_cases ha with ha | ⟨-, rfl⟩
    · exact h.snaps i a ha houtstanding
    · rcases hphase with rfl | ⟨-, hsnap, -⟩
      · cases houtstanding
      · exact hsnap

end RuntimeAuthority

namespace RuntimeRun

/-! ## Runs -/

/-- A call of the authority, or what happens in a pool. -/
inductive RuntimeCall where
  | submit (spec : TaskSpec) (now : String) (clock : ℚ) (issuedAt : Option String) (startedAt : String)
      (poolAccepts : Bool)
  | cancel (taskId reason now : String)
  | start (i : ℕ)
  | finish (i : ℕ) (outcome : Except String PyValue)
  | complete (i : ℕ) (finishedAt : String)
  | registerWorker (spec : WorkerSpec)
  | deregisterWorker (workerId : String)

/-- One step. -/
def runtimeStep (s : RuntimeAuthority) : RuntimeCall → Option RuntimeAuthority
  | .submit spec now clock issuedAt startedAt poolAccepts =>
    some (s.submitTask spec now clock issuedAt startedAt poolAccepts).2
  | .cancel taskId reason now => some (s.cancelTask taskId reason now).2
  | .start i => s.start i
  | .finish i outcome => s.finish i outcome
  | .complete i finishedAt => s.complete i finishedAt
  | .registerWorker spec => some { s with registry := s.registry.registerWorker spec }
  | .deregisterWorker workerId => some { s with registry := s.registry.deregisterWorker workerId }

/-- An authority that is started, with its budget, its workers and its leases. -/
def newAuthority (fencing : Option FencingManager) (budget : ResourceBudget)
    (allowOversubscription isDraining : Bool) (registry : WorkerRegistry)
    (leases : ExecutionLeaseManager) : RuntimeAuthority where
  isRunning := true
  isShuttingDown := false
  fencing := fencing
  admission := ⟨budget, allowOversubscription, 0, 0, 0, isDraining⟩
  registry := registry
  leases := leases
  specs := .empty
  snapshots := .empty
  tokens := .empty
  threadFutures := .empty
  processFutures := .empty
  attempts := []

/-- A new authority has no futures. -/
theorem wellformed_newAuthority (fencing : Option FencingManager) (budget : ResourceBudget)
    (allowOversubscription isDraining : Bool) (registry : WorkerRegistry)
    (leases : ExecutionLeaseManager) :
    (newAuthority fencing budget allowOversubscription isDraining registry leases).Wellformed := by
  refine ⟨fun id i hi => ?_, fun id i hi => ?_, fun i a ha => ?_⟩
  · cases hi
  · cases hi
  · cases ha

end RuntimeRun

end EngineRuntime
