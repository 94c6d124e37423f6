/-
# The parallel scheduler

`ParallelSchedulerEngine` and `ResourceManager` of
`akaal/migration/execution/scheduler/execution_engine.py`: tasks of an acyclic graph are dispatched when
their dependencies have succeeded, a worker is free and their table is not locked against them.

* `loadGraph` : the dependents and the in-degrees of a graph without cycles;
* `Engine.resume` : one piece of the loop of `start` between two points where other coroutines run;
* `schedulerStep` : the loop, the operations that end, and a shutdown.

`SchedulerConfiguration` is one that `validate` accepts; what the operations do is left open.
-/
import Akaal.PythonText
import Akaal.TransactionReconstruction

namespace PyDict

variable {α : Type*}

/-- The sum of a weight over the items. -/
def weight (f : String × α → ℕ) (d : PyDict α) : ℕ := (d.items.map f).sum

end PyDict

open PythonText

namespace ParallelScheduler

/-! ## Tasks and resources -/

/-- `TaskState`. -/
inductive TaskState where
  | pending
  | blocked
  | ready
  | running
  | retryWait
  | success
  | failed
  | skipped
  | recoveryUnknown
  deriving DecidableEq

/-- `SchedulableTask`, as far as the engine reads it. -/
structure SchedulableTask where
  taskId : String
  priority : ℤ
  dependencies : List String
  tableName : String
  heavyweight : Bool
  state : TaskState := .pending
  retryCount : ℕ := 0
  errorMessage : String := ""

/-- `TaskResult`, of the operation of a task. -/
structure TaskResult where
  status : TaskState
  errorMessage : Option String
  deriving DecidableEq

/-- The failure is taken for a passing one. -/
def TaskResult.isRetryable (result : TaskResult) : Bool :=
  let message := (lower (result.errorMessage.getD "")).toList
  decide ("connection".toList <:+: message) || decide ("lock".toList <:+: message)

/-- `ResourceManager`. -/
structure ResourceManager where
  maxWorkers : ℕ
  activeWorkers : ℕ
  lockedTables : Finset String
  heavyweightActive : Finset String

/-- `acquire_resources`; `none` when it returns `False`. -/
def ResourceManager.acquireResources (rm : ResourceManager) (task : SchedulableTask) :
    Option ResourceManager :=
  if rm.maxWorkers ≤ rm.activeWorkers then none
  else if task.tableName = "" then some { rm with activeWorkers := rm.activeWorkers + 1 }
  else if task.tableName ∈ rm.lockedTables ∧
      (task.heavyweight = true ∨ task.tableName ∈ rm.heavyweightActive) then none
  else
    some { rm with
      lockedTables := insert task.tableName rm.lockedTables
      heavyweightActive := if task.heavyweight then insert task.tableName rm.heavyweightActive
        else rm.heavyweightActive
      activeWorkers := rm.activeWorkers + 1 }

/-- `release_resources`. -/
def ResourceManager.releaseResources (rm : ResourceManager) (task : SchedulableTask) :
    ResourceManager :=
  if task.tableName = "" then { rm with activeWorkers := rm.activeWorkers - 1 }
  else
    { rm with
      heavyweightActive := if task.heavyweight then rm.heavyweightActive.erase task.tableName
        else rm.heavyweightActive
      lockedTables := rm.lockedTables.erase task.tableName
      activeWorkers := rm.activeWorkers - 1 }

/-! ## The graph -/

/-- The tasks under their ids, the in-degrees and the dependents. -/
structure Graph where
  tasks : PyDict SchedulableTask
  inDegree : PyDict ℤ
  adjacency : PyDict (List String)

namespace Graph

variable (g : Graph)

/-- The in-degree of a task. -/
def degree (id : String) : ℤ := (g.inDegree.get? id).getD 0

/-- The dependents of a task. -/
def children (id : String) : List String := (g.adjacency.get? id).getD []

/-- The ids of the tasks. -/
def ids : Finset String := g.adjacency.keys.toFinset

/-- The tasks of a list, before their dependencies are read. -/
def ofTasks (tasks : List SchedulableTask) : Graph where
  tasks := tasks.foldl (fun d t => d.set t.taskId t) .empty
  inDegree := tasks.foldl (fun d t => d.set t.taskId 0) .empty
  adjacency := tasks.foldl (fun d t => d.set t.taskId []) .empty

/-- A dependency of a task; one that is missing is passed over. -/
def addDependency (taskId dep : String) : Graph :=
  if (g.tasks.get? dep).isSome then
    { g with
      adjacency := g.adjacency.set dep (g.children dep ++ [taskId])
      inDegree := g.inDegree.set taskId (g.degree taskId + 1) }
  else g

/-- The dependencies of a task. -/
def addTask (task : SchedulableTask) : Graph :=
  task.dependencies.foldl (fun g dep => g.addDependency task.taskId dep) g

/-- The graph of a list of tasks. -/
def build (tasks : List SchedulableTask) : Graph := tasks.foldl addTask (ofTasks tasks)

end Graph

/-- The in-degrees and the queue after a node is visited: a child is queued when its in-degree becomes
zero. -/
def visitChild (s : PyDict ℤ × List String) (child : String) : PyDict ℤ × List String :=
  let degree := (s.1.get? child).getD 0 - 1
  (s.1.set child degree, if degree = 0 then s.2 ++ [child] else s.2)

/-- The nodes that are visited from a queue, counted; the bound is on their number. -/
def visit (g : Graph) : ℕ → PyDict ℤ → List String → ℕ
  | 0, _, _ => 0
  | _ + 1, _, [] => 0
  | bound + 1, degrees, node :: queue =>
    let s := (g.children node).foldl visitChild (degrees, queue)
    visit g bound s.1 s.2 + 1

/-- The tasks in the queue and the dependencies that may add to it. -/
def visitBound (degrees : PyDict ℤ) (queue : List String) : ℕ :=
  queue.length + degrees.weight fun item => item.2.toNat

/-- `_check_circular_dependencies` finds no cycle. -/
def isAcyclic (g : Graph) : Bool :=
  let queue := (g.inDegree.items.filter fun item => item.2 = 0).map Prod.fst
  decide (g.tasks.items.length ≤ visit g (visitBound g.inDegree queue) g.inDegree queue)

/-- `load_graph`; `none` when it raises a `DeadlockException`. -/
def loadGraph (tasks : List SchedulableTask) : Option Graph :=
  if isAcyclic (Graph.build tasks) then some (Graph.build tasks) else none

/-! ## The engine -/

/-- Where the loop of `start` is: at its top, among the futures that were done, in the backoff of a task,
in the pass over the queue, in the sleep at its end, or past it. -/
inductive LoopPhase where
  | top
  | handling (rest : List String)
  | backingOff (taskId : String) (rest : List String)
  | dispatching (rest : List String)
  | resting
  | stopped
  deriving DecidableEq

/-- `ParallelSchedulerEngine`, with its futures, each with its result when it is done, the tasks that were
started, and those whose success was handled. -/
structure Engine where
  retryLimit : ℕ
  graph : Graph
  readyQueue : List String
  rm : ResourceManager
  futures : List (String × Option TaskResult)
  phase : LoopPhase
  cancelled : Bool
  starts : List String
  succeeded : List String

namespace Engine

variable (e : Engine)

/-- A task is replaced. -/
def setTask (task : SchedulableTask) (id : String) : Engine :=
  { e with graph := { e.graph with tasks := e.graph.tasks.set id task } }

/-- A task enters a state. -/
def setState (id : String) (state : TaskState) : Engine :=
  match e.graph.tasks.get? id with
  | none => e
  | some task => e.setTask { task with state := state } id

/-- A task becomes ready. -/
def enqueue (id : String) : Engine :=
  let e := e.setState id .ready
  { e with readyQueue := e.readyQueue ++ [id] }

/-- The in-degree of a dependent is lowered, and the dependent is ready when it is zero. -/
def releaseDependent (child : String) : Engine :=
  let degree := e.graph.degree child - 1
  let e := { e with graph := { e.graph with inDegree := e.graph.inDegree.set child degree } }
  if degree = 0 then e.enqueue child else e

end Engine

/-- `_propagate_skipped`, over the dependents that are still to be seen; the bound is on their number. -/
def propagateSkipped (g : Graph) : ℕ → List String → PyDict SchedulableTask → PyDict SchedulableTask
  | 0, _, tasks => tasks
  | _ + 1, [], tasks => tasks
  | bound + 1, child :: rest, tasks =>
    match tasks.get? child with
    | none => propagateSkipped g bound rest tasks
    | some task =>
      if task.state = .skipped ∨ task.state = .failed then propagateSkipped g bound rest tasks
      else propagateSkipped g bound (g.children child ++ rest)
        (tasks.set child { task with state := .skipped })

/-- The dependents that a task may add to those that are still to be seen. -/
def skipWeight (g : Graph) (item : String × SchedulableTask) : ℕ :=
  if item.2.state = .skipped ∨ item.2.state = .failed then 0 else (g.children item.1).length

/-- The dependents that are still to be seen and those that may be added to them. -/
def skipBound (g : Graph) (stack : List String) (tasks : PyDict SchedulableTask) : ℕ :=
  stack.length + tasks.weight (skipWeight g)

namespace Engine

variable (e : Engine)

/-- `_propagate_skipped`. -/
def skipDependents (id : String) : Engine :=
  let children := e.graph.children id
  let tasks := propagateSkipped e.graph (skipBound e.graph children e.graph.tasks) children e.graph.tasks
  { e with graph := { e.graph with tasks := tasks } }

/-- The success of a task: its dependents are released. -/
def succeed (id : String) (rest : List String) : Engine :=
  let e := (e.graph.children id).foldl releaseDependent (e.setState id .success)
  { e with phase := .handling rest, succeeded := e.succeeded ++ [id] }

/-- A failure that is tried again, up to its backoff. -/
def retry (task : SchedulableTask) (id : String) (rest : List String) : Engine :=
  let e := e.setTask { task with state := .retryWait, retryCount := task.retryCount + 1 } id
  { e with phase := .backingOff id rest }

/-- A failure for good: the dependents are skipped. -/
def fail (task : SchedulableTask) (id message : String) (rest : List String) : Engine :=
  let e := (e.setTask { task with state := .failed, errorMessage := message } id).skipDependents id
  { e with phase := .handling rest }

/-- `_handle_task_completion`, up to the backoff of a task that is tried again. -/
def handleCompletion (id : String) (result : TaskResult) (rest : List String) : Engine :=
  match e.graph.tasks.get? id with
  | none => { e with phase := .handling rest }
  | some task =>
    let e := { e with rm := e.rm.releaseResources task }
    if result.status = .success then e.succeed id rest
    else if result.isRetryable = true ∧ task.retryCount < e.retryLimit then e.retry task id rest
    else e.fail task id (result.errorMessage.getD "") rest

/-- A future is taken off the list. -/
def removeFuture (id : String) : Engine := { e with futures := e.futures.eraseP fun f => f.1 = id }

/-- The result of a future, when it is done. -/
def resultOf (id : String) : Option TaskResult := (e.futures.lookup id).join

/-- The priority of a task in the queue. -/
def priorityOf (id : String) : ℤ := ((e.graph.tasks.get? id).map SchedulableTask.priority).getD 0

/-- The order of the queue: by priority, by id. -/
def precedes (id id' : String) : Prop :=
  e.priorityOf id < e.priorityOf id' ∨ e.priorityOf id = e.priorityOf id' ∧ id ≤ id'

instance : DecidableRel e.precedes := fun _ _ => inferInstanceAs (Decidable (_ ∨ _))

/-- The priority of the tasks in the queue is raised. -/
def boost (id : String) : Engine :=
  match e.graph.tasks.get? id with
  | none => e
  | some task => if 1 < task.priority then e.setTask { task with priority := 1 } id else e

/-- The queue is put in order, and the pass over it begins. -/
def orderQueue : Engine :=
  let e := e.readyQueue.foldl boost e
  let queue := e.readyQueue.insertionSort e.precedes
  { e with readyQueue := queue, phase := .dispatching queue }

/-- A task is started under its resources. -/
def dispatch (id : String) (rm : ResourceManager) (rest : List String) : Engine :=
  let e := e.setState id .running
  { e with
    rm := rm
    readyQueue := e.readyQueue.erase id
    futures := e.futures ++ [(id, none)]
    starts := e.starts ++ [id]
    phase := .dispatching rest }

/-- The tasks whose operation has not ended. -/
def running : List String := (e.futures.filter fun f => f.2.isNone).map Prod.fst

/-- What `acquire_resources` gives for a task of the queue. -/
def acquired (id : String) : Option ResourceManager :=
  (e.graph.tasks.get? id).bind e.rm.acquireResources

/-- One piece of the loop of `start`. -/
def resume : Engine :=
  match e.phase with
  | .top =>
    if e.readyQueue = [] ∧ e.futures = [] ∨ e.cancelled = true then { e with phase := .stopped }
    else { e with phase := .handling ((e.futures.filter fun f => f.2.isSome).map Prod.fst) }
  | .handling [] => e.orderQueue
  | .handling (id :: rest) =>
    match e.resultOf id with
    | none => { e with phase := .handling rest }
    | some result => (e.removeFuture id).handleCompletion id result rest
  | .backingOff id rest => { e.enqueue id with phase := .handling rest }
  | .dispatching [] => { e with phase := .resting }
  | .dispatching (id :: rest) =>
    match e.acquired id with
    | none => { e with phase := .resting }
    | some rm => e.dispatch id rm rest
  | .resting => { e with phase := .top }
  | .stopped => e

/-- The other coroutines run: the loop sleeps, or is past its end. -/
def isSuspended : Bool :=
  match e.phase with
  | .backingOff _ _ | .resting | .stopped => true
  | _ => false

/-- The operation of a task ends. -/
def finish (id : String) (result : TaskResult) : Option Engine :=
  if e.isSuspended = true ∧ (id, none) ∈ e.futures then
    some { e with futures := e.futures.map fun f => if f = (id, none) then (id, some result) else f }
  else none

/-- `shutdown`. -/
def shutdown : Option Engine :=
  if e.isSuspended then some { e with cancelled := true, readyQueue := [] } else none

end Engine

/-- The engine when `start` is at its loop: the tasks without dependencies are ready. -/
def startEngine (g : Graph) (maxWorkers retryLimit : ℕ) : Engine :=
  ((g.inDegree.items.filter fun item => item.2 = 0).map Prod.fst).foldl Engine.enqueue
    { retryLimit := retryLimit
      graph := g
      readyQueue := []
      rm := ⟨maxWorkers, 0, ∅, ∅⟩
      futures := []
      phase := .top
      cancelled := false
      starts := []
      succeeded := [] }

/-- What happens next. -/
inductive SchedulerEvent where
  | resume
  | finish (taskId : String) (result : TaskResult)
  | shutdown

/-- One event. -/
def schedulerStep (e : Engine) : SchedulerEvent → Option Engine
  | .resume => some e.resume
  | .finish id result => e.finish id result
  | .shutdown => e.shutdown

end ParallelScheduler
