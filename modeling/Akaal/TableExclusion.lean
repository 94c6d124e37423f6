/-
# What the parallel scheduler keeps

Over every run of `start`, the orders in which the operations end and the results they end with left
open:

* `Kept.schedulerStep` : the in-degrees count the dependencies that have not succeeded, and a task is
  queued, running, in its backoff or done only while its in-degree is zero, and in one of these places;
* `SchedulerRun.contract_iff` : the order, the number of starts and the number of workers are always
  kept, and a heavyweight task is alone on its table exactly when no task is dispatched beside one on a
  table that is no longer locked.
-/
import Akaal.TaskScheduler

open TransitionRun

namespace ParallelScheduler

/-! ## The parts of a task that stay -/

namespace Graph

variable (g : Graph)

/-- The table of a task; the empty name when it has none. -/
def tableOf (id : String) : String := ((g.tasks.get? id).map SchedulableTask.tableName).getD ""

/-- The task is heavyweight. -/
def isHeavy (id : String) : Bool := ((g.tasks.get? id).map SchedulableTask.heavyweight).getD false

/-- The retries of a task. -/
def retriesOf (id : String) : ℕ := ((g.tasks.get? id).map SchedulableTask.retryCount).getD 0

end Graph

theorem map_get?_set {β : Type*} (f : SchedulableTask → β) {tasks : PyDict SchedulableTask} {id : String}
    {task task' : SchedulableTask} (hget : tasks.get? id = some task) (hf : f task' = f task)
    (k : String) : ((tasks.set id task').get? k).map f = (tasks.get? k).map f := by
  by_cases hk : k = id
  · rw [hk, PyDict.get?_set, hget, Option.map_some, Option.map_some, hf]
  · rw [PyDict.get?_set_of_ne _ _ hk]

/-- Skipping changes the state of a task and nothing else. -/
theorem map_get?_propagateSkipped {β : Type*} (f : SchedulableTask → β)
    (hf : ∀ task : SchedulableTask, f { task with state := .skipped } = f task) (g : Graph) (bound : ℕ)
    (stack : List String) (tasks : PyDict SchedulableTask) (k : String) :
    ((propagateSkipped g bound stack tasks).get? k).map f = (tasks.get? k).map f := by
  induction bound generalizing stack tasks with
  | zero => rfl
  | succ bound ih =>
    rcases stack with - | ⟨child, rest⟩
    · rfl
    · rw [propagateSkipped]
      rcases htask : tasks.get? child with - | task
      · exact ih rest tasks
      · dsimp only
        split_ifs
        · exact ih rest tasks
        · rw [ih, map_get?_set f htask (hf task)]

/-- A change of the engine that touches neither the pool of workers nor the loop: the states, the
priorities, the queue and the in-degrees may change. -/
structure Quiet (e e' : Engine) : Prop where
  adjacency : e'.graph.adjacency = e.graph.adjacency
  table : ∀ id, e'.graph.tableOf id = e.graph.tableOf id
  heavy : ∀ id, e'.graph.isHeavy id = e.graph.isHeavy id
  retries : ∀ id, e'.graph.retriesOf id = e.graph.retriesOf id
  limit : e'.retryLimit = e.retryLimit
  rm : e'.rm = e.rm
  futures : e'.futures = e.futures
  starts : e'.starts = e.starts
  succeeded : e'.succeeded = e.succeeded
  phase : e'.phase = e.phase

namespace Quiet

theorem refl (e : Engine) : Quiet e e :=
  ⟨rfl, fun _ => rfl, fun _ => rfl, fun _ => rfl, rfl, rfl, rfl, rfl, rfl, rfl⟩

theorem trans {e e' e'' : Engine} (h : Quiet e e') (h' : Quiet e' e'') : Quiet e e'' where
  adjacency := h'.adjacency.trans h.adjacency
  table := fun id => (h'.table id).trans (h.table id)
  heavy := fun id => (h'.heavy id).trans (h.heavy id)
  retries := fun id => (h'.retries id).trans (h.retries id)
  limit := h'.limit.trans h.limit
  rm := h'.rm.trans h.rm
  futures := h'.futures.trans h.futures
  starts := h'.starts.trans h.starts
  succeeded := h'.succeeded.trans h.succeeded
  phase := h'.phase.trans h.phase

theorem foldl {f : Engine → String → Engine} (hf : ∀ e id, Quiet e (f e id)) (ids : List String)
    (e : Engine) : Quiet e (ids.foldl f e) := by
  induction ids generalizing e with
  | nil => exact refl e
  | cons id ids ih =>
    rw [List.foldl_cons]
    exact (hf e id).trans (ih (f e id))

/-- The tasks are replaced by ones with the same table, weight and retries. -/
theorem of_tasks (e : Engine) (tasks : PyDict SchedulableTask)
    (h : ∀ id, (tasks.get? id).map (fun task => (task.tableName, task.heavyweight, task.retryCount)) =
      (e.graph.tasks.get? id).map fun task => (task.tableName, task.heavyweight, task.retryCount)) :
    Quiet e { e with graph := { e.graph with tasks := tasks } } where
  adjacency := rfl
  table := fun id => by
    have htable := congrArg (fun o => (o.map Prod.fst).getD "") (h id)
    rwa [Option.map_map, Option.map_map] at htable
  heavy := fun id => by
    have hheavy := congrArg (fun o => (o.map fun p => p.2.1).getD false) (h id)
    rwa [Option.map_map, Option.map_map] at hheavy
  retries := fun id => by
    have hretries := congrArg (fun o => (o.map fun p => p.2.2).getD 0) (h id)
    rwa [Option.map_map, Option.map_map] at hretries
  limit := rfl
  rm := rfl
  futures := rfl
  starts := rfl
  succeeded := rfl
  phase := rfl

theorem setState (e : Engine) (id : String) (state : TaskState) : Quiet e (e.setState id state) := by
  rw [Engine.setState]
  rcases htask : e.graph.tasks.get? id with - | task
  · exact refl e
  · exact of_tasks e _ (map_get?_set _ htask rfl)

theorem enqueue (e : Engine) (id : String) : Quiet e (e.enqueue id) := by
  obtain ⟨h1, h2, h3, h4, h5, h6, h7, h8, h9, h10⟩ := setState e id .ready
  exact ⟨h1, h2, h3, h4, h5, h6, h7, h8, h9, h10⟩

theorem releaseDependent (e : Engine) (child : String) : Quiet e (e.releaseDependent child) := by
  have hdegree : Quiet e { e with graph := { e.graph with
      inDegree := e.graph.inDegree.set child (e.graph.degree child - 1) } } :=
    ⟨rfl, fun _ => rfl, fun _ => rfl, fun _ => rfl, rfl, rfl, rfl, rfl, rfl, rfl⟩
  rw [Engine.releaseDependent]
  split_ifs
  · exact hdegree.trans (enqueue _ child)
  · exact hdegree

theorem boost (e : Engine) (id : String) : Quiet e (e.boost id) := by
  rw [Engine.boost]
  rcases htask : e.graph.tasks.get? id with - | task
  · exact refl e
  · dsimp only
    split_ifs
    · exact of_tasks e _ (map_get?_set _ htask rfl)
    · exact refl e

theorem skipDependents (e : Engine) (id : String) : Quiet e (e.skipDependents id) :=
  of_tasks e _ (map_get?_propagateSkipped _ (fun _ => rfl) e.graph _ _ _)

end Quiet

/-! ## The queue and the in-degrees -/

namespace Engine

variable (e : Engine) (id : String)

@[simp] theorem readyQueue_setState (state : TaskState) :
    (e.setState id state).readyQueue = e.readyQueue := by
  rw [setState]
  rcases e.graph.tasks.get? id with - | task <;> rfl

@[simp] theorem inDegree_setState (state : TaskState) :
    (e.setState id state).graph.inDegree = e.graph.inDegree := by
  rw [setState]
  rcases e.graph.tasks.get? id with - | task <;> rfl

@[simp] theorem readyQueue_enqueue : (e.enqueue id).readyQueue = e.readyQueue ++ [id] := by
  rw [enqueue, readyQueue_setState]

@[simp] theorem inDegree_enqueue : (e.enqueue id).graph.inDegree = e.graph.inDegree := by
  rw [enqueue, inDegree_setState]

@[simp] theorem readyQueue_boost : (e.boost id).readyQueue = e.readyQueue := by
  rw [boost]
  rcases e.graph.tasks.get? id with - | task
  · rfl
  · dsimp only
    split_ifs <;> rfl

@[simp] theorem inDegree_boost : (e.boost id).graph.inDegree = e.graph.inDegree := by
  rw [boost]
  rcases e.graph.tasks.get? id with - | task
  · rfl
  · dsimp only
    split_ifs <;> rfl

theorem degree_releaseDependent (t : String) :
    (e.releaseDependent id).graph.degree t = e.graph.degree t - if t = id then 1 else 0 := by
  have hdegree : (e.releaseDependent id).graph.inDegree =
      e.graph.inDegree.set id (e.graph.degree id - 1) := by
    rw [releaseDependent]
    split_ifs
    · exact inDegree_enqueue _ _
    · rfl
  rw [Graph.degree, hdegree]
  split_ifs with ht
  · rw [ht, PyDict.get?_set, Option.getD_some]
  · rw [PyDict.get?_set_of_ne _ _ ht, sub_zero, Graph.degree]

theorem readyQueue_releaseDependent : (e.releaseDependent id).readyQueue =
      if e.graph.degree id = 1 then e.readyQueue ++ [id] else e.readyQueue := by
  rw [releaseDependent]
  by_cases h : e.graph.degree id = 1
  · rw [if_pos (by omega), if_pos h, readyQueue_enqueue]
  · rw [if_neg (by omega), if_neg h]

/-- The dependents of a task are released: each in-degree falls by the number of its occurrences, and
those that come to zero are queued once. -/
theorem foldl_releaseDependent (children : List String) (e : Engine)
    (hle : ∀ t, (children.count t : ℤ) ≤ e.graph.degree t) (t : String) :
    (children.foldl releaseDependent e).graph.degree t = e.graph.degree t - children.count t ∧
      (children.foldl releaseDependent e).readyQueue.count t = e.readyQueue.count t +
        if 0 < children.count t ∧ e.graph.degree t = children.count t then 1 else 0 := by
  induction children generalizing e with
  | nil => simp
  | cons child children ih =>
    rw [List.foldl_cons]
    have hchild := hle child
    rw [List.count_cons_self] at hchild
    obtain ⟨hdegree, hqueue⟩ := ih (e.releaseDependent child) fun t' => by
      have ht' := hle t'
      rw [degree_releaseDependent]
      rw [List.count_cons] at ht'
      by_cases h : t' = child
      · subst h
        simp only [beq_self_eq_true, if_true] at ht' ⊢
        omega
      · rw [beq_false_of_ne (Ne.symm h)] at ht'
        rw [if_neg h]
        simpa using ht'
    rw [hdegree, hqueue, degree_releaseDependent, readyQueue_releaseDependent]
    by_cases ht : t = child
    · subst ht
      rw [List.count_cons_self, if_pos rfl]
      refine ⟨by omega, ?_⟩
      by_cases hone : e.graph.degree t = 1
      · rw [if_pos hone, List.count_append, List.count_singleton_self]
        have hzero : children.count t = 0 := by omega
        rw [if_neg (by omega), if_pos (by omega)]
      · rw [if_neg hone]
        by_cases heq : e.graph.degree t = ↑(children.count t + 1)
        · rw [if_pos (by omega), if_pos (by omega)]
        · rw [if_neg (by omega), if_neg (by omega)]
    · have hcount : (child :: children).count t = children.count t :=
        List.count_cons_of_ne (Ne.symm ht)
      rw [hcount, if_neg ht, sub_zero]
      refine ⟨rfl, ?_⟩
      congr 1
      split_ifs
      · rw [List.count_append, List.count_singleton, beq_false_of_ne (Ne.symm ht)]
        simp
      · rfl

end Engine

/-! ## The graph of a list of tasks -/

namespace Graph

variable (g : Graph)

/-- The dependencies of a task that are not among the succeeded ones, counted as `dependencies` lists
them. -/
def openDegree (succeeded : List String) (id : String) : ℕ :=
  ∑ d ∈ g.ids, if d ∈ succeeded then 0 else (g.children d).count id

theorem mem_ids_iff {id : String} : id ∈ g.ids ↔ (g.adjacency.get? id).isSome = true := by
  rw [ids, List.mem_toFinset, PyDict.keys, List.mem_map, Option.isSome_iff_exists]
  constructor
  · rintro ⟨⟨k, children⟩, hitem, rfl⟩
    exact ⟨children, g.adjacency.mem_items_iff.mp hitem⟩
  · rintro ⟨children, hget⟩
    exact ⟨(id, children), g.adjacency.mem_items_iff.mpr hget, rfl⟩

theorem children_eq_nil {id : String} (h : id ∉ g.ids) : g.children id = [] := by
  rcases hget : g.adjacency.get? id with - | children
  · rw [children, hget, Option.getD_none]
  · exact absurd (g.mem_ids_iff.mpr (by rw [hget]; rfl)) h

theorem openDegree_append {succeeded : List String} {id : String} (h : id ∉ succeeded) (t : String) :
    g.openDegree (succeeded ++ [id]) t + (g.children id).count t = g.openDegree succeeded t := by
  by_cases hid : id ∈ g.ids
  · rw [openDegree, openDegree, ← Finset.add_sum_erase _ _ hid, ← Finset.add_sum_erase _ _ hid,
      if_pos (List.mem_append_right _ (List.mem_singleton_self id)), if_neg h, zero_add, add_comm]
    congr 1
    refine Finset.sum_congr rfl fun d hd => ?_
    have hne : d ≠ id := Finset.ne_of_mem_erase hd
    simp [hne]
  · rw [children_eq_nil g hid, List.count_nil, add_zero]
    refine Finset.sum_congr rfl fun d hd => ?_
    have hne : d ≠ id := ne_of_mem_of_not_mem hd hid
    simp [hne]

theorem mem_of_openDegree_eq_zero {succeeded : List String} {id d : String}
    (hzero : g.openDegree succeeded id = 0) (hd : id ∈ g.children d) : d ∈ succeeded := by
  by_contra hopen
  have hmem : d ∈ g.ids := by
    by_contra hmem
    rw [children_eq_nil g hmem] at hd
    cases hd
  have hterm := Finset.sum_eq_zero_iff.mp hzero d hmem
  rw [if_neg hopen, List.count_eq_zero] at hterm
  exact hterm hd

/-- The in-degrees count the dependencies, and every task has a list of dependents. -/
structure Counted : Prop where
  degree : ∀ id, g.degree id = g.openDegree [] id
  listed : ∀ id, (g.tasks.get? id).isSome = true → id ∈ g.ids

/-- A fold of assignments has the key of each of its members, and every value is one of theirs. -/
theorem get?_foldl_set {β : Type*} (f : SchedulableTask → β) (tasks : List SchedulableTask)
    (d : PyDict β) (id : String) :
    ((tasks.foldl (fun d t => d.set t.taskId (f t)) d).get? id).isSome = true ↔
      (d.get? id).isSome = true ∨ ∃ t ∈ tasks, t.taskId = id := by
  induction tasks generalizing d with
  | nil => simp
  | cons task tasks ih =>
    rw [List.foldl_cons, ih]
    by_cases hid : id = task.taskId
    · simp [hid]
    · rw [PyDict.get?_set_of_ne _ _ hid]
      simp [Ne.symm hid]

theorem getD_foldl_set {β : Type*} (c : β) (tasks : List SchedulableTask) (d : PyDict β)
    (hd : ∀ id, (d.get? id).getD c = c) (id : String) :
    ((tasks.foldl (fun d t => d.set t.taskId c) d).get? id).getD c = c := by
  induction tasks generalizing d with
  | nil => exact hd id
  | cons task tasks ih =>
    rw [List.foldl_cons]
    refine ih _ fun k => ?_
    by_cases hk : k = task.taskId
    · rw [hk, PyDict.get?_set, Option.getD_some]
    · rw [PyDict.get?_set_of_ne _ _ hk, hd]

theorem counted_ofTasks (tasks : List SchedulableTask) : Counted (ofTasks tasks) where
  degree id := by
    have hdegree : (ofTasks tasks).degree id = 0 := getD_foldl_set 0 tasks .empty (fun _ => rfl) id
    have hchildren : ∀ d, (ofTasks tasks).children d = [] :=
      getD_foldl_set [] tasks .empty fun _ => rfl
    rw [hdegree, openDegree, Finset.sum_eq_zero, Nat.cast_zero]
    intro d _
    rw [if_neg List.not_mem_nil, hchildren, List.count_nil]
  listed id h := by
    rw [mem_ids_iff, ofTasks, get?_foldl_set (fun _ => []) tasks .empty id]
    exact (get?_foldl_set (fun t => t) tasks .empty id).mp h

variable {g} {taskId dep : String}

theorem children_addDependency (hdep : (g.tasks.get? dep).isSome = true) (d : String) :
    (g.addDependency taskId dep).children d =
      if d = dep then g.children d ++ [taskId] else g.children d := by
  rw [addDependency, if_pos hdep, children]
  split_ifs with hd
  · rw [hd, PyDict.get?_set, Option.getD_some]
  · rw [PyDict.get?_set_of_ne _ _ hd, children]

@[simp] theorem tasks_addDependency : (g.addDependency taskId dep).tasks = g.tasks := by
  rw [addDependency]
  split_ifs <;> rfl

theorem children_subset_addDependency (d : String) :
    g.children d ⊆ (g.addDependency taskId dep).children d := by
  by_cases hdep : (g.tasks.get? dep).isSome = true
  · rw [children_addDependency hdep]
    split_ifs
    · exact List.subset_append_left _ _
    · exact List.Subset.refl _
  · rw [addDependency, if_neg hdep]
    exact List.Subset.refl _

theorem ids_addDependency (h : Counted g) : (g.addDependency taskId dep).ids = g.ids := by
  rw [addDependency]
  split_ifs with hdep
  · ext d
    rw [mem_ids_iff, mem_ids_iff]
    by_cases hd : d = dep
    · rw [hd, PyDict.get?_set]
      exact ⟨fun _ => g.mem_ids_iff.mp (h.listed dep hdep), fun _ => rfl⟩
    · rw [PyDict.get?_set_of_ne _ _ hd]
  · rfl

theorem Counted.addDependency (h : Counted g) (taskId dep : String) :
    Counted (g.addDependency taskId dep) where
  degree id := by
    by_cases hdep : (g.tasks.get? dep).isSome = true
    · have hdegree : (g.addDependency taskId dep).degree id =
          g.degree id + if id = taskId then 1 else 0 := by
        rw [Graph.addDependency, if_pos hdep, Graph.degree]
        split_ifs with hid
        · rw [hid, PyDict.get?_set, Option.getD_some]
        · rw [PyDict.get?_set_of_ne _ _ hid, add_zero, Graph.degree]
      have hopen : (g.addDependency taskId dep).openDegree [] id =
          g.openDegree [] id + if id = taskId then 1 else 0 := by
        have hmem : dep ∈ g.ids := h.listed dep hdep
        rw [openDegree, openDegree, ids_addDependency h, ← Finset.add_sum_erase _ _ hmem,
          ← Finset.add_sum_erase _ _ hmem, children_addDependency hdep, if_pos rfl,
          if_neg List.not_mem_nil, if_neg List.not_mem_nil, List.count_append, List.count_singleton]
        have hrest : ∀ d ∈ g.ids.erase dep, (if d ∈ ([] : List String) then 0
              else ((g.addDependency taskId dep).children d).count id) =
            if d ∈ ([] : List String) then 0 else (g.children d).count id := by
          intro d hd
          rw [children_addDependency hdep, if_neg (Finset.ne_of_mem_erase hd)]
        rw [Finset.sum_congr rfl hrest]
        by_cases hid : id = taskId
        · rw [hid, beq_self_eq_true, if_pos rfl, if_pos rfl]
          omega
        · rw [beq_false_of_ne (Ne.symm hid), if_neg hid, if_neg Bool.false_ne_true]
          omega
      rw [hdegree, hopen, h.degree]
      split_ifs <;> push_cast <;> rfl
    · rw [Graph.addDependency, if_neg hdep]
      exact h.degree id
  listed id hid := by
    rw [ids_addDependency h]
    rw [tasks_addDependency] at hid
    exact h.listed id hid

theorem foldl_addDependency (deps : List String) (g : Graph) (taskId : String) (h : Counted g) :
    let g' := deps.foldl (fun g dep => g.addDependency taskId dep) g
    Counted g' ∧ g'.tasks = g.tasks ∧ (∀ d, g.children d ⊆ g'.children d) ∧
      ∀ dep ∈ deps, (g.tasks.get? dep).isSome = true → taskId ∈ g'.children dep := by
  induction deps generalizing g with
  | nil => exact ⟨h, rfl, fun _ => List.Subset.refl _, fun _ hdep => by cases hdep⟩
  | cons dep deps ih =>
    obtain ⟨hcounted, htasks, hsubset, hmem⟩ := ih (g.addDependency taskId dep)
      (h.addDependency taskId dep)
    rw [List.foldl_cons]
    refine ⟨hcounted, htasks.trans tasks_addDependency,
      fun d => List.Subset.trans (children_subset_addDependency d) (hsubset d), ?_⟩
    intro dep' hdep' hin
    rcases List.mem_cons.mp hdep' with rfl | hdep'
    · apply hsubset
      rw [children_addDependency hin, if_pos rfl]
      exact List.mem_concat_self
    · exact hmem dep' hdep' (by rwa [tasks_addDependency])

/-- **The graph that is loaded.**  The in-degrees count the dependencies, and each task is among the
dependents of each of its dependencies that is in the graph. -/
theorem build_spec (tasks : List SchedulableTask) :
    Counted (build tasks) ∧ ∀ task ∈ tasks, ∀ dep ∈ task.dependencies,
      ((build tasks).tasks.get? dep).isSome = true → task.taskId ∈ (build tasks).children dep := by
  suffices h : ∀ (l : List SchedulableTask) (g : Graph), Counted g →
      Counted (l.foldl addTask g) ∧ (l.foldl addTask g).tasks = g.tasks ∧
        (∀ d, g.children d ⊆ (l.foldl addTask g).children d) ∧
        ∀ task ∈ l, ∀ dep ∈ task.dependencies, (g.tasks.get? dep).isSome = true →
          task.taskId ∈ (l.foldl addTask g).children dep by
    obtain ⟨hcounted, htasks, -, hmem⟩ := h tasks (ofTasks tasks) (counted_ofTasks tasks)
    exact ⟨hcounted, fun task htask dep hdep hin => hmem task htask dep hdep (by rwa [← htasks])⟩
  intro l
  induction l with
  | nil => exact fun g h => ⟨h, rfl, fun _ => List.Subset.refl _, fun _ htask => by cases htask⟩
  | cons task l ih =>
    intro g h
    obtain ⟨hcounted, htasks, hsubset, hmem⟩ := foldl_addDependency task.dependencies g task.taskId h
    obtain ⟨hcounted', htasks', hsubset', hmem'⟩ := ih (g.addTask task) hcounted
    rw [List.foldl_cons]
    refine ⟨hcounted', htasks'.trans htasks, fun d => List.Subset.trans (hsubset d) (hsubset' d), ?_⟩
    intro task' htask' dep hdep hin
    rcases List.mem_cons.mp htask' with rfl | htask'
    · exact hsubset' dep (hmem dep hdep hin)
    · refine hmem' task' htask' dep hdep ?_
      rw [addTask, htasks]
      exact hin

end Graph

/-! ## What the engine keeps -/

/-- The task in its backoff. -/
def LoopPhase.backoff : LoopPhase → List String
  | .backingOff id _ => [id]
  | _ => []

/-- The tasks that are to be started: those of the queue, and the one in its backoff. -/
def Engine.waiting (e : Engine) : List String := e.readyQueue ++ e.phase.backoff

/-- The tasks of the futures. -/
def Engine.futureIds (e : Engine) : List String := e.futures.map Prod.fst

/-- The tasks, the in-degrees, the queue, the futures and the workers belong together. -/
structure Kept (g : Graph) (maxWorkers retryLimit : ℕ) (e : Engine) : Prop where
  adjacency : e.graph.adjacency = g.adjacency
  table : ∀ id, e.graph.tableOf id = g.tableOf id
  heavy : ∀ id, e.graph.isHeavy id = g.isHeavy id
  limit : e.retryLimit = retryLimit
  size : e.rm.maxWorkers = maxWorkers
  degree : ∀ id, e.graph.degree id = g.openDegree e.succeeded id
  once : ∀ id, e.waiting.count id + e.futureIds.count id + e.succeeded.count id ≤ 1
  closed : ∀ id, e.graph.degree id ≠ 0 →
    e.waiting.count id + e.futureIds.count id + e.succeeded.count id + e.starts.count id = 0
  bounded : ∀ id, e.starts.count id + e.waiting.count id + g.retriesOf id ≤ e.graph.retriesOf id + 1
  retries : ∀ id, g.retriesOf id ≤ e.graph.retriesOf id ∧
    e.graph.retriesOf id ≤ max (g.retriesOf id) retryLimit
  active : e.futures.length ≤ e.rm.activeWorkers ∧ e.rm.activeWorkers ≤ e.rm.maxWorkers
  queued : ∀ rest, e.phase = .dispatching rest → e.readyQueue = rest

/-- What `acquire_resources` checks and takes. -/
theorem ResourceManager.acquireResources_spec {rm rm' : ResourceManager} {task : SchedulableTask}
    (h : rm.acquireResources task = some rm') :
    rm.activeWorkers < rm.maxWorkers ∧ rm'.activeWorkers = rm.activeWorkers + 1 ∧
      rm'.maxWorkers = rm.maxWorkers ∧
      (task.tableName = "" ∧ rm'.lockedTables = rm.lockedTables ∧
          rm'.heavyweightActive = rm.heavyweightActive ∨
        task.tableName ≠ "" ∧ ¬ (task.tableName ∈ rm.lockedTables ∧
            (task.heavyweight = true ∨ task.tableName ∈ rm.heavyweightActive)) ∧
          rm'.lockedTables = insert task.tableName rm.lockedTables ∧
          rm'.heavyweightActive = if task.heavyweight then insert task.tableName rm.heavyweightActive
            else rm.heavyweightActive) := by
  rw [acquireResources] at h
  by_cases hfull : rm.maxWorkers ≤ rm.activeWorkers
  · rw [if_pos hfull] at h
    cases h
  by_cases htable : task.tableName = ""
  · rw [if_neg hfull, if_pos htable] at h
    cases h
    exact ⟨by omega, rfl, rfl, .inl ⟨htable, rfl, rfl⟩⟩
  · rw [if_neg hfull, if_neg htable] at h
    by_cases hlocked : task.tableName ∈ rm.lockedTables ∧
        (task.heavyweight = true ∨ task.tableName ∈ rm.heavyweightActive)
    · rw [if_pos hlocked] at h
      cases h
    · rw [if_neg hlocked] at h
      cases h
      exact ⟨by omega, rfl, rfl, .inr ⟨htable, hlocked, rfl, rfl⟩⟩

theorem ResourceManager.releaseResources_workers (rm : ResourceManager) (task : SchedulableTask) :
    (rm.releaseResources task).activeWorkers = rm.activeWorkers - 1 ∧
      (rm.releaseResources task).maxWorkers = rm.maxWorkers := by
  rw [releaseResources]
  split_ifs <;> exact ⟨rfl, rfl⟩

namespace Engine

variable {e : Engine} {id : String}

theorem mem_futures_of_resultOf {result : TaskResult} (h : e.resultOf id = some result) :
    (id, some result) ∈ e.futures := by
  rw [resultOf, Option.join_eq_some_iff, List.lookup_eq_some_iff] at h
  obtain ⟨before, after, hfutures, -⟩ := h
  rw [hfutures]
  exact List.mem_append_right _ List.mem_cons_self

theorem futureIds_removeFuture (e : Engine) (id : String) :
    (e.removeFuture id).futureIds = e.futureIds.erase id := by
  rw [futureIds, futureIds, List.erase_eq_eraseP', removeFuture, List.eraseP_map]
  congr 2

theorem count_removeFuture (hid : id ∈ e.futureIds) (t : String) :
    (e.removeFuture id).futureIds.count t + [id].count t = e.futureIds.count t := by
  rw [futureIds_removeFuture, (List.perm_cons_erase hid).count_eq t, add_comm, ← List.count_append,
    List.singleton_append]

theorem length_removeFuture (hid : id ∈ e.futureIds) :
    (e.removeFuture id).futures.length + 1 = e.futures.length := by
  have hlength := congrArg List.length (e.futureIds_removeFuture id)
  have hpos := List.length_pos_of_mem hid
  rw [List.length_erase_of_mem hid] at hlength
  simp only [futureIds, List.length_map] at hlength hpos
  omega

end Engine

namespace Kept

variable {g : Graph} {maxWorkers retryLimit : ℕ} {e : Engine}

/-- A quiet change that leaves the in-degrees, and then a queue and a phase with the same tasks to be
started. -/
theorem moved {e' : Engine} (h : Kept g maxWorkers retryLimit e) (hq : Quiet e e')
    (hdegree : e'.graph.inDegree = e.graph.inDegree) (queue : List String) {phase : LoopPhase}
    (hwaiting : ∀ t, (queue ++ phase.backoff).count t = e.waiting.count t)
    (hqueued : ∀ rest, phase = .dispatching rest → queue = rest) :
    Kept g maxWorkers retryLimit { e' with readyQueue := queue, phase := phase } := by
  set e'' : Engine := { e' with readyQueue := queue, phase := phase } with he
  have hids : e''.futureIds = e.futureIds := congrArg (List.map Prod.fst) hq.futures
  have hdegrees : ∀ t, e''.graph.degree t = e.graph.degree t :=
    fun t => congrArg (fun d => (PyDict.get? d t).getD 0) hdegree
  have hwait : ∀ t, e''.waiting.count t = e.waiting.count t := hwaiting
  have hsucceeded : e''.succeeded = e.succeeded := hq.succeeded
  have hstarts : e''.starts = e.starts := hq.starts
  have hretries : ∀ t, e''.graph.retriesOf t = e.graph.retriesOf t := hq.retries
  have hrm : e''.rm = e.rm := hq.rm
  have hfutures : e''.futures = e.futures := hq.futures
  exact {
    adjacency := hq.adjacency.trans h.adjacency
    table := fun t => (hq.table t).trans (h.table t)
    heavy := fun t => (hq.heavy t).trans (h.heavy t)
    limit := hq.limit.trans h.limit
    size := by rw [hrm, h.size]
    degree := fun t => by rw [hdegrees, hsucceeded, h.degree]
    once := fun t => by
      rw [hwait, hids, hsucceeded]
      exact h.once t
    closed := fun t ht => by
      rw [hwait, hids, hsucceeded, hstarts]
      rw [hdegrees] at ht
      exact h.closed t ht
    bounded := fun t => by
      rw [hwait, hstarts, hretries]
      exact h.bounded t
    retries := fun t => by
      rw [hretries]
      exact h.retries t
    active := by
      rw [hrm, hfutures]
      exact h.active
    queued := hqueued }

theorem idle (h : Kept g maxWorkers retryLimit e) {phase : LoopPhase} (hfrom : e.phase.backoff = [])
    (hto : phase.backoff = []) (hqueued : ∀ rest, phase = .dispatching rest → e.readyQueue = rest) :
    Kept g maxWorkers retryLimit { e with phase := phase } := by
  refine h.moved (Quiet.refl e) rfl e.readyQueue (fun t => ?_) hqueued
  rw [Engine.waiting, hfrom, hto]

theorem orderQueue (h : Kept g maxWorkers retryLimit e) (hphase : e.phase.backoff = []) :
    Kept g maxWorkers retryLimit e.orderQueue := by
  have hboost : ∀ (ids : List String) (e : Engine),
      (ids.foldl Engine.boost e).readyQueue = e.readyQueue ∧
        (ids.foldl Engine.boost e).graph.inDegree = e.graph.inDegree := by
    intro ids
    induction ids with
    | nil => exact fun e => ⟨rfl, rfl⟩
    | cons id ids ih =>
      intro e
      rw [List.foldl_cons, (ih _).1, (ih _).2, Engine.readyQueue_boost, Engine.inDegree_boost]
      exact ⟨rfl, rfl⟩
  obtain ⟨hqueue, hdegree⟩ := hboost e.readyQueue e
  refine h.moved (Quiet.foldl Quiet.boost e.readyQueue e) hdegree _ (fun t => ?_) fun rest hrest => ?_
  · rw [Engine.waiting, hphase]
    show List.count t (List.insertionSort _ _ ++ []) = _
    rw [List.append_nil, List.append_nil]
    exact ((List.perm_insertionSort (Engine.precedes _) _).count_eq t).trans
      (congrArg (List.count t) hqueue)
  · cases hrest
    rfl

theorem of_mem_futureIds (h : Kept g maxWorkers retryLimit e) {id : String} (hid : id ∈ e.futureIds) :
    e.graph.degree id = 0 ∧ e.waiting.count id = 0 ∧ id ∉ e.succeeded := by
  have hpos := List.count_pos_iff.mpr hid
  have honce := h.once id
  refine ⟨?_, by omega, List.count_eq_zero.mp (by omega)⟩
  by_contra hdegree
  have hclosed := h.closed id hdegree
  omega

/-- A future is taken off the list and its worker is freed, with nothing else done for its task. -/
theorem removed (h : Kept g maxWorkers retryLimit e) (hphase : e.phase.backoff = []) {id : String}
    (hid : id ∈ e.futureIds) {rm : ResourceManager} (hsize : rm.maxWorkers = e.rm.maxWorkers)
    (hactive : e.rm.activeWorkers ≤ rm.activeWorkers + 1 ∧ rm.activeWorkers ≤ e.rm.activeWorkers)
    (rest : List String) :
    Kept g maxWorkers retryLimit { e.removeFuture id with rm := rm, phase := .handling rest } := by
  have hwaiting : ({ e.removeFuture id with rm := rm, phase := .handling rest } : Engine).waiting =
      e.waiting := by
    rw [Engine.waiting, Engine.waiting, hphase]
    rfl
  have hcount := Engine.count_removeFuture hid
  have hlength := Engine.length_removeFuture hid
  refine { h with once := ?_, closed := ?_, bounded := ?_, size := ?_, active := ?_, queued := ?_ }
  · exact hsize.trans h.size
  · intro t
    rw [hwaiting]
    have honce := h.once t
    have ht := hcount t
    show e.waiting.count t + (e.removeFuture id).futureIds.count t + e.succeeded.count t ≤ 1
    omega
  · intro t hdegree
    rw [hwaiting]
    have hclosed := h.closed t hdegree
    have ht := hcount t
    show e.waiting.count t + (e.removeFuture id).futureIds.count t + e.succeeded.count t +
      e.starts.count t = 0
    omega
  · intro t
    rw [hwaiting]
    exact h.bounded t
  · have hle := h.active
    show (e.removeFuture id).futures.length ≤ rm.activeWorkers ∧ rm.activeWorkers ≤ rm.maxWorkers
    omega
  · intro rest' hrest
    cases hrest

/-- A task succeeds: its dependents have one open dependency less for each time they name it, and those
without any are queued for the first time. -/
theorem succeed (h : Kept g maxWorkers retryLimit e) (hphase : e.phase.backoff = []) {id : String}
    (hplace : e.waiting.count id = 0 ∧ e.futureIds.count id = 0 ∧ e.succeeded.count id = 0)
    (hdegree : e.graph.degree id = 0) (rest : List String) :
    Kept g maxWorkers retryLimit (e.succeed id rest) := by
  have hchildren : e.graph.children id = g.children id := by
    rw [Graph.children, Graph.children, h.adjacency]
  have hopen : ∀ t, g.openDegree (e.succeeded ++ [id]) t + (g.children id).count t =
      g.openDegree e.succeeded t := g.openDegree_append (List.count_eq_zero.mp hplace.2.2)
  have hdegreeSet : ∀ t, (e.setState id .success).graph.degree t = e.graph.degree t := fun t => by
    rw [Graph.degree, Graph.degree, Engine.inDegree_setState]
  have hreleased := Engine.foldl_releaseDependent (g.children id) (e.setState id .success) fun t => by
    rw [hdegreeSet, h.degree]
    exact_mod_cast Nat.le_of_add_left_le (hopen t).le
  have hq : Quiet e ((g.children id).foldl Engine.releaseDependent (e.setState id .success)) :=
    (Quiet.setState e id .success).trans (Quiet.foldl Quiet.releaseDependent _ _)
  have hresult : e.succeed id rest =
      { (g.children id).foldl Engine.releaseDependent (e.setState id .success) with
        phase := .handling rest
        succeeded := ((g.children id).foldl Engine.releaseDependent
          (e.setState id .success)).succeeded ++ [id] } := by
    rw [Engine.succeed, hchildren]
  have hwaiting : ∀ t, (e.succeed id rest).waiting.count t = e.waiting.count t +
      if 0 < (g.children id).count t ∧ e.graph.degree t = (g.children id).count t then 1 else 0 := by
    intro t
    rw [hresult, Engine.waiting, Engine.waiting, hphase, List.append_nil]
    refine (congrArg (List.count t) (List.append_nil _)).trans ?_
    rw [(hreleased t).2, hdegreeSet, Engine.readyQueue_setState]
  have hdegree' : ∀ t, (e.succeed id rest).graph.degree t =
      e.graph.degree t - (g.children id).count t := by
    intro t
    rw [hresult]
    exact (hreleased t).1.trans (by rw [hdegreeSet])
  have hids : (e.succeed id rest).futureIds = e.futureIds := by
    rw [hresult, Engine.futureIds, Engine.futureIds, ← hq.futures]
  have hsucceeded : (e.succeed id rest).succeeded = e.succeeded ++ [id] := by
    rw [hresult, ← hq.succeeded]
  have hstarts : (e.succeed id rest).starts = e.starts := by rw [hresult, ← hq.starts]
  have hretries : ∀ t, (e.succeed id rest).graph.retriesOf t = e.graph.retriesOf t := fun t => by
    rw [hresult, ← hq.retries]
  have hfutures : (e.succeed id rest).futures = e.futures := by rw [hresult, ← hq.futures]
  have hrm : (e.succeed id rest).rm = e.rm := by rw [hresult, ← hq.rm]
  refine
    { adjacency := by rw [hresult, ← h.adjacency, ← hq.adjacency]
      table := fun t => by rw [hresult, ← h.table, ← hq.table]
      heavy := fun t => by rw [hresult, ← h.heavy, ← hq.heavy]
      limit := by rw [hresult, ← h.limit, ← hq.limit]
      size := by rw [hrm, h.size]
      degree := ?_, once := ?_, closed := ?_, bounded := ?_
      retries := fun t => by rw [hretries]; exact h.retries t
      active := by rw [hrm, hfutures]; exact h.active
      queued := ?_ }
  · intro t
    have ht := hopen t
    rw [hdegree', h.degree, hsucceeded]
    omega
  · intro t
    have honce := h.once t
    have hclosed := h.closed t
    rw [hwaiting, hids, hsucceeded, List.count_append]
    by_cases ht : t = id
    · subst ht
      rw [if_neg (by omega), List.count_singleton_self]
      omega
    · rw [List.count_singleton, beq_false_of_ne (Ne.symm ht), if_neg Bool.false_ne_true]
      split_ifs <;> omega
  · intro t hopen'
    rw [hdegree'] at hopen'
    have hclosed := h.closed t
    have hne : id ≠ t := by
      rintro rfl
      have hid := hopen id
      have hzero := h.degree id
      omega
    have hle := hopen t
    have hopenDegree := h.degree t
    rw [hwaiting, hids, hsucceeded, hstarts, List.count_append, List.count_singleton,
      beq_false_of_ne hne, if_neg Bool.false_ne_true, if_neg (by omega)]
    omega
  · intro t
    have hbounded := h.bounded t
    have hclosed := h.closed t
    have hle := (h.retries t).1
    rw [hwaiting, hstarts, hretries]
    split_ifs <;> omega
  · intro rest' hrest
    rw [hresult] at hrest
    cases hrest

/-- A task is tried again, after its backoff. -/
theorem retry (h : Kept g maxWorkers retryLimit e) (hphase : e.phase.backoff = []) {id : String}
    (hplace : e.waiting.count id = 0 ∧ e.futureIds.count id = 0 ∧ e.succeeded.count id = 0)
    (hdegree : e.graph.degree id = 0) {task : SchedulableTask}
    (htask : e.graph.tasks.get? id = some task) (hlimit : task.retryCount < retryLimit)
    (rest : List String) : Kept g maxWorkers retryLimit (e.retry task id rest) := by
  have hwaiting : ∀ t, (e.retry task id rest).waiting.count t =
      e.waiting.count t + [id].count t := by
    intro t
    rw [Engine.waiting, Engine.waiting, hphase, List.append_nil, List.count_append]
    rfl
  have hids : (e.retry task id rest).futureIds = e.futureIds := rfl
  have hretries : ∀ t, (e.retry task id rest).graph.retriesOf t =
      e.graph.retriesOf t + [id].count t := by
    intro t
    by_cases ht : t = id
    · subst ht
      rw [List.count_singleton_self, Graph.retriesOf, Graph.retriesOf, htask]
      exact congrArg (fun o => (Option.map SchedulableTask.retryCount o).getD 0)
        (PyDict.get?_set _ _ _)
    · rw [List.count_singleton, beq_false_of_ne (Ne.symm ht), if_neg Bool.false_ne_true, add_zero]
      exact congrArg (fun o => (Option.map SchedulableTask.retryCount o).getD 0)
        (PyDict.get?_set_of_ne _ _ ht)
  have hmap : ∀ {β : Type} (f : SchedulableTask → β),
      f { task with state := .retryWait, retryCount := task.retryCount + 1 } = f task →
      ∀ t, ((e.retry task id rest).graph.tasks.get? t).map f = (e.graph.tasks.get? t).map f :=
    fun f hf t => map_get?_set f htask hf t
  have hself : e.graph.retriesOf id = task.retryCount := by
    rw [Graph.retriesOf, htask]
    rfl
  refine
    { adjacency := h.adjacency
      table := fun t => ?_
      heavy := fun t => ?_
      limit := h.limit
      size := h.size
      degree := h.degree
      once := ?_, closed := ?_, bounded := ?_, retries := ?_
      active := h.active
      queued := fun rest' hrest => by cases hrest }
  · rw [← h.table, Graph.tableOf, Graph.tableOf, hmap SchedulableTask.tableName rfl]
  · rw [← h.heavy, Graph.isHeavy, Graph.isHeavy, hmap SchedulableTask.heavyweight rfl]
  · intro t
    have honce := h.once t
    rw [hwaiting, hids]
    by_cases ht : t = id
    · subst ht
      rw [List.count_singleton_self]
      show _ + e.succeeded.count t ≤ 1
      omega
    · rw [List.count_singleton, beq_false_of_ne (Ne.symm ht)]
      exact honce
  · intro t hopen
    have hclosed := h.closed t hopen
    have hne : id ≠ t := by
      rintro rfl
      exact hopen hdegree
    rw [hwaiting, hids, List.count_singleton, beq_false_of_ne hne]
    exact hclosed
  · intro t
    have hbounded := h.bounded t
    rw [hwaiting, hretries]
    show e.starts.count t + _ + _ ≤ _
    omega
  · intro t
    have hle := h.retries t
    rw [hretries]
    by_cases ht : t = id
    · subst ht
      rw [List.count_singleton_self]
      omega
    · rw [List.count_singleton, beq_false_of_ne (Ne.symm ht)]
      exact hle

theorem fail (h : Kept g maxWorkers retryLimit e) (hphase : e.phase.backoff = []) {id : String}
    {task : SchedulableTask} (htask : e.graph.tasks.get? id = some task) (message : String)
    (rest : List String) : Kept g maxWorkers retryLimit (e.fail task id message rest) := by
  have hset : Quiet e (e.setTask { task with state := .failed, errorMessage := message } id) :=
    Quiet.of_tasks e _ (map_get?_set _ htask rfl)
  refine h.moved (hset.trans (Quiet.skipDependents _ id)) rfl e.readyQueue (fun t => ?_)
    fun rest' hrest => by cases hrest
  rw [Engine.waiting, hphase]
  rfl

theorem handled (h : Kept g maxWorkers retryLimit e) (hphase : e.phase.backoff = []) {id : String}
    (hid : id ∈ e.futureIds) (result : TaskResult) (rest : List String) :
    Kept g maxWorkers retryLimit ((e.removeFuture id).handleCompletion id result rest) := by
  obtain ⟨hdegree, hwait, hsucc⟩ := h.of_mem_futureIds hid
  rw [Engine.handleCompletion]
  rcases htask : (e.removeFuture id).graph.tasks.get? id with - | task
  · exact h.removed hphase hid rfl (by omega) rest
  · obtain ⟨hworkers, hsize⟩ := e.rm.releaseResources_workers task
    have hremoved := h.removed hphase hid hsize (by omega) rest
    have hfut : (e.removeFuture id).futureIds.count id = 0 := by
      have hcount := Engine.count_removeFuture hid id
      have honce := h.once id
      rw [List.count_singleton_self] at hcount
      omega
    -- the phase that the completion starts from and the one it goes to have no backoff
    have hreleased : Kept g maxWorkers retryLimit
        { e.removeFuture id with rm := e.rm.releaseResources task } :=
      hremoved.idle rfl hphase fun rest' hrest => h.queued rest' hrest
    have hplace : ({ e.removeFuture id with rm := e.rm.releaseResources task } : Engine).waiting.count
        id = 0 ∧ (e.removeFuture id).futureIds.count id = 0 ∧ e.succeeded.count id = 0 :=
      ⟨hwait, hfut, List.count_eq_zero.mpr hsucc⟩
    dsimp only
    split_ifs with hstatus hretry
    · exact hreleased.succeed hphase hplace hdegree rest
    · exact hreleased.retry hphase hplace hdegree htask (hretry.2.trans_eq h.limit) rest
    · exact hreleased.fail hphase htask _ rest

theorem requeued (h : Kept g maxWorkers retryLimit e) {id : String} {rest : List String}
    (hphase : e.phase = .backingOff id rest) :
    Kept g maxWorkers retryLimit { e.enqueue id with phase := .handling rest } := by
  refine h.moved (Quiet.enqueue e id) (e.inDegree_enqueue id) _ (fun t => ?_)
    fun rest' hrest => by cases hrest
  rw [Engine.readyQueue_enqueue, Engine.waiting, hphase]
  exact congrArg (List.count t) (List.append_nil _)

theorem dispatched (h : Kept g maxWorkers retryLimit e) {id : String} {rest : List String}
    (hphase : e.phase = .dispatching (id :: rest)) {rm : ResourceManager}
    (hrm : e.acquired id = some rm) : Kept g maxWorkers retryLimit (e.dispatch id rm rest) := by
  obtain ⟨task, htask, hacquire⟩ := Option.bind_eq_some_iff.mp hrm
  obtain ⟨hfree, hworkers, hsize, -⟩ := ResourceManager.acquireResources_spec hacquire
  have hq := Quiet.setState e id .running
  have hqueue := h.queued _ hphase
  have hdegree : ∀ t, (e.dispatch id rm rest).graph.degree t = e.graph.degree t := fun t => by
    have hin : (e.dispatch id rm rest).graph.inDegree = e.graph.inDegree := e.inDegree_setState id _
    rw [Graph.degree, Graph.degree, hin]
  have hwaiting : ∀ t, (e.dispatch id rm rest).waiting.count t + [id].count t = e.waiting.count t := by
    intro t
    have hnew : (e.dispatch id rm rest).waiting = rest := by
      have hset : (e.setState id .running).readyQueue = id :: rest :=
        (e.readyQueue_setState id _).trans hqueue
      rw [Engine.waiting]
      show (e.setState id .running).readyQueue.erase id ++ [] = rest
      rw [hset, List.erase_cons_head, List.append_nil]
    have hold : e.waiting = [id] ++ rest := by
      rw [Engine.waiting, hphase, hqueue]
      exact List.append_nil _
    rw [hnew, hold, List.count_append, add_comm]
  have hids : (e.dispatch id rm rest).futureIds = e.futureIds ++ [id] := by
    rw [Engine.futureIds, Engine.futureIds, ← hq.futures]
    exact List.map_append
  have hstarts : (e.dispatch id rm rest).starts = e.starts ++ [id] := by
    rw [← hq.starts]
    rfl
  have hsucceeded : (e.dispatch id rm rest).succeeded = e.succeeded := hq.succeeded
  have hfutures : (e.dispatch id rm rest).futures = e.futures ++ [(id, none)] := by
    rw [← hq.futures]
    rfl
  have hretries : ∀ t, (e.dispatch id rm rest).graph.retriesOf t = e.graph.retriesOf t := hq.retries
  have hrm' : (e.dispatch id rm rest).rm = rm := rfl
  refine
    { adjacency := hq.adjacency.trans h.adjacency
      table := fun t => (hq.table t).trans (h.table t)
      heavy := fun t => (hq.heavy t).trans (h.heavy t)
      limit := hq.limit.trans h.limit
      size := hsize.trans h.size
      degree := fun t => ?_
      once := fun t => ?_
      closed := fun t hopen => ?_
      bounded := fun t => ?_
      retries := fun t => ?_
      active := ?_
      queued := fun rest' hrest => ?_ }
  · rw [hdegree, hsucceeded, h.degree]
  · have honce := h.once t
    have ht := hwaiting t
    rw [hids, hsucceeded, List.count_append]
    omega
  · rw [hdegree] at hopen
    have hclosed := h.closed t hopen
    have ht := hwaiting t
    rw [hids, hsucceeded, hstarts, List.count_append, List.count_append]
    omega
  · have hbounded := h.bounded t
    have ht := hwaiting t
    rw [hstarts, hretries, List.count_append]
    omega
  · rw [hretries]
    exact h.retries t
  · have hactive := h.active
    rw [hrm', hfutures, List.length_append, List.length_singleton]
    omega
  · cases hrest
    show (e.setState id .running).readyQueue.erase id = rest
    rw [Engine.readyQueue_setState, hqueue, List.erase_cons_head]

theorem finished (h : Kept g maxWorkers retryLimit e) {e' : Engine} {id : String} {result : TaskResult}
    (hfinish : e.finish id result = some e') : Kept g maxWorkers retryLimit e' := by
  rw [Engine.finish] at hfinish
  split_ifs at hfinish
  cases hfinish
  set futures := e.futures.map fun f => if f = (id, none) then (id, some result) else f with hf
  have hids : ({ e with futures := futures } : Engine).futureIds = e.futureIds := by
    show futures.map Prod.fst = e.futures.map Prod.fst
    rw [hf, List.map_map]
    refine List.map_congr_left fun f _ => ?_
    show (if f = (id, none) then (id, some result) else f).1 = f.1
    split_ifs with hsame
    · rw [hsame]
    · rfl
  refine { h with once := fun t => ?_, closed := fun t hopen => ?_, active := ?_ }
  · rw [hids]
    exact h.once t
  · rw [hids]
    exact h.closed t hopen
  · show futures.length ≤ _ ∧ _
    rw [hf, List.length_map]
    exact h.active

theorem shutDown (h : Kept g maxWorkers retryLimit e) {e' : Engine} (hshut : e.shutdown = some e') :
    Kept g maxWorkers retryLimit e' := by
  rw [Engine.shutdown] at hshut
  split_ifs at hshut with hsuspended
  cases hshut
  have hle : ∀ t, ({ e with cancelled := true, readyQueue := [] } : Engine).waiting.count t ≤
      e.waiting.count t := fun t => (List.sublist_append_right _ _).count_le t
  refine { h with once := fun t => ?_, closed := fun t hopen => ?_, bounded := fun t => ?_, queued := ?_ }
  · have hless := Nat.add_le_add_right (hle t) (e.futureIds.count t + e.succeeded.count t)
    rw [← add_assoc, ← add_assoc] at hless
    exact hless.trans (h.once t)
  · have hless := Nat.add_le_add_right (hle t)
      (e.futureIds.count t + e.succeeded.count t + e.starts.count t)
    rw [← add_assoc, ← add_assoc, ← add_assoc, ← add_assoc] at hless
    exact Nat.le_zero.mp (hless.trans_eq (h.closed t hopen))
  · exact (Nat.add_le_add_right (Nat.add_le_add_left (hle t) _) _).trans (h.bounded t)
  · intro rest hrest
    rw [Engine.isSuspended, show e.phase = .dispatching rest from hrest] at hsuspended
    cases hsuspended

theorem resume (h : Kept g maxWorkers retryLimit e) : Kept g maxWorkers retryLimit e.resume := by
  unfold Engine.resume
  rcases hphase : e.phase with - | rest | ⟨id, rest⟩ | rest | - | -
  · dsimp only
    split_ifs
    · exact h.idle (by rw [hphase]; rfl) rfl fun rest hrest => by cases hrest
    · exact h.idle (by rw [hphase]; rfl) rfl fun rest hrest => by cases hrest
  · rcases rest with - | ⟨id, rest⟩
    · exact h.orderQueue (by rw [hphase]; rfl)
    · dsimp only
      rcases hresult : e.resultOf id with - | result
      · exact h.idle (by rw [hphase]; rfl) rfl fun rest hrest => by cases hrest
      · have hmem := List.mem_map_of_mem (f := Prod.fst) (Engine.mem_futures_of_resultOf hresult)
        exact h.handled (by rw [hphase]; rfl) hmem result rest
  · exact h.requeued hphase
  · rcases rest with - | ⟨id, rest⟩
    · exact h.idle (by rw [hphase]; rfl) rfl fun rest hrest => by cases hrest
    · dsimp only
      rcases hrm : e.acquired id with - | rm
      · exact h.idle (by rw [hphase]; rfl) rfl fun rest hrest => by cases hrest
      · exact h.dispatched hphase hrm
  · exact h.idle (by rw [hphase]; rfl) rfl fun rest hrest => by cases hrest
  · exact h

/-- One event. -/
theorem schedulerStep (h : Kept g maxWorkers retryLimit e) {event : SchedulerEvent} {e' : Engine}
    (hstep : ParallelScheduler.schedulerStep e event = some e') : Kept g maxWorkers retryLimit e' := by
  cases event with
  | resume =>
    cases hstep
    exact h.resume
  | finish id result => exact h.finished hstep
  | shutdown => exact h.shutDown hstep

end Kept

/-- The engine that begins. -/
theorem Kept.start {tasks : List SchedulableTask} {g : Graph} (hload : loadGraph tasks = some g)
    (maxWorkers retryLimit : ℕ) :
    Kept g maxWorkers retryLimit (startEngine g maxWorkers retryLimit) := by
  have hcounted : g.Counted := by
    rw [loadGraph] at hload
    split_ifs at hload
    cases hload
    exact (Graph.build_spec tasks).1
  set zeros := (g.inDegree.items.filter fun item => item.2 = 0).map Prod.fst with hz
  set e : Engine := ⟨retryLimit, g, [], ⟨maxWorkers, 0, ∅, ∅⟩, [], .top, false, [], []⟩ with he
  have hstart : startEngine g maxWorkers retryLimit = zeros.foldl Engine.enqueue e := rfl
  have hq := Quiet.foldl Quiet.enqueue zeros e
  have hnodup : zeros.Nodup := g.inDegree.nodup.sublist (List.filter_sublist.map _)
  have hzero : ∀ id ∈ zeros, g.degree id = 0 := by
    intro id hid
    obtain ⟨⟨k, degree⟩, hitem, rfl⟩ := List.mem_map.mp hid
    obtain ⟨hitem, hdegree⟩ := List.mem_filter.mp hitem
    rw [Graph.degree, g.inDegree.mem_items_iff.mp hitem]
    exact of_decide_eq_true hdegree
  have henqueue : ∀ (ids : List String) (e : Engine),
      (ids.foldl Engine.enqueue e).readyQueue = e.readyQueue ++ ids ∧
        (ids.foldl Engine.enqueue e).graph.inDegree = e.graph.inDegree := by
    intro ids
    induction ids with
    | nil => exact fun e => ⟨(List.append_nil _).symm, rfl⟩
    | cons id ids ih =>
      intro e
      rw [List.foldl_cons, (ih _).1, (ih _).2, Engine.readyQueue_enqueue, Engine.inDegree_enqueue,
        List.append_assoc]
      exact ⟨rfl, rfl⟩
  obtain ⟨hqueue, hdegree⟩ := henqueue zeros e
  have hwaiting : (zeros.foldl Engine.enqueue e).waiting = zeros := by
    rw [Engine.waiting, hqueue, hq.phase]
    exact List.append_nil _
  have hids : (zeros.foldl Engine.enqueue e).futureIds = [] := by rw [Engine.futureIds, hq.futures]; rfl
  have hdegrees : ∀ id, (zeros.foldl Engine.enqueue e).graph.degree id = g.degree id :=
    fun id => congrArg (fun d => (PyDict.get? d id).getD 0) hdegree
  rw [hstart]
  refine
    { adjacency := hq.adjacency
      table := hq.table
      heavy := hq.heavy
      limit := hq.limit
      size := by rw [hq.rm]
      degree := fun id => ?_
      once := fun id => ?_
      closed := fun id hopen => ?_
      bounded := fun id => ?_
      retries := fun id => ?_
      active := ?_
      queued := fun rest hrest => ?_ }
  · rw [hdegrees, hq.succeeded]
    exact hcounted.degree id
  · rw [hwaiting, hids, hq.succeeded]
    exact List.nodup_iff_count_le_one.mp hnodup id
  · rw [hdegrees] at hopen
    rw [hwaiting, hids, hq.succeeded, hq.starts, List.count_eq_zero.mpr fun hid => hopen (hzero id hid)]
    rfl
  · have hle := List.nodup_iff_count_le_one.mp hnodup id
    rw [hwaiting, hq.starts, hq.retries]
    show 0 + _ + g.retriesOf id ≤ g.retriesOf id + 1
    omega
  · rw [hq.retries]
    exact ⟨le_rfl, le_max_left _ _⟩
  · rw [hq.futures, hq.rm]
    exact ⟨le_rfl, Nat.zero_le _⟩
  · rw [hq.phase] at hrest
    cases hrest

/-! ## Tables -/

/-- A heavyweight task that runs has its table marked as long as the table is locked. -/
def Marked (e : Engine) : Prop :=
  ∀ id ∈ e.running, e.graph.isHeavy id = true → e.graph.tableOf id ≠ "" →
    e.graph.tableOf id ∈ e.rm.lockedTables → e.graph.tableOf id ∈ e.rm.heavyweightActive

/-- No other task runs on the table of a heavyweight task that runs. -/
def Alone (e : Engine) : Prop :=
  ∀ id ∈ e.running, e.graph.isHeavy id = true → e.graph.tableOf id ≠ "" →
    ∀ id' ∈ e.running, id' ≠ id → e.graph.tableOf id' ≠ e.graph.tableOf id

/-- A task that is dispatched on a table that is not locked, though other tasks run on it, is not
heavyweight, and neither are they. -/
def LightOnUnlocked (e : Engine) : SchedulerEvent → Prop
  | .resume =>
    match e.phase with
    | .dispatching (id :: _) =>
      (e.acquired id).isSome = true → e.graph.tableOf id ≠ "" →
        e.graph.tableOf id ∉ e.rm.lockedTables →
          ∀ id' ∈ e.running, e.graph.tableOf id' = e.graph.tableOf id →
            e.graph.isHeavy id = false ∧ e.graph.isHeavy id' = false
    | _ => True
  | _ => True

instance (e : Engine) (event : SchedulerEvent) : Decidable (LightOnUnlocked e event) := by
  unfold LightOnUnlocked
  split
  · split <;> infer_instance
  · infer_instance

theorem Engine.mem_running_iff {e : Engine} {id : String} : id ∈ e.running ↔ (id, none) ∈ e.futures := by
  rw [running, List.mem_map]
  constructor
  · rintro ⟨⟨k, result⟩, hf, rfl⟩
    obtain ⟨hf, hnone⟩ := List.mem_filter.mp hf
    rcases result with - | result
    · exact hf
    · cases hnone
  · exact fun h => ⟨(id, none), List.mem_filter.mpr ⟨h, rfl⟩, rfl⟩

/-- What every change but a dispatch does: the tables and the weights stay, nothing starts to run, and a
table that stays locked stays marked. -/
structure Loosens (e e' : Engine) : Prop where
  table : ∀ id, e'.graph.tableOf id = e.graph.tableOf id
  heavy : ∀ id, e'.graph.isHeavy id = e.graph.isHeavy id
  running : ∀ id, id ∈ e'.running → id ∈ e.running
  locked : ∀ table ∈ e'.rm.lockedTables, table ∈ e.rm.lockedTables ∧
    (table ∈ e.rm.heavyweightActive → table ∈ e'.rm.heavyweightActive)

namespace Loosens

variable {e e' e'' : Engine}

theorem trans (h : Loosens e e') (h' : Loosens e' e'') : Loosens e e'' where
  table := fun id => (h'.table id).trans (h.table id)
  heavy := fun id => (h'.heavy id).trans (h.heavy id)
  running := fun id hid => h.running id (h'.running id hid)
  locked := fun table htable => by
    obtain ⟨hlocked, hmarked⟩ := h'.locked table htable
    obtain ⟨hlocked', hmarked'⟩ := h.locked table hlocked
    exact ⟨hlocked', fun hmark => hmarked (hmarked' hmark)⟩

theorem of_quiet (h : Quiet e e') : Loosens e e' where
  table := h.table
  heavy := h.heavy
  running := fun id hid => by rwa [Engine.mem_running_iff, ← h.futures, ← Engine.mem_running_iff]
  locked := fun table htable => by
    rw [h.rm] at htable ⊢
    exact ⟨htable, id⟩

theorem marked (h : Loosens e e') (hm : Marked e) : Marked e' := by
  intro id hid hheavy htable hlocked
  rw [h.heavy] at hheavy
  rw [h.table] at htable hlocked ⊢
  obtain ⟨hlocked', hmarked⟩ := h.locked _ hlocked
  exact hmarked (hm id (h.running id hid) hheavy htable hlocked')

theorem alone (h : Loosens e e') (ha : Alone e) : Alone e' := by
  intro id hid hheavy htable id' hid' hne
  rw [h.heavy] at hheavy
  rw [h.table] at htable
  rw [h.table, h.table]
  exact ha id (h.running id hid) hheavy htable id' (h.running id' hid') hne

theorem released (e : Engine) (id : String) (task : SchedulableTask) :
    Loosens e { e.removeFuture id with rm := e.rm.releaseResources task } where
  table := fun _ => rfl
  heavy := fun _ => rfl
  running := fun id' hid' => by
    rw [Engine.mem_running_iff] at hid' ⊢
    exact List.mem_of_mem_eraseP hid'
  locked := fun table htable => by
    show _ ∧ (_ → table ∈ (e.rm.releaseResources task).heavyweightActive)
    change table ∈ (e.rm.releaseResources task).lockedTables at htable
    rw [ResourceManager.releaseResources] at htable ⊢
    split_ifs at htable ⊢ with hname hheavy
    · exact ⟨htable, fun hmark => hmark⟩
    · obtain ⟨hne, hlocked⟩ := Finset.mem_erase.mp htable
      exact ⟨hlocked, fun hmark => Finset.mem_erase.mpr ⟨hne, hmark⟩⟩
    · exact ⟨(Finset.mem_erase.mp htable).2, fun hmark => hmark⟩

theorem of_eq (hgraph : e'.graph = e.graph) (hrm : e'.rm = e.rm) (hfutures : e'.futures = e.futures) :
    Loosens e e' where
  table := fun _ => by rw [hgraph]
  heavy := fun _ => by rw [hgraph]
  running := fun id hid => by rwa [Engine.mem_running_iff, ← hfutures, ← Engine.mem_running_iff]
  locked := fun table htable => by
    rw [hrm] at htable ⊢
    exact ⟨htable, fun hmark => hmark⟩

theorem handled (e : Engine) (id : String) (result : TaskResult) (rest : List String) :
    Loosens e ((e.removeFuture id).handleCompletion id result rest) := by
  rw [Engine.handleCompletion]
  rcases htask : (e.removeFuture id).graph.tasks.get? id with - | task
  · refine ⟨fun _ => rfl, fun _ => rfl, fun id' hid' => ?_, fun _ hlocked => ⟨hlocked, fun h => h⟩⟩
    rw [Engine.mem_running_iff] at hid' ⊢
    exact List.mem_of_mem_eraseP hid'
  · refine (released e id task).trans ?_
    set e₁ : Engine := { e.removeFuture id with rm := e.rm.releaseResources task } with he
    have htask₁ : e₁.graph.tasks.get? id = some task := htask
    show Loosens e₁ (if result.status = .success then e₁.succeed id rest
      else if result.isRetryable = true ∧ task.retryCount < e₁.retryLimit then e₁.retry task id rest
      else e₁.fail task id (result.errorMessage.getD "") rest)
    split_ifs
    · refine (of_quiet ((Quiet.setState e₁ id .success).trans
        (Quiet.foldl Quiet.releaseDependent (e₁.graph.children id) _))).trans ?_
      exact of_eq rfl rfl rfl
    · have hmap : ∀ {β : Type} (f : SchedulableTask → β),
          f { task with state := .retryWait, retryCount := task.retryCount + 1 } = f task →
          ∀ t, ((e₁.retry task id rest).graph.tasks.get? t).map f = (e₁.graph.tasks.get? t).map f :=
        fun f hf t => map_get?_set f htask₁ hf t
      refine ⟨fun t => ?_, fun t => ?_, fun _ hid' => hid', fun _ hlocked => ⟨hlocked, fun h => h⟩⟩
      · rw [Graph.tableOf, Graph.tableOf, hmap SchedulableTask.tableName rfl]
      · rw [Graph.isHeavy, Graph.isHeavy, hmap SchedulableTask.heavyweight rfl]
    · have hset : Quiet e₁ (e₁.setTask
          { task with state := .failed, errorMessage := result.errorMessage.getD "" } id) :=
        Quiet.of_tasks e₁ _ (map_get?_set _ htask₁ rfl)
      refine (of_quiet (hset.trans (Quiet.skipDependents _ id))).trans ?_
      exact of_eq rfl rfl rfl

theorem finished {id : String} {result : TaskResult} (h : e.finish id result = some e') :
    Loosens e e' := by
  rw [Engine.finish] at h
  split_ifs at h
  cases h
  refine ⟨fun _ => rfl, fun _ => rfl, fun id' hid' => ?_, fun _ hlocked => ⟨hlocked, fun h => h⟩⟩
  rw [Engine.mem_running_iff] at hid' ⊢
  obtain ⟨f, hf, hmap⟩ := List.mem_map.mp hid'
  split_ifs at hmap
  · cases hmap
  · rwa [hmap] at hf

/-- Every piece of the loop is a dispatch or loosens. -/
theorem resume (e : Engine) :
    (∃ id rest rm, e.phase = .dispatching (id :: rest) ∧ e.acquired id = some rm ∧
      e.resume = e.dispatch id rm rest) ∨
    Loosens e e.resume ∧ LightOnUnlocked e .resume := by
  unfold Engine.resume LightOnUnlocked
  rcases hphase : e.phase with - | rest | ⟨id, rest⟩ | rest | - | -
  · refine .inr ⟨?_, trivial⟩
    dsimp only
    split_ifs <;> exact of_eq rfl rfl rfl
  · refine .inr ⟨?_, trivial⟩
    rcases rest with - | ⟨id, rest⟩
    · exact (of_quiet (Quiet.foldl Quiet.boost e.readyQueue e)).trans (of_eq rfl rfl rfl)
    · dsimp only
      rcases e.resultOf id with - | result
      · exact of_eq rfl rfl rfl
      · exact handled e id result rest
  · exact .inr ⟨(of_quiet (Quiet.enqueue e id)).trans (of_eq rfl rfl rfl), trivial⟩
  · rcases rest with - | ⟨id, rest⟩
    · exact .inr ⟨of_eq rfl rfl rfl, trivial⟩
    · rcases hrm : e.acquired id with - | rm
      · refine .inr ⟨?_, fun hsome => ?_⟩
        · dsimp only
          rw [hrm]
          exact of_eq rfl rfl rfl
        · rw [hrm] at hsome
          cases hsome
      · refine .inl ⟨id, rest, rm, rfl, hrm, ?_⟩
        dsimp only
        rw [hrm]
  · exact .inr ⟨of_eq rfl rfl rfl, trivial⟩
  · exact .inr ⟨of_eq rfl rfl rfl, trivial⟩

end Loosens

section Dispatch

variable {g : Graph} {maxWorkers retryLimit : ℕ} {e : Engine} {id : String} {rest : List String}
  {rm : ResourceManager}

theorem mem_running_dispatch {id' : String} :
    id' ∈ (e.dispatch id rm rest).running ↔ id' ∈ e.running ∨ id' = id := by
  rw [Engine.mem_running_iff, Engine.mem_running_iff]
  show (id', none) ∈ (e.setState id .running).futures ++ [(id, none)] ↔ _
  rw [(Quiet.setState e id .running).futures, List.mem_append, List.mem_singleton, Prod.mk.injEq]
  simp only [and_true]

/-- What `acquire_resources` checks and takes, for the task of the queue. -/
theorem acquired_spec (hrm : e.acquired id = some rm) :
    e.graph.tableOf id = "" ∧ rm.lockedTables = e.rm.lockedTables ∧
        rm.heavyweightActive = e.rm.heavyweightActive ∨
      e.graph.tableOf id ≠ "" ∧ (e.graph.tableOf id ∈ e.rm.lockedTables →
          e.graph.isHeavy id = false ∧ e.graph.tableOf id ∉ e.rm.heavyweightActive) ∧
        rm.lockedTables = insert (e.graph.tableOf id) e.rm.lockedTables ∧
        rm.heavyweightActive = if e.graph.isHeavy id = true then
          insert (e.graph.tableOf id) e.rm.heavyweightActive else e.rm.heavyweightActive := by
  obtain ⟨task, htask, hacquire⟩ := Option.bind_eq_some_iff.mp hrm
  have htable : e.graph.tableOf id = task.tableName := by rw [Graph.tableOf, htask]; rfl
  have hheavy : e.graph.isHeavy id = task.heavyweight := by rw [Graph.isHeavy, htask]; rfl
  rw [htable, hheavy]
  obtain ⟨-, -, -, hnone | ⟨hname, hfree, hlocked, hmarked⟩⟩ :=
    ResourceManager.acquireResources_spec hacquire
  · exact .inl hnone
  · refine .inr ⟨hname, fun hin => ?_, hlocked, hmarked⟩
    push Not at hfree
    obtain ⟨hlight, hfree⟩ := hfree hin
    exact ⟨Bool.eq_false_iff.mpr hlight, hfree⟩

theorem marked_dispatch (hm : Marked e) (hphase : e.phase = .dispatching (id :: rest))
    (hrm : e.acquired id = some rm) (hlight : LightOnUnlocked e .resume) :
    Marked (e.dispatch id rm rest) := by
  have hq := Quiet.setState e id .running
  intro id' hid' hheavy htable hlocked
  have hheavy' : e.graph.isHeavy id' = true := (hq.heavy id').symm.trans hheavy
  have htable' : (e.dispatch id rm rest).graph.tableOf id' = e.graph.tableOf id' := hq.table id'
  rw [htable'] at htable hlocked ⊢
  change e.graph.tableOf id' ∈ rm.lockedTables at hlocked
  show e.graph.tableOf id' ∈ rm.heavyweightActive
  obtain ⟨hnone, hlocks, hmarks⟩ | ⟨hname, hfree, hlocks, hmarks⟩ := acquired_spec hrm
  · rw [hlocks] at hlocked
    rw [hmarks]
    rcases mem_running_dispatch.mp hid' with hid' | rfl
    · exact hm id' hid' hheavy' htable hlocked
    · exact absurd hnone htable
  · rw [hlocks, Finset.mem_insert] at hlocked
    rw [hmarks]
    rcases mem_running_dispatch.mp hid' with hid' | rfl
    · by_cases hin : e.graph.tableOf id' ∈ e.rm.lockedTables
      · have hmark := hm id' hid' hheavy' htable hin
        split_ifs
        · exact Finset.mem_insert_of_mem hmark
        · exact hmark
      · -- the lock is new, so no heavyweight task runs on the table
        have hsame := hlocked.resolve_right hin
        rw [LightOnUnlocked, hphase] at hlight
        have hfalse := (hlight (by rw [hrm]; rfl) hname (by rwa [← hsame]) id' hid' hsame).2
        rw [hheavy'] at hfalse
        cases hfalse
    · rw [if_pos hheavy']
      exact Finset.mem_insert_self _ _

/-- **The dispatch beside others.**  A dispatch leaves every heavyweight task alone on its table exactly
when it meets the condition. -/
theorem alone_dispatch_iff (h : Kept g maxWorkers retryLimit e) (hm : Marked e) (ha : Alone e)
    (hphase : e.phase = .dispatching (id :: rest)) (hrm : e.acquired id = some rm) :
    Alone (e.dispatch id rm rest) ↔ LightOnUnlocked e .resume := by
  have hq := Quiet.setState e id .running
  have htables : ∀ t, (e.dispatch id rm rest).graph.tableOf t = e.graph.tableOf t := hq.table
  have hheavies : ∀ t, (e.dispatch id rm rest).graph.isHeavy t = e.graph.isHeavy t := hq.heavy
  have hnew : id ∉ e.running := by
    intro hrun
    have hin : id ∈ e.futureIds := List.mem_map_of_mem (f := Prod.fst) (Engine.mem_running_iff.mp hrun)
    have hzero := (h.of_mem_futureIds hin).2.1
    rw [Engine.waiting, h.queued _ hphase, hphase] at hzero
    simp at hzero
  rw [LightOnUnlocked, hphase]
  constructor
  · intro halone _ hname hunlocked id' hid' hsame
    have hne : id' ≠ id := ne_of_mem_of_not_mem hid' hnew
    have hself : id ∈ (e.dispatch id rm rest).running := mem_running_dispatch.mpr (.inr rfl)
    have hother : id' ∈ (e.dispatch id rm rest).running := mem_running_dispatch.mpr (.inl hid')
    constructor
    · by_contra hheavy
      refine halone id hself ?_ ?_ id' hother hne ?_
      · rw [hheavies, Bool.eq_true_of_not_eq_false hheavy]
      · rwa [htables]
      · rw [htables, htables, hsame]
    · by_contra hheavy
      refine halone id' hother ?_ ?_ id hself (Ne.symm hne) ?_
      · rw [hheavies, Bool.eq_true_of_not_eq_false hheavy]
      · rwa [htables, hsame]
      · rw [htables, htables, hsame]
  · intro hlight id₁ hid₁ hheavy htable id₂ hid₂ hne hsame
    rw [hheavies] at hheavy
    rw [htables] at htable
    rw [htables, htables] at hsame
    have hlight := hlight (by rw [hrm]; rfl)
    rcases mem_running_dispatch.mp hid₁ with hrun₁ | rfl
    · rcases mem_running_dispatch.mp hid₂ with hrun₂ | rfl
      · exact ha id₁ hrun₁ hheavy htable id₂ hrun₂ hne hsame
      · obtain ⟨hnone, -, -⟩ | ⟨hname, hfree, -, -⟩ := acquired_spec hrm
        · exact htable (hsame.symm.trans hnone)
        · by_cases hlocked : e.graph.tableOf id₂ ∈ e.rm.lockedTables
          · refine (hfree hlocked).2 ?_
            rw [hsame] at hlocked ⊢
            exact hm id₁ hrun₁ hheavy htable hlocked
          · have hfalse := (hlight hname hlocked id₁ hrun₁ hsame.symm).2
            rw [hheavy] at hfalse
            cases hfalse
    · rcases mem_running_dispatch.mp hid₂ with hrun₂ | rfl
      · obtain ⟨hnone, -, -⟩ | ⟨hname, hfree, -, -⟩ := acquired_spec hrm
        · exact htable hnone
        · have hunlocked : e.graph.tableOf id₁ ∉ e.rm.lockedTables := by
            intro hlocked
            have hfalse := (hfree hlocked).1
            rw [hheavy] at hfalse
            cases hfalse
          have hfalse := (hlight hname hunlocked id₂ hrun₂ hsame).1
          rw [hheavy] at hfalse
          cases hfalse
      · exact hne rfl

end Dispatch

/-! ## The contract -/

/-- What is promised of every state: a task is started only after its dependencies in the graph
succeeded, at most once more than the retries allow, no more tasks run than there are workers, and no
other task runs on the table of a heavyweight task. -/
structure Contract (tasks : List SchedulableTask) (g : Graph) (maxWorkers retryLimit : ℕ) (e : Engine) :
    Prop where
  ordered : ∀ task ∈ tasks, task.taskId ∈ e.starts → ∀ dep ∈ task.dependencies,
    (g.tasks.get? dep).isSome = true → dep ∈ e.succeeded
  bounded : ∀ id, e.starts.count id ≤ retryLimit + 1
  workers : e.running.length ≤ maxWorkers
  alone : Alone e

section Contract

variable {tasks : List SchedulableTask} {g : Graph} {maxWorkers retryLimit : ℕ} {e : Engine}

/-- **Order, retries and workers.**  These are kept in every state. -/
theorem Kept.meets_contract (h : Kept g maxWorkers retryLimit e) (hload : loadGraph tasks = some g)
    (ha : Alone e) : Contract tasks g maxWorkers retryLimit e where
  ordered task htask hstarted dep hdep hin := by
    have hmem : task.taskId ∈ g.children dep := by
      rw [loadGraph] at hload
      split_ifs at hload
      cases hload
      exact (Graph.build_spec tasks).2 task htask dep hdep hin
    have hzero : e.graph.degree task.taskId = 0 := by
      by_contra hopen
      have hclosed := h.closed task.taskId hopen
      have hpos := List.count_pos_iff.mpr hstarted
      omega
    have hdegree := h.degree task.taskId
    exact g.mem_of_openDegree_eq_zero (by omega) hmem
  bounded id := by
    have hbounded := h.bounded id
    have hretries := h.retries id
    omega
  workers := by
    have hle : e.running.length ≤ e.futures.length :=
      (List.length_map _).trans_le (List.length_filter_le _ _)
    have hactive := h.active
    have hsize := h.size
    omega
  alone := ha

/-- One event keeps the marks right when it meets the condition. -/
theorem Marked.schedulerStep (hm : Marked e) {event : SchedulerEvent} {e' : Engine}
    (hstep : ParallelScheduler.schedulerStep e event = some e') (hlight : LightOnUnlocked e event) :
    Marked e' := by
  cases event with
  | resume =>
    cases hstep
    obtain ⟨id, rest, rm, hphase, hrm, hresume⟩ | ⟨hloosens, -⟩ := Loosens.resume e
    · rw [hresume]
      exact marked_dispatch hm hphase hrm hlight
    · exact hloosens.marked hm
  | finish id result => exact (Loosens.finished hstep).marked hm
  | shutdown =>
    rw [ParallelScheduler.schedulerStep, Engine.shutdown] at hstep
    split_ifs at hstep
    cases hstep
    exact (Loosens.of_eq rfl rfl rfl).marked hm

/-- One event leaves every heavyweight task alone on its table exactly when it meets the condition. -/
theorem alone_schedulerStep_iff (h : Kept g maxWorkers retryLimit e) (hm : Marked e) (ha : Alone e)
    {event : SchedulerEvent} {e' : Engine}
    (hstep : ParallelScheduler.schedulerStep e event = some e') :
    Alone e' ↔ LightOnUnlocked e event := by
  cases event with
  | resume =>
    cases hstep
    obtain ⟨id, rest, rm, hphase, hrm, hresume⟩ | ⟨hloosens, hlight⟩ := Loosens.resume e
    · rw [hresume]
      exact alone_dispatch_iff h hm ha hphase hrm
    · exact iff_of_true (hloosens.alone ha) hlight
  | finish id result => exact iff_of_true ((Loosens.finished hstep).alone ha) trivial
  | shutdown =>
    rw [ParallelScheduler.schedulerStep, Engine.shutdown] at hstep
    split_ifs at hstep
    cases hstep
    exact iff_of_true ((Loosens.of_eq rfl rfl rfl).alone ha) trivial

end Contract

namespace SchedulerRun

/-- **The contract of the scheduler.**  Along a run of `start` over a graph that `load_graph` accepts, the
contract holds in every state exactly when, each time a task is dispatched on a table that is not locked
though other tasks run on it, neither it nor any of these is heavyweight. -/
theorem contract_iff {tasks : List SchedulableTask} {g : Graph} (hload : loadGraph tasks = some g)
    (maxWorkers retryLimit : ℕ) (events : List SchedulerEvent) :
    HoldsAlong schedulerStep (Contract tasks g maxWorkers retryLimit)
        (startEngine g maxWorkers retryLimit) events ↔
      MeetsAlong schedulerStep LightOnUnlocked (startEngine g maxWorkers retryLimit) events := by
  have hstart := Kept.start hload maxWorkers retryLimit
  have hidle : (startEngine g maxWorkers retryLimit).running = [] := by
    have hq := Quiet.foldl Quiet.enqueue
      ((g.inDegree.items.filter fun item => item.2 = 0).map Prod.fst)
      ⟨retryLimit, g, [], ⟨maxWorkers, 0, ∅, ∅⟩, [], .top, false, [], []⟩
    rw [Engine.running, startEngine, hq.futures]
    rfl
  refine holdsAlong_iff_meetsAlong_of_meetsAlong (D := fun _ _ => True)
    (I := fun e => Kept g maxWorkers retryLimit e ∧ Marked e) ?_ ?_ ⟨hstart, ?_⟩ ?_
    (meetsAlong_of_forall (A := fun _ => True) _ fun _ _ => trivial)
  · intro e event e' _ ⟨hkept, hmarked⟩ hcontract hcontract' hstep
    exact ⟨hkept.schedulerStep hstep, hmarked.schedulerStep hstep
      ((alone_schedulerStep_iff hkept hmarked hcontract.alone hstep).mp hcontract'.alone)⟩
  · intro e event e' _ ⟨hkept, hmarked⟩ hcontract hstep
    rw [← alone_schedulerStep_iff hkept hmarked hcontract.alone hstep]
    exact ⟨Contract.alone, (hkept.schedulerStep hstep).meets_contract hload⟩
  · intro id hid
    rw [hidle] at hid
    cases hid
  · refine hstart.meets_contract hload fun id hid => ?_
    rw [hidle] at hid
    cases hid

/-- A task without dependencies on the table `orders`. -/
def ordersTask (id : String) (heavyweight : Bool) : SchedulableTask where
  taskId := id
  priority := 1
  dependencies := []
  tableName := "orders"
  heavyweight := heavyweight

/-- Two light tasks and a heavyweight one on the same table. -/
def ordersTasks : List SchedulableTask :=
  [ordersTask "a" false, ordersTask "b" false, ordersTask "c" true]

/-- The light tasks are started, one of them ends, and the loop goes on. -/
def ordersEvents : List SchedulerEvent :=
  [.resume, .resume, .resume, .resume, .resume, .finish "a" ⟨.success, none⟩, .resume, .resume, .resume,
    .resume, .resume]

/-- The first light task that ends takes the lock of the other with it, and the heavyweight task is
started beside the other. -/
theorem not_alone_unlocked : loadGraph ordersTasks = some (Graph.build ordersTasks) ∧
    ¬ HoldsAlong schedulerStep (Contract ordersTasks (Graph.build ordersTasks) 4 3)
      (startEngine (Graph.build ordersTasks) 4 3) ordersEvents := by
  refine ⟨if_pos (by decide +kernel), fun hholds => ?_⟩
  have hany : (run schedulerStep (startEngine (Graph.build ordersTasks) 4 3) ordersEvents).any
      (fun e => decide ("c" ∈ e.running ∧ "b" ∈ e.running ∧ e.graph.isHeavy "c" = true ∧
        e.graph.tableOf "c" = "orders" ∧ e.graph.tableOf "b" = "orders")) = true := by
    decide +kernel
  obtain ⟨e, hrun, he⟩ := (Option.any_eq_true _ _).mp hany
  obtain ⟨hc, hb, hheavy, htable, htable'⟩ := of_decide_eq_true he
  have halone := (hholds.finish hrun).alone "c" hc hheavy (by rw [htable]; decide) "b" hb (by decide)
  exact halone (htable'.trans htable.symm)

/-- The contract holds when the second light task ends before the loop goes on. -/
theorem contract_iff_ended :
    HoldsAlong schedulerStep (Contract ordersTasks (Graph.build ordersTasks) 4 3)
        (startEngine (Graph.build ordersTasks) 4 3)
        [.resume, .resume, .resume, .resume, .resume, .finish "a" ⟨.success, none⟩,
          .finish "b" ⟨.success, none⟩, .resume, .resume, .resume, .resume, .resume, .resume] := by
  refine (contract_iff (if_pos (by decide +kernel)) 4 3 _).mpr ?_
  decide +kernel

end SchedulerRun

end ParallelScheduler
