/-
# Validation of execution plans

The plan descriptors of `akaalPipeline/orchestration/plans.py` and `GraphValidator.validate_plan` of
`akaalPipeline/orchestration/graph_validation.py`.  The validation sorts the nodes along the edges of
the plan; the dependencies that the nodes list play no part in it.

* `order_spec` : every node is visited at most once;
* `nodup_of_validatePlan` : the nodes of a plan that is accepted have distinct ids.

The error texts are left out.  The successors of a node are visited in the order of the edges; the order
does not change the count.
-/
import Akaal.MigrationAggregate
import Akaal.StateClaims
import Akaal.TaskScheduler

namespace PlanCoordination

open MigrationState (MigrationMode)
open ParallelScheduler (visitChild visitBound)

/-! ## Plans -/

/-- `SideEffectClassification`. -/
inductive SideEffectClassification where
  | readOnly
  | reversible
  | irreversible
  | destructive
  deriving DecidableEq

/-- `NodeTaskDescriptor`, without its id and its parameters. -/
structure NodeTaskDescriptor where
  capabilityContract : String
  sideEffect : SideEffectClassification
  deriving DecidableEq

/-- `GraphNode`. -/
structure GraphNode where
  nodeId : String
  task : NodeTaskDescriptor
  dependencies : List String := []
  deriving DecidableEq

/-- `GraphEdge`. -/
structure GraphEdge where
  fromNode : String
  toNode : String
  deriving DecidableEq

/-- `ExecutionPlan`. -/
structure ExecutionPlan where
  planId : String
  migrationId : String
  mode : MigrationMode
  nodes : List GraphNode
  edges : List GraphEdge
  fingerprint : String
  configuration : List (String × PyValue) := []

/-! ## The order of the visits -/

/-- The nodes that leave the queue, in their order: a node enters it when its in-degree becomes zero. -/
def order (children : String → List String) : ℕ → PyDict ℤ → List String → List String
  | 0, _, _ => []
  | _ + 1, _, [] => []
  | bound + 1, degrees, node :: queue =>
    let s := (children node).foldl visitChild (degrees, queue)
    node :: order children bound s.1 s.2

/-- The in-degree of a node. -/
def degree (degrees : PyDict ℤ) (node : String) : ℤ := (degrees.get? node).getD 0

/-- The nodes in the queue are distinct, and no edge leads to them any more. -/
structure Queued (degrees : PyDict ℤ) (queue : List String) : Prop where
  nodup : queue.Nodup
  done : ∀ node ∈ queue, degree degrees node ≤ 0

theorem degree_visitChild (s : PyDict ℤ × List String) (child node : String) :
    degree (visitChild s child).1 node =
      if node = child then degree s.1 child - 1 else degree s.1 node := by
  simp only [visitChild, degree]
  split_ifs with h
  · rw [h, PyDict.get?_set]
    rfl
  · rw [PyDict.get?_set_of_ne _ _ h]

/-- Visiting a child keeps the queue, lowers in-degrees, and queues a node at most whose in-degree was
positive. -/
theorem queued_visitChild {s : PyDict ℤ × List String} (hs : Queued s.1 s.2) (child : String) :
    Queued (visitChild s child).1 (visitChild s child).2 ∧
      (∀ node, degree (visitChild s child).1 node ≤ degree s.1 node) ∧
      ∀ node ∈ (visitChild s child).2, node ∈ s.2 ∨ 0 < degree s.1 node := by
  have hle : ∀ node, degree (visitChild s child).1 node ≤ degree s.1 node := by
    intro node
    rw [degree_visitChild]
    split_ifs with h
    · rw [h]
      omega
    · exact le_rfl
  have hqueue : (visitChild s child).2 =
      if degree s.1 child - 1 = 0 then s.2 ++ [child] else s.2 := rfl
  rw [hqueue]
  split_ifs with hzero
  · have hnew : child ∉ s.2 := fun hmem => by
      have := hs.done child hmem
      omega
    refine ⟨⟨?_, fun node hnode => ?_⟩, hle, fun node hnode => ?_⟩
    · rw [List.nodup_append]
      refine ⟨hs.nodup, List.nodup_singleton child, fun a ha b hb => ?_⟩
      rw [List.mem_singleton.mp hb]
      exact fun h => hnew (h ▸ ha)
    · rcases List.mem_append.mp hnode with hold | hchild
      · exact (hle node).trans (hs.done node hold)
      · rw [List.mem_singleton.mp hchild, degree_visitChild, if_pos rfl]
        omega
    · rcases List.mem_append.mp hnode with hold | hchild
      · exact Or.inl hold
      · rw [List.mem_singleton.mp hchild]
        exact Or.inr (by omega)
  · exact ⟨⟨hs.nodup, fun node hnode => (hle node).trans (hs.done node hnode)⟩, hle,
      fun node hnode => Or.inl hnode⟩

/-- So does visiting all the children of a node. -/
theorem queued_foldl (children : List String) {s : PyDict ℤ × List String} (hs : Queued s.1 s.2) :
    Queued (children.foldl visitChild s).1 (children.foldl visitChild s).2 ∧
      (∀ node, degree (children.foldl visitChild s).1 node ≤ degree s.1 node) ∧
      ∀ node ∈ (children.foldl visitChild s).2, node ∈ s.2 ∨ 0 < degree s.1 node := by
  induction children generalizing s with
  | nil => exact ⟨hs, fun _ => le_rfl, fun _ hnode => Or.inl hnode⟩
  | cons child children ih =>
    obtain ⟨hqueued, hle, hmem⟩ := queued_visitChild hs child
    obtain ⟨hqueued', hle', hmem'⟩ := ih hqueued
    refine ⟨hqueued', fun node => (hle' node).trans (hle node), fun node hnode => ?_⟩
    rcases hmem' node hnode with hold | hpos
    · exact hmem node hold
    · exact Or.inr (hpos.trans_le (hle node))

/-- **Visits.**  From distinct nodes that no edge leads to, every node is visited at most once, and only
those of the queue and those that edges lead to are. -/
theorem order_spec (children : String → List String) (bound : ℕ) {degrees : PyDict ℤ}
    {queue : List String} (h : Queued degrees queue) :
    (order children bound degrees queue).Nodup ∧
      ∀ node ∈ order children bound degrees queue, node ∈ queue ∨ 0 < degree degrees node := by
  induction bound generalizing degrees queue with
  | zero => exact ⟨List.nodup_nil, fun node hnode => absurd hnode List.not_mem_nil⟩
  | succ bound ih =>
    cases queue with
    | nil => exact ⟨List.nodup_nil, fun node hnode => absurd hnode List.not_mem_nil⟩
    | cons node queue =>
      obtain ⟨hnot, hnodup⟩ := List.nodup_cons.mp h.nodup
      have hrest : Queued degrees queue :=
        ⟨hnodup, fun other hother => h.done other (List.mem_cons_of_mem node hother)⟩
      obtain ⟨hqueued, hle, hmem⟩ := queued_foldl (children node) (s := (degrees, queue)) hrest
      obtain ⟨horder, hfrom⟩ := ih hqueued
      have hvisited : ∀ other ∈ order children bound
          ((children node).foldl visitChild (degrees, queue)).1
          ((children node).foldl visitChild (degrees, queue)).2,
          other ∈ queue ∨ 0 < degree degrees other := by
        intro other hother
        rcases hfrom other hother with hin | hpos
        · exact hmem other hin
        · exact Or.inr (hpos.trans_le (hle other))
      constructor
      · refine List.nodup_cons.mpr ⟨fun hagain => ?_, horder⟩
        rcases hvisited node hagain with hin | hpos
        · exact hnot hin
        · exact absurd hpos (not_lt.mpr (h.done node List.mem_cons_self))
      · intro other hother
        rcases List.mem_cons.mp hother with rfl | hother
        · exact Or.inl List.mem_cons_self
        · exact (hvisited other hother).imp_left (List.mem_cons_of_mem node)

/-! ## The validation -/

/-- The reasons of an `UnsupportedModeError`. -/
inductive UnsupportedMode where
  | unknownNode (fromNode toNode : String)
  | dependencyCycle
  | prohibited (mode : MigrationMode) (nodeId : String)
  deriving DecidableEq

/-- The successors and the in-degrees of the nodes. -/
structure PlanGraph where
  adj : PyDict (List String)
  inDegree : PyDict ℤ

namespace PlanGraph

variable (g : PlanGraph)

/-- The successors of a node. -/
def children (node : String) : List String := (g.adj.get? node).getD []

/-- The nodes of a plan, before its edges are read. -/
def ofNodes (nodes : List GraphNode) : PlanGraph where
  adj := nodes.foldl (fun d n => d.set n.nodeId []) .empty
  inDegree := nodes.foldl (fun d n => d.set n.nodeId 0) .empty

/-- The successors of a node with one more, as a set. -/
def successors (node successor : String) : List String :=
  if successor ∈ g.children node then g.children node else g.children node ++ [successor]

/-- An edge; its successor is one only once, but every edge counts for the in-degree. -/
def addEdge (edge : GraphEdge) : Except UnsupportedMode PlanGraph :=
  if (g.adj.get? edge.fromNode).isNone ∨ (g.adj.get? edge.toNode).isNone then
    .error (.unknownNode edge.fromNode edge.toNode)
  else
    .ok
      { adj := g.adj.set edge.fromNode (g.successors edge.fromNode edge.toNode)
        inDegree := g.inDegree.set edge.toNode (degree g.inDegree edge.toNode + 1) }

/-- The edges of a plan, one after the other. -/
def addEdges : PlanGraph → List GraphEdge → Except UnsupportedMode PlanGraph
  | g, [] => .ok g
  | g, edge :: edges =>
    match g.addEdge edge with
    | .error e => .error e
    | .ok g => addEdges g edges

/-- The nodes that no edge leads to. -/
def sources : List String := (g.inDegree.items.filter fun item => item.2 = 0).map Prod.fst

/-- The nodes that are visited. -/
def visited : List String :=
  order g.children (visitBound g.inDegree g.sources) g.inDegree g.sources

end PlanGraph

/-- The capability contract of a task contains one of the texts, in lower case. -/
def NodeTaskDescriptor.mentions (task : NodeTaskDescriptor) (texts : List String) : Bool :=
  texts.any fun text =>
    decide (text.toList <:+: (PythonText.lower task.capabilityContract).toList)

/-- A mode prohibits a task. -/
def prohibits (task : NodeTaskDescriptor) : MigrationMode → Bool
  | .m6SchemaOnly => task.mentions ["data_transport", "cdc", "data_write"]
  | .m7DataOnly => task.mentions ["schema_ddl", "schema_create"]
  | .m8ValidationOnly => task.sideEffect = .destructive || task.sideEffect = .irreversible
  | .m3Cdc => task.mentions ["initial_bulk_copy"]
  | _ => false

/-- `validate_plan`. -/
def validatePlan (plan : ExecutionPlan) : Except UnsupportedMode Unit :=
  match (PlanGraph.ofNodes plan.nodes).addEdges plan.edges with
  | .error e => .error e
  | .ok g =>
    if g.visited.length ≠ plan.nodes.length then .error .dependencyCycle
    else
      match plan.nodes.find? fun node => prohibits node.task plan.mode with
      | some node => .error (.prohibited plan.mode node.nodeId)
      | none => .ok ()

/-! ## Distinct nodes -/

theorem mem_keys_foldl {α : Type} (value : α) (nodes : List GraphNode) (d : PyDict α) (key : String) :
    key ∈ (nodes.foldl (fun d n => d.set n.nodeId value) d).keys ↔
      key ∈ d.keys ∨ key ∈ nodes.map GraphNode.nodeId := by
  induction nodes generalizing d with
  | nil => simp
  | cons node nodes ih =>
    have hset : key ∈ (d.set node.nodeId value).keys ↔ key = node.nodeId ∨ key ∈ d.keys :=
      PyDict.mem_keys_setItem
    rw [List.foldl_cons, ih, hset, List.map_cons, List.mem_cons]
    tauto

theorem mem_keys_of_degree_ne {degrees : PyDict ℤ} {node : String} (h : degree degrees node ≠ 0) :
    node ∈ degrees.keys := by
  cases hget : degrees.get? node with
  | none =>
    rw [degree, hget] at h
    exact absurd rfl h
  | some value =>
    rw [PyDict.keys, List.mem_map]
    exact ⟨(node, value), (degrees.mem_items_iff).mpr hget, rfl⟩

theorem PlanGraph.keys_addEdges {g g' : PlanGraph} {edges : List GraphEdge}
    (hkeys : ∀ key, key ∈ g.inDegree.keys ↔ key ∈ g.adj.keys) (h : g.addEdges edges = .ok g') :
    ∀ key ∈ g'.inDegree.keys, key ∈ g.inDegree.keys := by
  induction edges generalizing g with
  | nil =>
    obtain rfl := Except.ok.inj h
    exact fun key hkey => hkey
  | cons edge edges ih =>
    have hknown : ∀ node, ¬ (g.adj.get? node).isNone → node ∈ g.adj.keys := by
      intro node hnode
      obtain ⟨value, hvalue⟩ := Option.ne_none_iff_exists'.mp (mt Option.isNone_iff_eq_none.mpr hnode)
      exact List.mem_map.mpr ⟨(node, value), (g.adj.mem_items_iff).mpr hvalue, rfl⟩
    rw [addEdges, addEdge] at h
    split_ifs at h with hunknown
    rw [not_or] at hunknown
    have hfrom := hknown _ hunknown.1
    have hto := (hkeys _).mpr (hknown _ hunknown.2)
    have hsame : ∀ {α : Type} (d : PyDict α) (key : String) (value : α), key ∈ d.keys →
        ∀ k, k ∈ (d.set key value).keys ↔ k ∈ d.keys := by
      intro α d key value hkey k
      refine PyDict.mem_keys_setItem.trans (or_iff_right_of_imp ?_)
      rintro rfl
      exact hkey
    intro key hkey
    have hmem := ih (fun k => by rw [hsame _ _ _ hto, hsame _ _ _ hfrom, hkeys]) h key hkey
    exact (hsame _ _ _ hto key).mp hmem

theorem PlanGraph.visited_spec {nodes : List GraphNode} {edges : List GraphEdge} {g : PlanGraph}
    (h : (ofNodes nodes).addEdges edges = .ok g) :
    g.visited.Nodup ∧ ∀ node ∈ g.visited, node ∈ nodes.map GraphNode.nodeId := by
  have hkeys : ∀ key ∈ g.inDegree.keys, key ∈ nodes.map GraphNode.nodeId := by
    intro key hkey
    have hstart := keys_addEdges (fun k => by
      rw [ofNodes, mem_keys_foldl, mem_keys_foldl]
      rfl) h key hkey
    rw [ofNodes, mem_keys_foldl] at hstart
    exact hstart.resolve_left List.not_mem_nil
  have hsources : ∀ node ∈ g.sources, node ∈ g.inDegree.keys ∧ degree g.inDegree node = 0 := by
    intro node hnode
    obtain ⟨item, hitem, rfl⟩ := List.mem_map.mp hnode
    obtain ⟨hmem, hzero⟩ := List.mem_filter.mp hitem
    refine ⟨List.mem_map.mpr ⟨item, hmem, rfl⟩, ?_⟩
    rw [degree, (g.inDegree.mem_items_iff).mp hmem]
    exact of_decide_eq_true hzero
  have hqueued : Queued g.inDegree g.sources :=
    ⟨(g.inDegree.nodup.sublist (List.filter_sublist.map Prod.fst)),
      fun node hnode => (hsources node hnode).2.le⟩
  obtain ⟨hnodup, hmem⟩ := order_spec g.children (visitBound g.inDegree g.sources) hqueued
  refine ⟨hnodup, fun node hnode => hkeys node ?_⟩
  rcases hmem node hnode with hsource | hpos
  · exact (hsources node hsource).1
  · exact mem_keys_of_degree_ne hpos.ne'

/-- **Distinct nodes.**  The nodes of a plan that is accepted have distinct ids. -/
theorem nodup_of_validatePlan {plan : ExecutionPlan} (h : validatePlan plan = .ok ()) :
    (plan.nodes.map GraphNode.nodeId).Nodup := by
  rw [validatePlan] at h
  cases hgraph : (PlanGraph.ofNodes plan.nodes).addEdges plan.edges with
  | error e =>
    rw [hgraph] at h
    cases h
  | ok g =>
    rw [hgraph] at h
    simp only at h
    split_ifs at h with hcount
    obtain ⟨hnodup, hmem⟩ := PlanGraph.visited_spec hgraph
    have hlength : (plan.nodes.map GraphNode.nodeId).length ≤ g.visited.length := by
      rw [List.length_map]
      omega
    have hperm := (hnodup.subperm hmem).perm_of_length_le hlength
    exact hperm.nodup_iff.mp hnodup

end PlanCoordination
