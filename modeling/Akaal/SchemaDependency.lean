/-
# The dependency graph of a schema

`MultiDomainDependencyGraph` and `TopologicalSorter` of `akaalEngine/schema/dependency`: the graph gets a
node for every object of the model and an edge for every reference, in two maps that are filled while
nodes are still added; the sorter counts prerequisites in one map and releases dependents from the other.

* `buildFromModel_eq` : the graph is made of the objects in the order in which they are listed;
* `sort_eq_order` : the sorter runs Kahn's algorithm;
* `sortsDependencies_iff` : for which models every object comes after what it depends on;
* `not_sortsDependencies_of_acyclic` : tables that refer to a table listed after them may come before it.
-/
import Akaal.KahnOrder
import Akaal.PythonValue
import Akaal.SchemaModel

open SchemaModel

namespace SchemaDependency

/-! ## The graph -/

/-- `object_type` of a node. -/
inductive ObjectType where
  | schema
  | type
  | sequence
  | table
  | view
  | routine
  deriving DecidableEq

/-- `DependencyNode`. -/
structure DependencyNode where
  nodeId : String
  objectType : ObjectType
  schemaName : String
  objectName : String
  deriving DecidableEq

/-- `DependencyEdge`. -/
structure DependencyEdge where
  sourceId : String
  targetId : String
  dependencyType : String := "HARD"
  deriving DecidableEq

/-- `MultiDomainDependencyGraph`, with what a node depends on and what depends on it. -/
structure MultiDomainDependencyGraph where
  nodes : PyDict DependencyNode := .empty
  edges : List DependencyEdge := []
  adjList : PyDict (List String) := .empty
  reverseAdj : PyDict (List String) := .empty

/-- A key gets an empty set unless it has one. -/
def ensureSet (d : PyDict (List String)) (key : String) : PyDict (List String) :=
  match d.get? key with
  | some _ => d
  | none => d.set key []

/-- A value is added to the set of a key that has one. -/
def addToSet (d : PyDict (List String)) (key value : String) : PyDict (List String) :=
  match d.get? key with
  | some set => d.set key (set.insert value)
  | none => d

namespace MultiDomainDependencyGraph

/-- `add_node`. -/
def addNode (graph : MultiDomainDependencyGraph) (node : DependencyNode) :
    MultiDomainDependencyGraph where
  nodes := graph.nodes.set node.nodeId node
  edges := graph.edges
  adjList := ensureSet graph.adjList node.nodeId
  reverseAdj := ensureSet graph.reverseAdj node.nodeId

/-- `add_edge`. -/
def addEdge (graph : MultiDomainDependencyGraph) (sourceId targetId : String)
    (depType : String := "HARD") : MultiDomainDependencyGraph where
  nodes := graph.nodes
  edges := graph.edges ++
    [⟨sourceId, targetId, if sourceId = targetId then "SELF_LOOP" else depType⟩]
  adjList := addToSet graph.adjList sourceId targetId
  reverseAdj := addToSet graph.reverseAdj targetId sourceId

/-- The edge from an object to its schema, when that has a name. -/
def addSchemaEdge (graph : MultiDomainDependencyGraph) (sourceId schemaName : String) :
    MultiDomainDependencyGraph :=
  if schemaName ≠ "" then graph.addEdge sourceId ("schema:" ++ schemaName) else graph

/-- A schema of the model. -/
def addSchema (graph : MultiDomainDependencyGraph) (s : CanonicalSchema) :
    MultiDomainDependencyGraph :=
  graph.addNode ⟨"schema:" ++ s.schemaName, .schema, s.schemaName, s.schemaName⟩

/-- A type of the model. -/
def addUdt (graph : MultiDomainDependencyGraph) (u : CanonicalUDT) : MultiDomainDependencyGraph :=
  let nid := "type:" ++ u.qualifiedName
  (graph.addNode ⟨nid, .type, u.schemaName, u.name⟩).addSchemaEdge nid u.schemaName

/-- A sequence of the model. -/
def addSequence (graph : MultiDomainDependencyGraph) (seq : CanonicalSequence) :
    MultiDomainDependencyGraph :=
  let nid := "sequence:" ++ seq.qualifiedName
  (graph.addNode ⟨nid, .sequence, seq.schemaName, seq.name⟩).addSchemaEdge nid seq.schemaName

/-- The node a foreign key names. -/
def fkTarget (fk : CanonicalForeignKey) : String :=
  "table:" ++ fk.referencedSchema ++ "." ++ fk.referencedTable

/-- A table of the model. -/
def addTable (graph : MultiDomainDependencyGraph) (tbl : CanonicalTable) :
    MultiDomainDependencyGraph :=
  let tId := "table:" ++ tbl.qualifiedName
  tbl.foreignKeys.foldl (fun graph fk => graph.addEdge tId (fkTarget fk) "FOREIGN_KEY")
    ((graph.addNode ⟨tId, .table, tbl.schemaName, tbl.tableName⟩).addSchemaEdge tId tbl.schemaName)

/-- The node a declared dependency names: a table, unless it says otherwise. -/
def dependencyId (dep : String) : String :=
  if ':' ∉ dep.toList then "table:" ++ dep else dep

/-- A view of the model. -/
def addView (graph : MultiDomainDependencyGraph) (v : CanonicalView) : MultiDomainDependencyGraph :=
  let vId := "view:" ++ v.qualifiedName
  v.dependencies.foldl (fun graph dep => graph.addEdge vId (dependencyId dep) "VIEW_REF")
    ((graph.addNode ⟨vId, .view, v.schemaName, v.viewName⟩).addSchemaEdge vId v.schemaName)

/-- A routine of the model. -/
def addRoutine (graph : MultiDomainDependencyGraph) (r : CanonicalRoutine) :
    MultiDomainDependencyGraph :=
  let rId := "routine:" ++ r.qualifiedName
  r.dependencies.foldl (fun graph dep => graph.addEdge rId (dependencyId dep) "ROUTINE_REF")
    ((graph.addNode ⟨rId, .routine, r.schemaName, r.name⟩).addSchemaEdge rId r.schemaName)

/-- `build_from_model`. -/
def buildFromModel (model : CanonicalSchemaModel) : MultiDomainDependencyGraph :=
  let graph := model.schemas.foldl addSchema {}
  let graph := model.udts.foldl addUdt graph
  let graph := model.sequences.foldl addSequence graph
  let graph := model.tables.foldl addTable graph
  let graph := model.views.foldl addView graph
  model.routines.foldl addRoutine graph

/-- `build`. -/
def build (model : CanonicalSchemaModel) : MultiDomainDependencyGraph := buildFromModel model

end MultiDomainDependencyGraph

open MultiDomainDependencyGraph

/-! ## The sorter -/

/-- `in_degree` as it starts. -/
def zeroDegrees (graph : MultiDomainDependencyGraph) : PyDict ℤ :=
  graph.nodes.items.foldl (fun inDegree item => inDegree.set item.1 0) .empty

/-- How many of the prerequisites in an item are nodes. -/
def countValid (graph : MultiDomainDependencyGraph) (item : String × List String) : ℤ :=
  (item.2.filter fun p => (graph.nodes.get? p).isSome).length

/-- `in_degree`: how many of its prerequisites that are nodes a node has. -/
def inDegrees (graph : MultiDomainDependencyGraph) : PyDict ℤ :=
  graph.adjList.items.foldl (fun inDegree item => inDegree.set item.1 (countValid graph item))
    (zeroDegrees graph)

/-- A dependent of the node that was taken loses one, and is pushed when none is left. -/
def decrement (s : PyDict ℤ × List String) (dep : String) : PyDict ℤ × List String :=
  match s.1.get? dep with
  | none => s
  | some degree => (s.1.set dep (degree - 1), if degree - 1 = 0 then dep :: s.2 else s.2)

/-- The nodes in the order in which the least is popped, at most as many as the bound. -/
def popAll (graph : MultiDomainDependencyGraph) : ℕ → PyDict ℤ → List String → List String
  | 0, _, _ => []
  | bound + 1, inDegree, pq =>
    match pq.min? with
    | none => []
    | some curr =>
      let s := ((graph.reverseAdj.get? curr).getD []).foldl decrement (inDegree, pq.erase curr)
      curr :: popAll graph bound s.1 s.2

/-- `sort`, where at most the bound is popped. -/
def sortWithin (bound : ℕ) (graph : MultiDomainDependencyGraph) : List String :=
  let inDegree := inDegrees graph
  let pq := (inDegree.items.filter fun item => item.2 = 0).map Prod.fst
  let ordered := popAll graph bound inDegree pq
  if ordered.length < graph.nodes.items.length then
    ordered ++ (graph.nodes.keys.filter (· ∉ ordered)).insertionSort (· ≤ ·)
  else ordered

/-- `sort`: no more nodes are popped than there are. -/
def sort (graph : MultiDomainDependencyGraph) : List String :=
  sortWithin graph.nodes.items.length graph

/-! ## What a model lists -/

/-- An object as it is listed, with what it refers to and the types of the edges. -/
structure Listed where
  node : DependencyNode
  refs : List (String × String)
  deriving DecidableEq

namespace Listed

/-- The node of the object. -/
def id (o : Listed) : String := o.node.nodeId

/-- The nodes the object refers to. -/
def targets (o : Listed) : List String := o.refs.map Prod.fst

/-- The object is added with its edges. -/
def add (graph : MultiDomainDependencyGraph) (o : Listed) : MultiDomainDependencyGraph :=
  o.refs.foldl (fun graph ref => graph.addEdge o.id ref.1 ref.2) (graph.addNode o.node)

end Listed

/-- The reference to a schema with a name. -/
def schemaRefs (schemaName : String) : List (String × String) :=
  if schemaName ≠ "" then [("schema:" ++ schemaName, "HARD")] else []

/-- A schema as listed. -/
def listedSchema (s : CanonicalSchema) : Listed :=
  ⟨⟨"schema:" ++ s.schemaName, .schema, s.schemaName, s.schemaName⟩, []⟩

/-- A type as listed. -/
def listedUdt (u : CanonicalUDT) : Listed :=
  ⟨⟨"type:" ++ u.qualifiedName, .type, u.schemaName, u.name⟩, schemaRefs u.schemaName⟩

/-- A sequence as listed. -/
def listedSequence (seq : CanonicalSequence) : Listed :=
  ⟨⟨"sequence:" ++ seq.qualifiedName, .sequence, seq.schemaName, seq.name⟩,
    schemaRefs seq.schemaName⟩

/-- A table as listed. -/
def listedTable (tbl : CanonicalTable) : Listed :=
  ⟨⟨"table:" ++ tbl.qualifiedName, .table, tbl.schemaName, tbl.tableName⟩,
    schemaRefs tbl.schemaName ++ tbl.foreignKeys.map fun fk => (fkTarget fk, "FOREIGN_KEY")⟩

/-- A view as listed. -/
def listedView (v : CanonicalView) : Listed :=
  ⟨⟨"view:" ++ v.qualifiedName, .view, v.schemaName, v.viewName⟩,
    schemaRefs v.schemaName ++ v.dependencies.map fun dep => (dependencyId dep, "VIEW_REF")⟩

/-- A routine as listed. -/
def listedRoutine (r : CanonicalRoutine) : Listed :=
  ⟨⟨"routine:" ++ r.qualifiedName, .routine, r.schemaName, r.name⟩,
    schemaRefs r.schemaName ++ r.dependencies.map fun dep => (dependencyId dep, "ROUTINE_REF")⟩

/-- The objects of a model in the order in which they are added. -/
def listing (model : CanonicalSchemaModel) : List Listed :=
  model.schemas.map listedSchema ++ model.udts.map listedUdt ++ model.sequences.map listedSequence ++
    model.tables.map listedTable ++ model.views.map listedView ++ model.routines.map listedRoutine

theorem addSchemaEdge_eq (graph : MultiDomainDependencyGraph) (id schemaName : String) :
    graph.addSchemaEdge id schemaName =
      (schemaRefs schemaName).foldl (fun graph ref => graph.addEdge id ref.1 ref.2) graph := by
  rw [addSchemaEdge, schemaRefs]
  split_ifs <;> rfl

/-- **The graph** is made of the objects in the order in which they are listed. -/
theorem buildFromModel_eq (model : CanonicalSchemaModel) :
    build model = (listing model).foldl Listed.add {} := by
  have hudt : addUdt = fun graph u => (listedUdt u).add graph :=
    funext₂ fun graph u => addSchemaEdge_eq _ _ _
  have hsequence : addSequence = fun graph seq => (listedSequence seq).add graph :=
    funext₂ fun graph seq => addSchemaEdge_eq _ _ _
  have htable : addTable = fun graph tbl => (listedTable tbl).add graph := by
    funext graph tbl
    rw [addTable, addSchemaEdge_eq, Listed.add, listedTable, List.foldl_append, List.foldl_map]
    rfl
  have hview : addView = fun graph v => (listedView v).add graph := by
    funext graph v
    rw [addView, addSchemaEdge_eq, Listed.add, listedView, List.foldl_append, List.foldl_map]
    rfl
  have hroutine : addRoutine = fun graph r => (listedRoutine r).add graph := by
    funext graph r
    rw [addRoutine, addSchemaEdge_eq, Listed.add, listedRoutine, List.foldl_append, List.foldl_map]
    rfl
  rw [build, buildFromModel, listing, hudt, hsequence, htable, hview, hroutine]
  simp only [List.foldl_append, List.foldl_map]
  rfl

/-! ## References -/

section References

variable (L : List Listed)

/-- The nodes of the objects. -/
def ids : List String := L.map Listed.id

/-- A node refers to another one, in some object listed for it. -/
def Refers (n p : String) : Prop := ∃ o ∈ L, o.id = n ∧ p ∈ o.targets

/-- A node refers to one that is listed before the object that refers to it, or with it. -/
def Told (n p : String) : Prop :=
  ∃ before o after, L = before ++ o :: after ∧ o.id = n ∧ p ∈ o.targets ∧ p ∈ ids (before ++ [o])

variable {L}

variable {n p : String} {o : Listed}

theorem mem_ids_concat : p ∈ ids (L ++ [o]) ↔ p ∈ ids L ∨ p = o.id := by
  rw [ids, List.map_append, List.mem_append, List.map_singleton, List.mem_singleton, ids]

theorem refers_concat : Refers (L ++ [o]) n p ↔ Refers L n p ∨ o.id = n ∧ p ∈ o.targets := by
  simp only [Refers, List.mem_append, List.mem_singleton, or_and_right, exists_or, exists_eq_left]

theorem told_concat :
    Told (L ++ [o]) n p ↔ Told L n p ∨ o.id = n ∧ p ∈ o.targets ∧ p ∈ ids (L ++ [o]) := by
  constructor
  · rintro ⟨before, o', after, hsplit, hid, hp, hbefore⟩
    rcases List.eq_nil_or_concat after with rfl | ⟨after', last, rfl⟩
    · obtain ⟨rfl, hsame⟩ := List.append_inj' hsplit rfl
      obtain rfl : o = o' := by simpa using hsame
      exact Or.inr ⟨hid, hp, hbefore⟩
    · rw [List.concat_eq_append, ← List.cons_append, ← List.append_assoc] at hsplit
      exact Or.inl ⟨before, o', after', (List.append_inj' hsplit rfl).1, hid, hp, hbefore⟩
  · rintro (⟨before, o', after, rfl, hid, hp, hbefore⟩ | ⟨hid, hp, hbefore⟩)
    · exact ⟨before, o', after ++ [o], by simp, hid, hp, hbefore⟩
    · exact ⟨L, o, [], rfl, hid, hp, hbefore⟩

theorem Told.refers (h : Told L n p) : Refers L n p ∧ p ∈ ids L := by
  obtain ⟨before, o, after, rfl, hid, hp, hbefore⟩ := h
  refine ⟨⟨o, by simp, hid, hp⟩, ?_⟩
  rw [ids, List.append_cons, List.map_append]
  exact List.mem_append_left _ hbefore

theorem Refers.mem_ids (h : Refers L n p) : n ∈ ids L := by
  obtain ⟨o, ho, rfl, -⟩ := h
  exact List.mem_map_of_mem ho

end References

/-! ## The two maps -/

theorem isSome_get?_iff {α : Type*} (d : PyDict α) {key : String} :
    (d.get? key).isSome = true ↔ key ∈ d.keys := by
  rw [Option.isSome_iff_exists, PyDict.keys, List.mem_map]
  constructor
  · rintro ⟨value, hvalue⟩
    exact ⟨(key, value), d.mem_items_iff.mpr hvalue, rfl⟩
  · rintro ⟨⟨_, value⟩, hitem, rfl⟩
    exact ⟨value, d.mem_items_iff.mp hitem⟩

theorem keys_set {α : Type*} (d : PyDict α) (key : String) (value : α) :
    (d.set key value).keys = if key ∈ d.keys then d.keys else d.keys ++ [key] := by
  obtain ⟨items, hnodup⟩ := d
  show (PyDict.setItem key value items).map Prod.fst =
    if key ∈ items.map Prod.fst then items.map Prod.fst else items.map Prod.fst ++ [key]
  clear hnodup
  induction items with
  | nil => rfl
  | cons item items ih =>
    rw [PyDict.setItem]
    by_cases h : item.1 = key
    · simp [h]
    · simp only [h, if_false, List.map_cons, List.mem_cons, Ne.symm h, false_or, ih]
      split_ifs <;> rfl

theorem get?_set_eq {α : Type*} (d : PyDict α) (key k : String) (value : α) :
    (d.set key value).get? k = if k = key then some value else d.get? k := by
  split_ifs with h
  · rw [h, PyDict.get?_set]
  · rw [PyDict.get?_set_of_ne d value h]

theorem get?_ensureSet (d : PyDict (List String)) (key k : String) :
    (ensureSet d key).get? k = if k = key then some ((d.get? key).getD []) else d.get? k := by
  rw [ensureSet]
  cases hkey : d.get? key with
  | some set =>
    split_ifs with h
    · rw [h, hkey, Option.getD_some]
    · rfl
  | none => rw [get?_set_eq, Option.getD_none]

theorem keys_ensureSet (d : PyDict (List String)) (key : String) :
    (ensureSet d key).keys = if key ∈ d.keys then d.keys else d.keys ++ [key] := by
  rw [ensureSet]
  cases hkey : d.get? key with
  | some set => rw [if_pos ((isSome_get?_iff d).mp (by rw [hkey, Option.isSome_some]))]
  | none => exact keys_set d key []

theorem get?_addToSet (d : PyDict (List String)) (key value k : String) :
    (addToSet d key value).get? k =
      if k = key then (d.get? key).map (List.insert value) else d.get? k := by
  rw [addToSet]
  cases hkey : d.get? key with
  | some set => rw [get?_set_eq, Option.map_some]
  | none =>
    split_ifs with h
    · rw [h, hkey, Option.map_none]
    · rfl

theorem keys_addToSet (d : PyDict (List String)) (key value : String) :
    (addToSet d key value).keys = d.keys := by
  rw [addToSet]
  cases hkey : d.get? key with
  | some set =>
    rw [keys_set, if_pos ((isSome_get?_iff d).mp (by rw [hkey, Option.isSome_some]))]
  | none => rfl

/-- What a graph is after some objects were added. -/
structure Built (L : List Listed) (graph : MultiDomainDependencyGraph) : Prop where
  mem_nodes : ∀ id, id ∈ graph.nodes.keys ↔ id ∈ ids L
  keys_adj : graph.adjList.keys = graph.nodes.keys
  keys_reverse : graph.reverseAdj.keys = graph.nodes.keys
  adj : ∀ n set, graph.adjList.get? n = some set → set.Nodup ∧ ∀ p, p ∈ set ↔ Refers L n p
  reverse : ∀ p set, graph.reverseAdj.get? p = some set → set.Nodup ∧ ∀ n, n ∈ set ↔ Told L n p

theorem built_nil : Built [] {} where
  mem_nodes _ := Iff.rfl
  keys_adj := rfl
  keys_reverse := rfl
  adj _ _ h := nomatch h
  reverse _ _ h := nomatch h

section Additions

variable {L : List Listed} {graph : MultiDomainDependencyGraph}

/-- **A node** that is added refers to nothing yet. -/
theorem Built.addNode (h : Built L graph) (node : DependencyNode) :
    Built (L ++ [⟨node, []⟩]) (graph.addNode node) where
  mem_nodes id := by
    rw [mem_ids_concat, MultiDomainDependencyGraph.addNode, keys_set, ← h.mem_nodes]
    split_ifs with hmem
    · constructor
      · exact Or.inl
      · rintro (hid | rfl)
        · exact hid
        · exact hmem
    · rw [List.mem_append, List.mem_singleton]
      rfl
  keys_adj := by
    rw [MultiDomainDependencyGraph.addNode, keys_ensureSet, keys_set, h.keys_adj]
  keys_reverse := by
    rw [MultiDomainDependencyGraph.addNode, keys_ensureSet, keys_set, h.keys_reverse]
  adj n set hset := by
    have hsame : ∀ p, Refers (L ++ [⟨node, []⟩]) n p ↔ Refers L n p := fun p => by
      rw [refers_concat, Listed.targets]
      simp
    simp only [hsame]
    rw [MultiDomainDependencyGraph.addNode, get?_ensureSet] at hset
    split_ifs at hset with hn
    · subst hn
      cases hold : graph.adjList.get? node.nodeId with
      | some old =>
        rw [hold, Option.getD_some] at hset
        exact h.adj _ set (hold.trans hset)
      | none =>
        rw [hold, Option.getD_none, Option.some.injEq] at hset
        subst hset
        refine ⟨List.nodup_nil, fun p => iff_of_false List.not_mem_nil fun hp => ?_⟩
        have hkey := (isSome_get?_iff graph.adjList).mpr
          (h.keys_adj ▸ (h.mem_nodes _).mpr hp.mem_ids)
        rw [hold] at hkey
        exact absurd hkey (by simp)
    · exact h.adj n set hset
  reverse p set hset := by
    have hsame : ∀ n, Told (L ++ [⟨node, []⟩]) n p ↔ Told L n p := fun n => by
      rw [told_concat, Listed.targets]
      simp
    simp only [hsame]
    rw [MultiDomainDependencyGraph.addNode, get?_ensureSet] at hset
    split_ifs at hset with hp
    · subst hp
      cases hold : graph.reverseAdj.get? node.nodeId with
      | some old =>
        rw [hold, Option.getD_some] at hset
        exact h.reverse _ set (hold.trans hset)
      | none =>
        rw [hold, Option.getD_none, Option.some.injEq] at hset
        subst hset
        refine ⟨List.nodup_nil, fun n => iff_of_false List.not_mem_nil fun hn => ?_⟩
        have hkey := (isSome_get?_iff graph.reverseAdj).mpr
          (h.keys_reverse ▸ (h.mem_nodes _).mpr hn.refers.2)
        rw [hold] at hkey
        exact absurd hkey (by simp)
    · exact h.reverse p set hset

/-- **An edge** that is added is in the second map when its target is a node. -/
theorem Built.addEdge {node : DependencyNode} {refs : List (String × String)}
    (h : Built (L ++ [⟨node, refs⟩]) graph) (target depType : String) :
    Built (L ++ [⟨node, refs ++ [(target, depType)]⟩])
      (graph.addEdge node.nodeId target depType) where
  mem_nodes id := by
    rw [mem_ids_concat, MultiDomainDependencyGraph.addEdge, h.mem_nodes, mem_ids_concat]
    rfl
  keys_adj := by rw [MultiDomainDependencyGraph.addEdge, keys_addToSet, h.keys_adj]
  keys_reverse := by rw [MultiDomainDependencyGraph.addEdge, keys_addToSet, h.keys_reverse]
  adj n set hset := by
    have hmore : ∀ p, Refers (L ++ [⟨node, refs ++ [(target, depType)]⟩]) n p ↔
        Refers (L ++ [⟨node, refs⟩]) n p ∨ node.nodeId = n ∧ p = target := fun p => by
      simp only [refers_concat, Listed.targets, Listed.id, List.map_append, List.mem_append,
        List.map_singleton, List.mem_singleton]
      tauto
    rw [MultiDomainDependencyGraph.addEdge, get?_addToSet] at hset
    split_ifs at hset with hn
    · subst hn
      obtain ⟨old, hold, rfl⟩ := Option.map_eq_some_iff.mp hset
      obtain ⟨hnodup, hmem⟩ := h.adj _ old hold
      refine ⟨hnodup.insert, fun p => ?_⟩
      rw [List.mem_insert_iff, hmem, hmore]
      tauto
    · obtain ⟨hnodup, hmem⟩ := h.adj n set hset
      refine ⟨hnodup, fun p => ?_⟩
      rw [hmem, hmore]
      tauto
  reverse p set hset := by
    have hmore : ∀ n, Told (L ++ [⟨node, refs ++ [(target, depType)]⟩]) n p ↔
        Told (L ++ [⟨node, refs⟩]) n p ∨
          node.nodeId = n ∧ p = target ∧ p ∈ ids (L ++ [⟨node, refs⟩]) := fun n => by
      simp only [told_concat, mem_ids_concat, Listed.targets, Listed.id, List.map_append,
        List.mem_append, List.map_singleton, List.mem_singleton]
      tauto
    rw [MultiDomainDependencyGraph.addEdge, get?_addToSet] at hset
    split_ifs at hset with hp
    · subst hp
      obtain ⟨old, hold, rfl⟩ := Option.map_eq_some_iff.mp hset
      obtain ⟨hnodup, hmem⟩ := h.reverse _ old hold
      have hnode : p ∈ ids (L ++ [⟨node, refs⟩]) := by
        rw [← h.mem_nodes, ← h.keys_reverse, ← isSome_get?_iff, hold, Option.isSome_some]
      refine ⟨hnodup.insert, fun n => ?_⟩
      rw [List.mem_insert_iff, hmem, hmore]
      constructor
      · rintro (rfl | hn)
        · exact Or.inr ⟨rfl, rfl, hnode⟩
        · exact Or.inl hn
      · rintro (hn | ⟨rfl, -, -⟩)
        · exact Or.inr hn
        · exact Or.inl rfl
    · obtain ⟨hnodup, hmem⟩ := h.reverse p set hset
      refine ⟨hnodup, fun n => ?_⟩
      rw [hmem, hmore]
      tauto

/-- **An object** is added with its edges. -/
theorem Built.add (h : Built L graph) (o : Listed) : Built (L ++ [o]) (o.add graph) := by
  obtain ⟨node, refs⟩ := o
  rw [Listed.add]
  induction refs using List.reverseRecOn with
  | nil => exact h.addNode node
  | append_singleton refs ref ih =>
    rw [List.foldl_concat]
    exact ih.addEdge ref.1 ref.2

/-- **The objects** are added one after the other. -/
theorem built_foldl (L : List Listed) : Built L (L.foldl Listed.add {}) := by
  induction L using List.reverseRecOn with
  | nil => exact built_nil
  | append_singleton L o ih =>
    rw [List.foldl_concat]
    exact ih.add o

end Additions

/-! ## The sorter runs Kahn's algorithm -/

section Assignments

variable {α β : Type*} (value : String × α → β)

theorem keys_foldl_set_of_mem {items : List (String × α)} {d : PyDict β}
    (h : ∀ item ∈ items, item.1 ∈ d.keys) :
    (items.foldl (fun d item => d.set item.1 (value item)) d).keys = d.keys := by
  induction items generalizing d with
  | nil => rfl
  | cons item items ih =>
    have hkeys : (d.set item.1 (value item)).keys = d.keys := by
      rw [keys_set, if_pos (h item List.mem_cons_self)]
    rw [List.foldl_cons, ih (fun other hother => hkeys ▸ h other (List.mem_cons_of_mem _ hother)),
      hkeys]

/-- Assignments to distinct new keys add them in their order. -/
theorem keys_foldl_set_of_nodup {items : List (String × α)} {d : PyDict β}
    (h : (d.keys ++ items.map Prod.fst).Nodup) :
    (items.foldl (fun d item => d.set item.1 (value item)) d).keys =
      d.keys ++ items.map Prod.fst := by
  induction items generalizing d with
  | nil => rw [List.foldl_nil, List.map_nil, List.append_nil]
  | cons item items ih =>
    have hnew : item.1 ∉ d.keys := fun hmem =>
      List.disjoint_of_nodup_append h hmem List.mem_cons_self
    have hkeys : (d.set item.1 (value item)).keys = d.keys ++ [item.1] := by
      rw [keys_set, if_neg hnew]
    rw [List.map_cons, List.append_cons] at h
    rw [List.foldl_cons, ih (hkeys ▸ h), hkeys, List.map_cons, List.append_assoc,
      List.singleton_append]

theorem get?_foldl_set_of_mem {items : List (String × α)} (hitems : (items.map Prod.fst).Nodup)
    {item : String × α} (h : item ∈ items) (d : PyDict β) :
    (items.foldl (fun d item => d.set item.1 (value item)) d).get? item.1 = some (value item) := by
  induction items using List.reverseRecOn with
  | nil => exact absurd h List.not_mem_nil
  | append_singleton items last ih =>
    rw [List.map_append, List.map_singleton, ← List.concat_eq_append, List.nodup_concat] at hitems
    rw [List.foldl_concat]
    rcases List.mem_append.mp h with hmem | hmem
    · have hne : item.1 ≠ last.1 := fun heq => hitems.1 (heq ▸ List.mem_map_of_mem hmem)
      rw [PyDict.get?_set_of_ne _ _ hne, ih hitems.2 hmem]
    · rw [List.mem_singleton.mp hmem, PyDict.get?_set]

end Assignments

section Sorter

variable {L : List Listed} {graph : MultiDomainDependencyGraph}

/-- What a node waits for: its prerequisites that are nodes. -/
def prereqs (graph : MultiDomainDependencyGraph) (n : String) : Finset String :=
  ((graph.adjList.get? n).getD []).toFinset.filter (· ∈ graph.nodes.keys)

/-- What is released with a node. -/
def dependents (graph : MultiDomainDependencyGraph) (p : String) : List String :=
  (graph.reverseAdj.get? p).getD []

/-- How many prerequisites a node has. -/
def degree (graph : MultiDomainDependencyGraph) (n : String) : ℤ :=
  ((inDegrees graph).get? n).getD 0

theorem Built.keys_inDegrees (h : Built L graph) : (inDegrees graph).keys = graph.nodes.keys := by
  have hfirst : (zeroDegrees graph).keys = graph.nodes.keys :=
    keys_foldl_set_of_nodup (fun _ => (0 : ℤ)) (d := .empty) graph.nodes.nodup
  refine (keys_foldl_set_of_mem (countValid graph) fun item hitem => ?_).trans hfirst
  rw [hfirst, ← h.keys_adj]
  exact List.mem_map_of_mem hitem

/-- **The degree** of a node counts its prerequisites. -/
theorem Built.get?_inDegrees (h : Built L graph) {n : String} (hn : n ∈ graph.nodes.keys) :
    (inDegrees graph).get? n = some ((prereqs graph n).card : ℤ) := by
  obtain ⟨set, hset⟩ := Option.isSome_iff_exists.mp
    ((isSome_get?_iff graph.adjList).mpr (h.keys_adj ▸ hn))
  have hcount : prereqs graph n = (set.filter fun p => (graph.nodes.get? p).isSome).toFinset := by
    rw [prereqs, hset, Option.getD_some, List.toFinset_filter]
    exact Finset.filter_congr fun p _ => (isSome_get?_iff graph.nodes).symm
  rw [hcount, List.toFinset_card_of_nodup ((h.adj n set hset).1.filter _)]
  exact get?_foldl_set_of_mem (countValid graph) graph.adjList.nodup
    (graph.adjList.mem_items_iff.mpr hset) (zeroDegrees graph)

theorem Built.mem_prereqs_iff (h : Built L graph) {n p : String} :
    p ∈ prereqs graph n ↔ Refers L n p ∧ p ∈ ids L := by
  rw [prereqs, Finset.mem_filter, List.mem_toFinset, h.mem_nodes]
  refine and_congr_left fun _ => ?_
  cases hset : graph.adjList.get? n with
  | some set => exact (h.adj n set hset).2 p
  | none =>
    refine iff_of_false List.not_mem_nil fun hp => ?_
    have hkey := (isSome_get?_iff graph.adjList).mpr
      (h.keys_adj ▸ (h.mem_nodes n).mpr hp.mem_ids)
    rw [hset] at hkey
    exact absurd hkey (by simp)

theorem Built.mem_dependents_iff (h : Built L graph) {n p : String} :
    n ∈ dependents graph p ↔ Told L n p := by
  rw [dependents]
  cases hset : graph.reverseAdj.get? p with
  | some set => exact (h.reverse p set hset).2 n
  | none =>
    refine iff_of_false List.not_mem_nil fun hn => ?_
    have hkey := (isSome_get?_iff graph.reverseAdj).mpr
      (h.keys_reverse ▸ (h.mem_nodes p).mpr hn.refers.2)
    rw [hset] at hkey
    exact absurd hkey (by simp)

/-- **The two maps** are linked: who is released with a node refers to it. -/
theorem Built.linked (h : Built L graph) :
    KahnOrder.Linked (prereqs graph) (dependents graph) graph.nodes.keys where
  nodup := graph.nodes.nodup
  inside n _ p hp := (h.mem_nodes p).mpr (h.mem_prereqs_iff.mp hp).2
  told p _ n hn := by
    have htold := h.mem_dependents_iff.mp hn
    exact ⟨(h.mem_nodes n).mpr htold.refers.1.mem_ids, h.mem_prereqs_iff.mpr htold.refers⟩
  once p := by
    rw [dependents]
    cases hset : graph.reverseAdj.get? p with
    | some set => exact (h.reverse p set hset).1
    | none => exact List.nodup_nil

/-- The degrees in a dictionary are those of a function. -/
def Agrees (keys : List String) (inDegree : PyDict ℤ) (f : String → ℤ) : Prop :=
  ∀ k ∈ keys, inDegree.get? k = some (f k)

/-- Dependents lose one in the dictionary as in the function. -/
theorem foldl_decrement {keys deps : List String} (hdeps : ∀ dep ∈ deps, dep ∈ keys)
    {inDegree : PyDict ℤ} {f : String → ℤ} (h : Agrees keys inDegree f) (pq : List String) :
    Agrees keys (deps.foldl decrement (inDegree, pq)).1
        (deps.foldl KahnOrder.lower (f, pq)).1 ∧
      (deps.foldl decrement (inDegree, pq)).2 = (deps.foldl KahnOrder.lower (f, pq)).2 := by
  induction deps generalizing inDegree f pq with
  | nil => exact ⟨h, rfl⟩
  | cons dep deps ih =>
    have hdep : decrement (inDegree, pq) dep =
        (inDegree.set dep (f dep - 1), if f dep - 1 = 0 then dep :: pq else pq) := by
      rw [decrement, h dep (hdeps dep List.mem_cons_self)]
    have hagrees : Agrees keys (inDegree.set dep (f dep - 1))
        (Function.update f dep (f dep - 1)) := by
      intro k hk
      rw [get?_set_eq, Function.update_apply]
      split_ifs with hkey
      · rfl
      · exact h k hk
    rw [List.foldl_cons, List.foldl_cons, hdep, KahnOrder.lower]
    exact ih (fun other hother => hdeps other (List.mem_cons_of_mem _ hother)) hagrees _

/-- **The nodes** are popped as they are released. -/
theorem popAll_eq_drain {keys : List String} (hkeys : ∀ p, ∀ n ∈ dependents graph p, n ∈ keys)
    (bound : ℕ) {inDegree : PyDict ℤ} {f : String → ℤ} (h : Agrees keys inDegree f)
    (pq : List String) :
    popAll graph bound inDegree pq = KahnOrder.drain (dependents graph) bound f pq := by
  induction bound generalizing inDegree f pq with
  | zero => rfl
  | succ bound ih =>
    rw [popAll, KahnOrder.drain]
    cases hmin : pq.min? with
    | none => rfl
    | some curr =>
      obtain ⟨hagrees, hqueue⟩ := foldl_decrement (hkeys curr) h (pq.erase curr)
      have hstep : ((graph.reverseAdj.get? curr).getD []).foldl decrement
          (inDegree, pq.erase curr) = (dependents graph curr).foldl decrement
          (inDegree, pq.erase curr) := rfl
      simp only [hstep, hqueue, ih hagrees]

theorem Built.agrees (h : Built L graph) :
    Agrees graph.nodes.keys (inDegrees graph) (degree graph) := by
  intro k hk
  rw [degree, h.get?_inDegrees hk, Option.getD_some]

theorem Built.pq_eq (h : Built L graph) :
    ((inDegrees graph).items.filter fun item => item.2 = 0).map Prod.fst =
      graph.nodes.keys.filter (degree graph · = 0) := by
  rw [← h.keys_inDegrees, PyDict.keys, List.filter_map]
  refine congrArg (List.map Prod.fst) (List.filter_congr fun item hitem => ?_)
  have hvalue := (inDegrees graph).mem_items_iff.mp (show (item.1, item.2) ∈ _ from hitem)
  rw [Function.comp_apply, degree, hvalue, Option.getD_some]

/-- What is popped is what is released. -/
theorem Built.popAll_eq (h : Built L graph) (bound : ℕ) : popAll graph bound (inDegrees graph)
        (((inDegrees graph).items.filter fun item => item.2 = 0).map Prod.fst) =
      KahnOrder.drain (dependents graph) bound (degree graph)
        (graph.nodes.keys.filter (degree graph · = 0)) := by
  rw [h.pq_eq, popAll_eq_drain (fun p n hn => ?_) bound h.agrees]
  exact (h.mem_nodes n).mpr (h.mem_dependents_iff.mp hn).refers.1.mem_ids

theorem Built.degree_eq (h : Built L graph) :
    ∀ n ∈ graph.nodes.keys, degree graph n = (prereqs graph n).card := by
  intro n hn
  rw [degree, h.get?_inDegrees hn, Option.getD_some]

/-- **The sorter** runs Kahn's algorithm. -/
theorem Built.sort_eq_order (h : Built L graph) :
    sort graph = KahnOrder.order graph.nodes.keys (dependents graph) (degree graph) := by
  have hlength : graph.nodes.items.length = graph.nodes.keys.length :=
    (List.length_map Prod.fst).symm
  have hcontains : ∀ ordered : List String, graph.nodes.keys.filter (!ordered.contains ·) =
      graph.nodes.keys.filter (· ∉ ordered) := by
    intro ordered
    simp only [List.contains_eq_mem, decide_not]
  rw [sort, sortWithin, h.popAll_eq, hlength, KahnOrder.order]
  simp only [hcontains]

end Sorter

/-! ## Which models are sorted -/

/-- A node settles when all it refers to does and is listed before the object that refers to it. -/
inductive Settles (L : List Listed) : String → Prop
  | intro {n : String} (htold : ∀ p ∈ ids L, Refers L n p → Told L n p)
      (hsettles : ∀ p ∈ ids L, Refers L n p → Settles L p) : Settles L n

theorem Built.released_iff {L : List Listed} {graph : MultiDomainDependencyGraph}
    (h : Built L graph) {n : String} :
    KahnOrder.Released (prereqs graph) (dependents graph) n ↔ Settles L n := by
  constructor
  · intro hreleased
    induction hreleased with
    | intro htold _ ih =>
      exact .intro (fun p hp hn => h.mem_dependents_iff.mp (htold p (h.mem_prereqs_iff.mpr ⟨hn, hp⟩)))
        fun p hp hn => ih p (h.mem_prereqs_iff.mpr ⟨hn, hp⟩)
  · intro hsettles
    induction hsettles with
    | intro htold _ ih =>
      refine .intro (fun p hp => ?_) fun p hp => ?_
      · obtain ⟨hn, hp⟩ := h.mem_prereqs_iff.mp hp
        exact h.mem_dependents_iff.mpr (htold p hp hn)
      · obtain ⟨hn, hp⟩ := h.mem_prereqs_iff.mp hp
        exact ih p hp hn

/-- An object depends on another one of the model. -/
def DependsOn (model : CanonicalSchemaModel) (n p : String) : Prop :=
  Refers (listing model) n p ∧ p ∈ ids (listing model) ∧ p ≠ n

/-- No object depends on itself through others. -/
def Acyclic (model : CanonicalSchemaModel) : Prop :=
  ∀ n, ¬ Relation.TransGen (DependsOn model) n n

theorem acyclic_of_subrelation {model : CanonicalSchemaModel} {r : String → String → Prop}
    (htrans : ∀ a b c, r a b → r b c → r a c) (hirrefl : ∀ a, ¬ r a a)
    (h : ∀ n p, DependsOn model n p → r n p) : Acyclic model := by
  intro n hcycle
  have hrelated : r n n := Relation.TransGen.trans_induction_on (motive := fun {a b} _ => r a b)
    hcycle (fun hdep => h _ _ hdep) fun _ _ hab hbc => htrans _ _ _ hab hbc
  exact hirrefl n hrelated

/-- Every object is listed once, and after what it depends on. -/
def SortsDependencies (model : CanonicalSchemaModel) : Prop :=
  (sort (build model)).Nodup ∧ (∀ n, n ∈ sort (build model) ↔ n ∈ ids (listing model)) ∧
    ∀ n p, DependsOn model n p → [p, n].Sublist (sort (build model))

theorem built_build (model : CanonicalSchemaModel) : Built (listing model) (build model) := by
  rw [buildFromModel_eq]
  exact built_foldl _

/-- **A model is sorted** just when of two objects that do not settle, the one that depends on the
other has the greater name. -/
theorem sortsDependencies_iff (model : CanonicalSchemaModel) :
    SortsDependencies model ↔ ∀ n p, DependsOn model n p → ¬ Settles (listing model) n →
      ¬ Settles (listing model) p → p < n := by
  have h := built_build model
  have horder := KahnOrder.order_iff h.linked h.degree_eq
  simp only [h.released_iff, ← h.sort_eq_order] at horder
  have hdepends : ∀ n p, DependsOn model n p ↔
      n ∈ (build model).nodes.keys ∧ p ∈ prereqs (build model) n ∧ p ≠ n := by
    intro n p
    rw [h.mem_prereqs_iff, h.mem_nodes, DependsOn]
    constructor
    · exact fun ⟨hn, hp, hne⟩ => ⟨hn.mem_ids, ⟨hn, hp⟩, hne⟩
    · exact fun ⟨_, ⟨hn, hp⟩, hne⟩ => ⟨hn, hp, hne⟩
  have hnodup : (sort (build model)).Nodup :=
    h.sort_eq_order ▸ KahnOrder.nodup_order h.linked h.degree_eq
  have hmem : ∀ n, n ∈ sort (build model) ↔ n ∈ ids (listing model) := by
    intro n
    rw [h.sort_eq_order, KahnOrder.mem_order_iff h.linked h.degree_eq, h.mem_nodes]
  constructor
  · rintro ⟨-, -, hsorted⟩ n p hdep
    obtain ⟨hn, hp, hne⟩ := (hdepends n p).mp hdep
    exact horder.mp (fun n hn p hp hne => hsorted n p ((hdepends n p).mpr ⟨hn, hp, hne⟩)) n hn p hp hne
  · intro hless
    refine ⟨hnodup, hmem, fun n p hdep => ?_⟩
    obtain ⟨hn, hp, hne⟩ := (hdepends n p).mp hdep
    exact horder.mpr (fun n hn p hp hne => hless n p ((hdepends n p).mpr ⟨hn, hp, hne⟩)) n hn p hp hne

/-! ## Tables listed before what they refer to -/

/-- A foreign key to a table. -/
def keyTo (table : String) : CanonicalForeignKey where
  columns := ["parent_id"]
  referencedSchema := "public"
  referencedTable := table
  referencedColumns := ["id"]

/-- Three tables, each with a foreign key to the next. -/
def chainModel : CanonicalSchemaModel where
  sourceVendor := "POSTGRESQL"
  tables := [{ tableName := "a", foreignKeys := [keyTo "b"] },
    { tableName := "b", foreignKeys := [keyTo "c"] }, { tableName := "c" }]

theorem acyclic_chainModel : Acyclic chainModel := by
  refine acyclic_of_subrelation (r := fun n p => n < p) (fun _ _ _ => lt_trans) lt_irrefl
    fun n p h => ?_
  obtain ⟨⟨o, ho, rfl, htarget⟩, hp, hne⟩ := h
  have hall : ∀ o ∈ listing chainModel, ∀ p ∈ o.targets, p ∈ ids (listing chainModel) → p ≠ o.id →
      o.id < p := by decide
  exact hall o ho p htarget hp hne

/-- **An acyclic model** may have a table sorted before the one it refers to. -/
theorem not_sortsDependencies_of_acyclic : ¬ ∀ model, Acyclic model → SortsDependencies model := by
  intro hall
  have hdepends : DependsOn chainModel "table:public.a" "table:public.b" := by
    refine ⟨⟨listedTable { tableName := "a", foreignKeys := [keyTo "b"] }, ?_, ?_, ?_⟩, ?_, ?_⟩ <;>
      decide
  have hsorted := (hall chainModel acyclic_chainModel).2.2 _ _ hdepends
  have hsort : sort (build chainModel) = ["table:public.c", "table:public.a", "table:public.b"] := by
    decide
  rw [hsort] at hsorted
  exact absurd hsorted (by decide)

end SchemaDependency
