/-
# The causality graph

`CDCCausalityGraphEngine` of `cdc/ordering/causality.py`: the transactions of a session with the
edges between those that touch one entity, taken from a history per entity, and between those of
a child table and its parent table.

* `addTransaction_spec` : the edges an added transaction brings, and its entries in the histories;
* `GraphInvariant.addTransaction` : what the histories and the edges mention are nodes.
-/
import Akaal.CDCSharding

open PythonText

namespace CDC

/-! ## Dictionaries of sets -/

namespace IdSets

/-- `d.get(key, set())`. -/
def get (d : PyDict (List String)) (key : String) : List String := (d.get? key).getD []

/-- `d.setdefault(key, set()).add(x)`. -/
def add (d : PyDict (List String)) (key x : String) : PyDict (List String) :=
  d.set key (setAdd (get d key) x)

theorem get_set (d : PyDict (List String)) (key k : String) (s : List String) :
    get (d.set key s) k = if k = key then s else get d k := by
  rw [get]
  split_ifs with h
  · rw [h, PyDict.get?_set, Option.getD_some]
  · rw [PyDict.get?_set_of_ne _ _ h]
    rfl

@[simp] theorem mem_get_add {d : PyDict (List String)} {key k x y : String} :
    y ∈ get (add d key x) k ↔ (k = key ∧ y = x) ∨ y ∈ get d k := by
  rw [add, get_set]
  split_ifs with h
  · subst h
    simp
  · simp [h]

end IdSets

/-! ## The graph -/

/-- `CDCDependencyType`. -/
inductive CDCDependencyType where
  | sameEntity
  | samePrimaryKey
  | foreignKeyParentChild
  | foreignKeyChildParent
  | multiTableTransaction
  | transactionSequence
  | schemaDependency
  | ddlDmlDependency
  | writeAfterWrite
  | writeAfterDelete
  | deleteAfterWrite
  | insertBeforeChildInsert
  | parentDeleteAfterChildDelete
  | crossPartitionTransaction
  | explicitSourceDependency
  | unknownDependency
  deriving DecidableEq

/-- `CDCDependencyEdge`: the target requires the source. -/
structure CDCDependencyEdge where
  sourceTxId : String
  targetTxId : String
  dependencyType : CDCDependencyType
  description : String
  isSatisfied : Bool
  deriving DecidableEq

/-- `CDCCausalityGraphEngine`.  A node is kept as the transaction whose dictionary it is. -/
structure CDCCausalityGraphEngine where
  cdcSessionId : String
  fkRelationships : List (String × String)
  nodes : PyDict CDCTransaction
  entityHistory : PyDict (List String)
  predecessors : PyDict (List String)
  successors : PyDict (List String)
  edgeDetails : PyDict CDCDependencyEdge
  completedTxs : List String
  failedTxs : List String

namespace CDCCausalityGraphEngine

variable (rt : DigestRuntime)

/-- `CDCCausalityGraphEngine(...)` for a session without a record. -/
def new (cdcSessionId : String) (fkRelationships : List (String × String)) :
    CDCCausalityGraphEngine :=
  ⟨cdcSessionId, fkRelationships, .empty, .empty, .empty, .empty, .empty, [], []⟩

/-! ## Entities -/

/-- The entity of an image: the value of the first key column, unless it is the empty text; then
the first column with its value; the name of the table when there is no column. -/
def entityOf (tableName : String) (image : PyItems) : String :=
  let byKey := ((keyColumns tableName).find? fun column =>
    (List.lookup column image).isSome).map fun column => rt.str (getValue image column)
  let value := byKey.getD ""
  if value ≠ "" then value
  else
    match (image.map Prod.fst).insertionSort (· ≤ ·) with
    | firstKey :: _ => firstKey ++ ":" ++ rt.str (getValue image firstKey)
    | [] => "table-" ++ tableName

/-- The table and the entity of an event. -/
def entityKey (e : CDCEvent) : Except PyRaised (String × String) := do
  let image ← asDict "image" (eventImage e)
  return (e.sourceTable, entityOf rt e.sourceTable image)

/-- `extract_entity_keys`, each once. -/
def extractEntityKeys (tx : CDCTransaction) : Except PyRaised (List (String × String)) := do
  let keys ← tx.events.mapM (entityKey rt)
  return keys.dedup

/-- The key of the history of an entity. -/
def historyKey (entity : String × String) : String := entity.1 ++ ":" ++ entity.2

/-! ## Edges -/

/-- The failure of an edge from a transaction to itself. -/
def selfDependency (g : CDCCausalityGraphEngine) (src tgt : String) : PyRaised :=
  .executionError {
    failureType := .invalidDependencyEdge
    category := .blocking
    message := "[INVALID DEPENDENCY EDGE] Self-dependency edge '" ++ src ++ " -> " ++ tgt ++
      "' rejected."
    migrationId := "mig-unknown"
    jobId := "job-unknown"
    runId := "run-unknown"
    cdcSessionId := g.cdcSessionId }

/-- `add_dependency_edge`. -/
def addDependencyEdge (g : CDCCausalityGraphEngine) (edge : CDCDependencyEdge) :
    CDCCausalityGraphEngine × Except PyRaised Unit :=
  if edge.sourceTxId = edge.targetTxId then
    (g, .error (g.selfDependency edge.sourceTxId edge.targetTxId))
  else
    ({ g with
      successors := IdSets.add g.successors edge.sourceTxId edge.targetTxId
      predecessors := IdSets.add g.predecessors edge.targetTxId edge.sourceTxId
      edgeDetails := g.edgeDetails.set (edge.sourceTxId ++ "->" ++ edge.targetTxId) edge }, .ok ())

/-- Add edges one after the other; an edge that cannot be made raises when its turn comes. -/
def addEdges : CDCCausalityGraphEngine → List (Except PyRaised CDCDependencyEdge) →
    CDCCausalityGraphEngine × Except PyRaised (List CDCDependencyEdge)
  | g, [] => (g, .ok [])
  | g, .error e :: _ => (g, .error e)
  | g, .ok edge :: edges =>
    match g.addDependencyEdge edge with
    | (g', .error e) => (g', .error e)
    | (g', .ok ()) =>
      match addEdges g' edges with
      | (g'', .error e) => (g'', .error e)
      | (g'', .ok added) => (g'', .ok (edge :: added))

/-- The transactions of a history that an added one depends on. -/
def active (g : CDCCausalityGraphEngine) (txId : String) (history : List String) : List String :=
  history.filter fun prev => prev ≠ txId ∧ prev ∉ g.completedTxs

/-- `prev_pos > curr_pos`, with the position of the earlier transaction as its node has it. -/
def isLater (g : CDCCausalityGraphEngine) (tx : CDCTransaction) (prev : String) :
    Except PyRaised Bool :=
  match g.nodes.get? prev with
  | none => .ok false
  | some node => do
      let prevPos ← parseSourcePosition (.dict node.commitPosition.toDict)
      prevPos.gt tx.commitPosition

/-- The edge between a transaction and one of the history of an entity. -/
def entityEdge (g : CDCCausalityGraphEngine) (tx : CDCTransaction) (histKey prev : String) :
    Except PyRaised CDCDependencyEdge := do
  let later ← g.isLater tx prev
  let src := if later then tx.txId else prev
  let tgt := if later then prev else tx.txId
  return {
    sourceTxId := src
    targetTxId := tgt
    dependencyType := .sameEntity
    description := "Same entity '" ++ histKey ++ "' ordering (" ++ src ++ " -> " ++ tgt ++ ")"
    isSatisfied := decide (src ∈ g.completedTxs) }

/-- The histories of the entities of a table. -/
def tableHistories (g : CDCCausalityGraphEngine) (tableName : String) : List (List String) :=
  (g.entityHistory.items.filter fun item => decide ((tableName ++ ":").toList <+: item.1.toList)).map
    Prod.snd

/-- The edges from the transactions of the parent table of a table, when it has one. -/
def parentEdges (g : CDCCausalityGraphEngine) (tx : CDCTransaction) (tableName : String) :
    List CDCDependencyEdge :=
  match List.lookup tableName g.fkRelationships with
  | none => []
  | some parentTable =>
    (g.tableHistories parentTable).flatMap fun history =>
      (g.active tx.txId history).map fun parent => {
        sourceTxId := parent
        targetTxId := tx.txId
        dependencyType := .foreignKeyParentChild
        description := "FK Parent-Child dependency (" ++ parentTable ++ " -> " ++ tableName ++ ")"
        isSatisfied := decide (parent ∈ g.completedTxs) }

/-! ## Adding a transaction -/

/-- `self.entity_history.setdefault(hist_key, [])`. -/
def openHistory (g : CDCCausalityGraphEngine) (histKey : String) : CDCCausalityGraphEngine :=
  { g with
    entityHistory := g.entityHistory.set histKey (IdSets.get g.entityHistory histKey) }

/-- One entity of a transaction that is added: the edges to its history and to the parent table,
and the transaction at the end of the history. -/
def addEntity (g : CDCCausalityGraphEngine) (tx : CDCTransaction) (entity : String × String) :
    CDCCausalityGraphEngine × Except PyRaised (List CDCDependencyEdge) :=
  let histKey := historyKey entity
  let opened := g.openHistory histKey
  let history := IdSets.get opened.entityHistory histKey
  match opened.addEdges ((opened.active tx.txId history).map (opened.entityEdge tx histKey)) with
  | (g₁, .error e) => (g₁, .error e)
  | (g₁, .ok edges) =>
    match g₁.addEdges ((g₁.parentEdges tx entity.1).map .ok) with
    | (g₂, .error e) => (g₂, .error e)
    | (g₂, .ok parents) =>
      ({ g₂ with entityHistory := g₂.entityHistory.set histKey (history ++ [tx.txId]) },
        .ok (edges ++ parents))

/-- The loop over the entities of a transaction. -/
def addEntities (tx : CDCTransaction) : CDCCausalityGraphEngine → List (String × String) →
    CDCCausalityGraphEngine × Except PyRaised (List CDCDependencyEdge)
  | g, [] => (g, .ok [])
  | g, entity :: entities =>
    match g.addEntity tx entity with
    | (g', .error e) => (g', .error e)
    | (g', .ok edges) =>
      match addEntities tx g' entities with
      | (g'', .error e) => (g'', .error e)
      | (g'', .ok more) => (g'', .ok (edges ++ more))

/-- The sets `visited` and `rec_stack` of the search. -/
structure Search where
  visited : List String
  recStack : List String

/-- `dfs` of `detect_cycle`; the fuel bounds the depth, which the number of transactions does. -/
def dfs (succs : String → List String) : ℕ → String → Search → Bool × Search
  | 0, _, search => (false, search)
  | fuel + 1, node, search =>
    let (found, left) := (succs node).foldl
      (fun acc succ =>
        if acc.1 then acc
        else if succ ∉ acc.2.visited then dfs succs fuel succ acc.2
        else (decide (succ ∈ acc.2.recStack), acc.2))
      (false, ⟨setAdd search.visited node, setAdd search.recStack node⟩)
    (found, if found then left else { left with recStack := left.recStack.erase node })

/-- A bound on the number of transactions the successors mention. -/
def searchFuel (g : CDCCausalityGraphEngine) : ℕ :=
  g.successors.items.length + (g.successors.items.map fun item => item.2.length).sum + 1

/-- `detect_cycle`. -/
def detectCycle (g : CDCCausalityGraphEngine) (startTxId : String) : Bool :=
  (dfs (IdSets.get g.successors) g.searchFuel startTxId ⟨[], []⟩).1

/-- The failure of a transaction that closes a cycle. -/
def cycleDetected (tx : CDCTransaction) : PyRaised :=
  .executionError {
    failureType := .causalityCycleDetected
    category := .blocking
    message := "[CAUSALITY CYCLE DETECTED] Dependency cycle detected for transaction '" ++
      tx.txId ++ "'."
    migrationId := tx.identity.migrationId
    jobId := tx.identity.jobId
    runId := tx.identity.runId
    cdcSessionId := tx.identity.cdcSessionId }

/-- The node of a transaction, with the sets of its predecessors and successors. -/
def addNode (g : CDCCausalityGraphEngine) (tx : CDCTransaction) : CDCCausalityGraphEngine :=
  { g with
    nodes := g.nodes.set tx.txId tx
    predecessors := g.predecessors.set tx.txId (IdSets.get g.predecessors tx.txId)
    successors := g.successors.set tx.txId (IdSets.get g.successors tx.txId) }

/-- `add_transaction`. -/
def addTransaction (g : CDCCausalityGraphEngine) (tx : CDCTransaction) :
    CDCCausalityGraphEngine × Except PyRaised (List CDCDependencyEdge) :=
  if (g.nodes.get? tx.txId).isSome then
    (g, .ok ((g.edgeDetails.items.map Prod.snd).filter fun e => e.targetTxId = tx.txId))
  else
    match extractEntityKeys rt tx with
    | .error e => (g.addNode tx, .error e)
    | .ok entities =>
      match addEntities tx (g.addNode tx) entities with
      | (g', .error e) => (g', .error e)
      | (g', .ok added) =>
        if g'.detectCycle tx.txId then (g', .error (cycleDetected tx)) else (g', .ok added)

/-! ## Completions and readiness -/

/-- `is_transaction_ready`. -/
def isTransactionReady (g : CDCCausalityGraphEngine) (txId : String) : Bool :=
  if txId ∈ g.failedTxs then false
  else if txId ∈ g.completedTxs then true
  else (IdSets.get g.predecessors txId).all fun p => p ∉ g.failedTxs ∧ p ∈ g.completedTxs

/-- `get_blocker_tx_ids`. -/
def getBlockerTxIds (g : CDCCausalityGraphEngine) (txId : String) : List String :=
  (IdSets.get g.predecessors txId).filter fun p => p ∉ g.completedTxs

/-- `has_failed_predecessor`. -/
def hasFailedPredecessor (g : CDCCausalityGraphEngine) (txId : String) : Bool :=
  (IdSets.get g.predecessors txId).any fun p => p ∈ g.failedTxs

/-- An edge is satisfied. -/
def satisfy (edges : PyDict CDCDependencyEdge) (key : String) : PyDict CDCDependencyEdge :=
  match edges.get? key with
  | some edge => edges.set key { edge with isSatisfied := true }
  | none => edges

/-- `resolve_transaction_completion`; the successors that are ready afterwards are returned. -/
def resolveTransactionCompletion (g : CDCCausalityGraphEngine) (txId : String) :
    CDCCausalityGraphEngine × List String :=
  let succs := IdSets.get g.successors txId
  let resolved := { g with
    completedTxs := setAdd g.completedTxs txId
    edgeDetails := succs.foldl (fun edges succ => satisfy edges (txId ++ "->" ++ succ))
      g.edgeDetails }
  (resolved, succs.filter resolved.isTransactionReady)

/-- `resolve_transaction_failure`; the successors are returned. -/
def resolveTransactionFailure (g : CDCCausalityGraphEngine) (txId : String) :
    CDCCausalityGraphEngine × List String :=
  ({ g with failedTxs := setAdd g.failedTxs txId }, IdSets.get g.successors txId)

/-! ## The edges an added transaction brings -/

/-- The target waits for the source. -/
def Edge (g : CDCCausalityGraphEngine) (src tgt : String) : Prop :=
  src ∈ IdSets.get g.predecessors tgt

/-- The transactions of a history. -/
def InHistory (g : CDCCausalityGraphEngine) (histKey txId : String) : Prop :=
  txId ∈ IdSets.get g.entityHistory histKey

/-- The nodes, the settings and the outcomes of two graphs are the same. -/
structure SameNodes (g g' : CDCCausalityGraphEngine) : Prop where
  nodes : g'.nodes = g.nodes
  completed : g'.completedTxs = g.completedTxs
  failed : g'.failedTxs = g.failedTxs
  relationships : g'.fkRelationships = g.fkRelationships

theorem SameNodes.refl (g : CDCCausalityGraphEngine) : SameNodes g g := ⟨rfl, rfl, rfl, rfl⟩

theorem SameNodes.trans {g g' g'' : CDCCausalityGraphEngine} (h : SameNodes g g')
    (h' : SameNodes g' g'') : SameNodes g g'' :=
  ⟨h'.nodes.trans h.nodes, h'.completed.trans h.completed, h'.failed.trans h.failed,
    h'.relationships.trans h.relationships⟩

variable {rt} {g g' : CDCCausalityGraphEngine} {tx : CDCTransaction}

variable {added : List CDCDependencyEdge} {entity : String × String} {prev src tgt : String}

theorem edge_addDependencyEdge_iff {edge : CDCDependencyEdge}
    (h : g.addDependencyEdge edge = (g', .ok ())) :
    g'.Edge src tgt ↔ g.Edge src tgt ∨ (edge.sourceTxId = src ∧ edge.targetTxId = tgt) := by
  rw [addDependencyEdge] at h
  split_ifs at h with hself
  · cases h
  · cases h
    show src ∈ IdSets.get (IdSets.add _ _ _) tgt ↔ _
    rw [IdSets.mem_get_add, Edge]
    constructor
    · rintro (⟨htgt, hsrc⟩ | hsrc)
      · exact .inr ⟨hsrc.symm, htgt.symm⟩
      · exact .inl hsrc
    · rintro (hsrc | ⟨hsrc, htgt⟩)
      · exact .inr hsrc
      · exact .inl ⟨htgt.symm, hsrc.symm⟩

/-- An explicit edge changes neither the nodes nor the histories; one that is rejected changes
nothing. -/
theorem addDependencyEdge_same (g : CDCCausalityGraphEngine) (edge : CDCDependencyEdge) :
    SameNodes g (g.addDependencyEdge edge).1 ∧
      (g.addDependencyEdge edge).1.entityHistory = g.entityHistory ∧
      ∀ e, (g.addDependencyEdge edge).2 = .error e → (g.addDependencyEdge edge).1 = g := by
  rw [addDependencyEdge]
  split_ifs with hself
  · exact ⟨.refl g, rfl, fun _ _ => rfl⟩
  · refine ⟨⟨rfl, rfl, rfl, rfl⟩, rfl, fun e he => ?_⟩
    cases he

/-- What adding edges does: the histories and the nodes stay, the edges that are added are among
those given, and when it returns they all are. -/
structure AddsEdges (g g' : CDCCausalityGraphEngine) (given : String → String → Prop)
    (returns : Prop) : Prop where
  same : SameNodes g g'
  old : ∀ src tgt, g.Edge src tgt → g'.Edge src tgt
  new : ∀ src tgt, g'.Edge src tgt → g.Edge src tgt ∨ given src tgt
  all : returns → ∀ src tgt, given src tgt → g'.Edge src tgt

/-- The ends of the edges of a list. -/
def Ends (edges : List (Except PyRaised CDCDependencyEdge)) (src tgt : String) : Prop :=
  ∃ edge, Except.ok edge ∈ edges ∧ edge.sourceTxId = src ∧ edge.targetTxId = tgt

/-- Adding edges one after the other. -/
theorem addEdges_spec (g : CDCCausalityGraphEngine)
    (edges : List (Except PyRaised CDCDependencyEdge)) :
    AddsEdges g (g.addEdges edges).1 (Ends edges) (∃ added, (g.addEdges edges).2 = .ok added) ∧
      (g.addEdges edges).1.entityHistory = g.entityHistory := by
  induction edges generalizing g with
  | nil =>
    refine ⟨⟨.refl g, fun _ _ h => h, fun _ _ h => .inl h, ?_⟩, rfl⟩
    rintro - src tgt ⟨edge, hedge, -⟩
    exact absurd hedge List.not_mem_nil
  | cons head edges ih =>
    cases head with
    | error e =>
      refine ⟨⟨.refl g, fun _ _ h => h, fun _ _ h => .inl h, ?_⟩, rfl⟩
      rintro ⟨added, hadded⟩
      cases hadded
    | ok edge =>
      rw [addEdges]
      split
      · next g₁ e hadd =>
          have hsame := (addDependencyEdge_same g edge).2.2 e (by rw [hadd])
          rw [hadd] at hsame
          subst hsame
          refine ⟨⟨.refl g₁, fun _ _ h => h, fun _ _ h => .inl h, ?_⟩, rfl⟩
          rintro ⟨added, hadded⟩
          cases hadded
      · next g₁ hadd =>
          obtain ⟨hspec, hhistory⟩ := ih g₁
          have hone := addDependencyEdge_same g edge
          rw [hadd] at hone
          have hfinal : AddsEdges g (g₁.addEdges edges).1 (Ends (.ok edge :: edges))
              (∃ added, (g₁.addEdges edges).2 = .ok added) := by
            refine ⟨hone.1.trans hspec.same, ?_, ?_, ?_⟩
            · intro src tgt h
              exact hspec.old src tgt ((edge_addDependencyEdge_iff hadd).mpr (.inl h))
            · intro src tgt h
              rcases hspec.new src tgt h with h | ⟨edge', hmem, hends⟩
              · rcases (edge_addDependencyEdge_iff hadd).mp h with h | hends
                · exact .inl h
                · exact .inr ⟨edge, List.mem_cons_self, hends⟩
              · exact .inr ⟨edge', List.mem_cons_of_mem _ hmem, hends⟩
            · rintro hreturns src tgt ⟨edge', hmem, hends⟩
              rcases List.mem_cons.mp hmem with heq | hmem
              · cases heq
                exact hspec.old src tgt ((edge_addDependencyEdge_iff hadd).mpr (.inr hends))
              · exact hspec.all hreturns src tgt ⟨edge', hmem, hends⟩
          split
          · next g₂ e hrest =>
              rw [hrest] at hfinal hhistory
              refine ⟨⟨hfinal.same, hfinal.old, hfinal.new, ?_⟩, hhistory.trans hone.2.1⟩
              rintro ⟨added, hadded⟩
              cases hadded
          · next g₂ added hrest =>
              rw [hrest] at hfinal hhistory
              exact ⟨⟨hfinal.same, hfinal.old, hfinal.new, fun _ => hfinal.all ⟨added, rfl⟩⟩,
                hhistory.trans hone.2.1⟩

/-! ## The edges of one entity -/

/-- The edge between an added transaction and one in the history of its entity, by position. -/
def EntityEdge (g : CDCCausalityGraphEngine) (tx : CDCTransaction) (entity : String × String)
    (src tgt : String) : Prop :=
  ∃ prev, g.InHistory (historyKey entity) prev ∧ prev ≠ tx.txId ∧ prev ∉ g.completedTxs ∧
    ∃ later, g.isLater tx prev = .ok later ∧ (if later then tx.txId else prev) = src ∧
      (if later then prev else tx.txId) = tgt

/-- The edge from a transaction of the parent table to an added one. -/
def ParentEdge (g : CDCCausalityGraphEngine) (tx : CDCTransaction) (tableName : String)
    (src tgt : String) : Prop :=
  tgt = tx.txId ∧ src ≠ tx.txId ∧ src ∉ g.completedTxs ∧
    ∃ parentTable, List.lookup tableName g.fkRelationships = some parentTable ∧
      ∃ histKey, (parentTable ++ ":").toList <+: histKey.toList ∧ g.InHistory histKey src

/-- The edges an entity of an added transaction brings. -/
def Brings (g : CDCCausalityGraphEngine) (tx : CDCTransaction) (entity : String × String)
    (src tgt : String) : Prop :=
  g.EntityEdge tx entity src tgt ∨ g.ParentEdge tx entity.1 src tgt

theorem mem_active_iff {txId : String} {history : List String} :
    prev ∈ g.active txId history ↔ prev ∈ history ∧ prev ≠ txId ∧ prev ∉ g.completedTxs := by
  rw [active, List.mem_filter, decide_eq_true_iff]

/-- An edge between a transaction and one of a history goes by their positions. -/
theorem exists_entityEdge_iff {histKey : String} :
    (∃ edge, g.entityEdge tx histKey prev = .ok edge ∧ edge.sourceTxId = src ∧
        edge.targetTxId = tgt) ↔
      ∃ later, g.isLater tx prev = .ok later ∧ (if later then tx.txId else prev) = src ∧
        (if later then prev else tx.txId) = tgt := by
  constructor
  · rintro ⟨edge, hedge, rfl, rfl⟩
    obtain ⟨later, hlater, hedge⟩ := Traversal.bind_eq_ok_iff.mp hedge
    cases hedge
    exact ⟨later, hlater, rfl, rfl⟩
  · rintro ⟨later, hlater, hsrc, htgt⟩
    rw [entityEdge, hlater]
    exact ⟨_, rfl, hsrc, htgt⟩

theorem ends_entityEdges_iff :
    Ends ((g.active tx.txId (IdSets.get g.entityHistory (historyKey entity))).map
        (g.entityEdge tx (historyKey entity))) src tgt ↔ g.EntityEdge tx entity src tgt := by
  constructor
  · rintro ⟨edge, hmem, hends⟩
    obtain ⟨prev, hprev, hedge⟩ := List.mem_map.mp hmem
    obtain ⟨hhistory, hne, hactive⟩ := mem_active_iff.mp hprev
    exact ⟨prev, hhistory, hne, hactive, exists_entityEdge_iff.mp ⟨edge, hedge, hends⟩⟩
  · rintro ⟨prev, hhistory, hne, hactive, hlater⟩
    obtain ⟨edge, hedge, hends⟩ := exists_entityEdge_iff.mpr hlater
    have hprev := mem_active_iff.mpr ⟨hhistory, hne, hactive⟩
    exact ⟨edge, List.mem_map.mpr ⟨prev, hprev, hedge⟩, hends⟩

theorem mem_tableHistories_iff {tableName txId : String} :
    (∃ history ∈ g.tableHistories tableName, txId ∈ history) ↔
      ∃ histKey, (tableName ++ ":").toList <+: histKey.toList ∧ g.InHistory histKey txId := by
  constructor
  · rintro ⟨history, hmem, htx⟩
    obtain ⟨⟨histKey, _⟩, hitem, rfl⟩ := List.mem_map.mp hmem
    rw [List.mem_filter, decide_eq_true_iff, PyDict.mem_items_iff] at hitem
    refine ⟨histKey, hitem.2, ?_⟩
    rw [InHistory, IdSets.get, hitem.1]
    exact htx
  · rintro ⟨histKey, hstarts, htx⟩
    rw [InHistory, IdSets.get] at htx
    cases hget : g.entityHistory.get? histKey with
    | none =>
      rw [hget] at htx
      exact absurd htx List.not_mem_nil
    | some history =>
      rw [hget] at htx
      refine ⟨history, List.mem_map.mpr ⟨(histKey, history), ?_, rfl⟩, htx⟩
      rw [List.mem_filter, decide_eq_true_iff, PyDict.mem_items_iff]
      exact ⟨hget, hstarts⟩

theorem ends_parentEdges_iff {tableName : String} :
    Ends ((g.parentEdges tx tableName).map .ok) src tgt ↔ g.ParentEdge tx tableName src tgt := by
  constructor
  · rintro ⟨edge, hmem, rfl, rfl⟩
    obtain ⟨edge', hedge, heq⟩ := List.mem_map.mp hmem
    cases heq
    rw [parentEdges] at hedge
    cases hparent : List.lookup tableName g.fkRelationships with
    | none =>
      rw [hparent] at hedge
      exact absurd hedge List.not_mem_nil
    | some parentTable =>
      rw [hparent] at hedge
      obtain ⟨history, hhistory, hedge⟩ := List.mem_flatMap.mp hedge
      obtain ⟨parent, hactive, rfl⟩ := List.mem_map.mp hedge
      obtain ⟨hmem, hne, hactive⟩ := mem_active_iff.mp hactive
      exact ⟨rfl, hne, hactive, parentTable, hparent,
        mem_tableHistories_iff.mp ⟨history, hhistory, hmem⟩⟩
  · rintro ⟨rfl, hne, hactive, parentTable, hparent, hhistory⟩
    obtain ⟨history, hhistory, hmem⟩ := mem_tableHistories_iff.mpr hhistory
    have hprev := mem_active_iff.mpr ⟨hmem, hne, hactive⟩
    obtain ⟨edge, hedge, hends⟩ : ∃ edge ∈ g.parentEdges tx tableName,
        edge.sourceTxId = src ∧ edge.targetTxId = tx.txId := by
      rw [parentEdges, hparent]
      refine ⟨_, List.mem_flatMap.mpr ⟨history, hhistory, List.mem_map.mpr ⟨src, hprev, rfl⟩⟩, ?_⟩
      exact ⟨rfl, rfl⟩
    exact ⟨edge, List.mem_map.mpr ⟨edge, hedge, rfl⟩, hends⟩

/-! ## What an added transaction changes -/

/-- What adding a transaction does to the histories: they gain at most the transaction, under the
keys of some entities, and when it returns under all of them. -/
structure AddsHistory (g g' : CDCCausalityGraphEngine) (txId : String)
    (given : String × String → Prop) (returns : Prop) : Prop where
  old : ∀ histKey x, g.InHistory histKey x → g'.InHistory histKey x
  new : ∀ histKey x, g'.InHistory histKey x → g.InHistory histKey x ∨
    x = txId ∧ ∃ entity, given entity ∧ historyKey entity = histKey
  all : returns → ∀ entity, given entity → g'.InHistory (historyKey entity) txId

/-- Two graphs are the same for a transaction that is added: the nodes and the histories of the
other transactions, the settings and the outcomes. -/
structure SameOthers (txId : String) (g g' : CDCCausalityGraphEngine) : Prop where
  nodes : ∀ x, x ≠ txId → g'.nodes.get? x = g.nodes.get? x
  completed : g'.completedTxs = g.completedTxs
  relationships : g'.fkRelationships = g.fkRelationships
  history : ∀ histKey x, x ≠ txId → (g'.InHistory histKey x ↔ g.InHistory histKey x)

theorem SameNodes.others {txId : String} (h : SameNodes g g')
    (hhistory : ∀ histKey x, x ≠ txId → (g'.InHistory histKey x ↔ g.InHistory histKey x)) :
    SameOthers txId g g' :=
  ⟨fun x _ => by rw [h.nodes], h.completed, h.relationships, hhistory⟩

theorem SameOthers.isLater (h : SameOthers tx.txId g g') (hne : prev ≠ tx.txId) :
    g'.isLater tx prev = g.isLater tx prev := by
  rw [CDCCausalityGraphEngine.isLater, CDCCausalityGraphEngine.isLater, h.nodes prev hne]

theorem SameOthers.brings (h : SameOthers tx.txId g g')
    : g'.Brings tx entity src tgt ↔ g.Brings tx entity src tgt := by
  have hentity : g'.EntityEdge tx entity src tgt ↔ g.EntityEdge tx entity src tgt := by
    unfold EntityEdge
    rw [h.completed]
    constructor
    · rintro ⟨prev, hprev, hne, hrest⟩
      rw [h.isLater hne] at hrest
      exact ⟨prev, (h.history _ _ hne).mp hprev, hne, hrest⟩
    · rintro ⟨prev, hprev, hne, hrest⟩
      rw [← h.isLater hne] at hrest
      exact ⟨prev, (h.history _ _ hne).mpr hprev, hne, hrest⟩
  have hparent : g'.ParentEdge tx entity.1 src tgt ↔ g.ParentEdge tx entity.1 src tgt := by
    unfold ParentEdge
    rw [h.completed, h.relationships]
    constructor
    · rintro ⟨htgt, hne, hactive, parentTable, hlookup, histKey, hstarts, hsrc⟩
      exact ⟨htgt, hne, hactive, parentTable, hlookup, histKey, hstarts,
        (h.history _ _ hne).mp hsrc⟩
    · rintro ⟨htgt, hne, hactive, parentTable, hlookup, histKey, hstarts, hsrc⟩
      exact ⟨htgt, hne, hactive, parentTable, hlookup, histKey, hstarts,
        (h.history _ _ hne).mpr hsrc⟩
  rw [Brings, Brings, hentity, hparent]

/-- One list of edges after the other. -/
theorem AddsEdges.trans {g₁ g₂ : CDCCausalityGraphEngine} {given₁ given₂ : String → String → Prop}
    {returns₁ returns₂ : Prop} (h₁ : AddsEdges g g₁ given₁ returns₁)
    (h₂ : AddsEdges g₁ g₂ given₂ returns₂) :
    AddsEdges g g₂ (fun src tgt => given₁ src tgt ∨ given₂ src tgt) (returns₁ ∧ returns₂) where
  same := h₁.same.trans h₂.same
  old := fun src tgt h => h₂.old src tgt (h₁.old src tgt h)
  new := by
    intro src tgt h
    rcases h₂.new src tgt h with h | h
    · rcases h₁.new src tgt h with h | h
      · exact .inl h
      · exact .inr (.inl h)
    · exact .inr (.inr h)
  all := by
    rintro ⟨hreturns₁, hreturns₂⟩ src tgt (h | h)
    · exact h₂.old src tgt (h₁.all hreturns₁ src tgt h)
    · exact h₂.all hreturns₂ src tgt h

/-- Restate which edges are given and what is known when the loop returns. -/
theorem AddsEdges.imp {given given' : String → String → Prop} {returns returns' : Prop}
    (h : AddsEdges g g' given returns) (hnew : ∀ src tgt, given src tgt → given' src tgt)
    (hall : returns' → returns ∧ ∀ src tgt, given' src tgt → given src tgt) :
    AddsEdges g g' given' returns' where
  same := h.same
  old := h.old
  new := fun src tgt hedge => (h.new src tgt hedge).imp_right (hnew src tgt)
  all := fun hreturns src tgt hgiven =>
    h.all (hall hreturns).1 src tgt ((hall hreturns).2 src tgt hgiven)

theorem inHistory_openHistory {histKey k x : String} :
    (g.openHistory histKey).InHistory k x ↔ g.InHistory k x := by
  show x ∈ IdSets.get (g.entityHistory.set _ _) k ↔ _
  rw [IdSets.get_set]
  split_ifs with h
  · rw [h, InHistory]
  · rfl

/-- **One entity of an added transaction.** -/
theorem addEntity_spec (g : CDCCausalityGraphEngine) (tx : CDCTransaction)
    (entity : String × String) :
    AddsEdges g (g.addEntity tx entity).1 (g.Brings tx entity)
        (∃ added, (g.addEntity tx entity).2 = .ok added) ∧
      AddsHistory g (g.addEntity tx entity).1 tx.txId (fun other => other = entity)
        (∃ added, (g.addEntity tx entity).2 = .ok added) := by
  rw [addEntity]
  have hopen : AddsEdges g (g.openHistory (historyKey entity)) (fun _ _ => False) True :=
    ⟨⟨rfl, rfl, rfl, rfl⟩, fun _ _ h => h, fun _ _ h => .inl h, fun _ _ _ h => h.elim⟩
  have hhistory : ∀ k x, (g.openHistory (historyKey entity)).InHistory k x ↔ g.InHistory k x :=
    fun _ _ => inHistory_openHistory
  generalize g.openHistory (historyKey entity) = opened at hopen hhistory
  obtain ⟨hentity, hkept⟩ := addEdges_spec opened ((opened.active tx.txId
    (IdSets.get opened.entityHistory (historyKey entity))).map
      (opened.entityEdge tx (historyKey entity)))
  have hbrings : ∀ src tgt, opened.Brings tx entity src tgt ↔ g.Brings tx entity src tgt :=
    fun src tgt => (hopen.same.others fun k x _ => hhistory k x).brings
  split
  · next g₁ e hadd =>
      rw [hadd] at hentity hkept
      refine ⟨(hopen.trans hentity).imp ?_ ?_, ?_, ?_, ?_⟩
      · rintro src tgt (h | h)
        · exact h.elim
        · exact (hbrings src tgt).mp (.inl (ends_entityEdges_iff.mp h))
      · rintro ⟨added, hadded⟩
        cases hadded
      · intro k x h
        rw [InHistory, hkept]
        exact (hhistory k x).mpr h
      · intro k x h
        rw [InHistory, hkept] at h
        exact .inl ((hhistory k x).mp h)
      · rintro ⟨added, hadded⟩
        cases hadded
  · next g₁ edges hadd =>
      rw [hadd] at hentity hkept
      obtain ⟨hparents, hkept'⟩ := addEdges_spec g₁ ((g₁.parentEdges tx entity.1).map .ok)
      have hhistory₁ : ∀ k x, g₁.InHistory k x ↔ opened.InHistory k x := by
        intro k x
        rw [InHistory, hkept, InHistory]
      have hparent : ∀ src tgt, g₁.ParentEdge tx entity.1 src tgt ↔
          opened.ParentEdge tx entity.1 src tgt := by
        intro src tgt
        unfold ParentEdge
        rw [hentity.same.completed, hentity.same.relationships]
        simp only [hhistory₁]
      have hgiven : ∀ src tgt, ((False ∨ Ends ((opened.active tx.txId
            (IdSets.get opened.entityHistory (historyKey entity))).map
              (opened.entityEdge tx (historyKey entity))) src tgt) ∨
          Ends ((g₁.parentEdges tx entity.1).map .ok) src tgt) ↔ g.Brings tx entity src tgt := by
        intro src tgt
        rw [ends_entityEdges_iff, ends_parentEdges_iff, hparent, false_or, ← hbrings, Brings]
      have hfinal := (hopen.trans hentity).trans hparents
      split
      · next g₂ e hrest =>
          rw [hrest] at hfinal hkept'
          refine ⟨hfinal.imp (fun src tgt => (hgiven src tgt).mp) ?_, ?_, ?_, ?_⟩
          · rintro ⟨added, hadded⟩
            cases hadded
          · intro k x h
            rw [InHistory, hkept']
            exact (hhistory₁ k x).mpr ((hhistory k x).mpr h)
          · intro k x h
            rw [InHistory, hkept'] at h
            exact .inl ((hhistory k x).mp ((hhistory₁ k x).mp h))
          · rintro ⟨added, hadded⟩
            cases hadded
      · next g₂ parents hrest =>
          rw [hrest] at hfinal hkept'
          have hedges : AddsEdges g g₂ (g.Brings tx entity)
              (∃ added, (Except.ok (edges ++ parents) : Except PyRaised _) = .ok added) := by
            refine hfinal.imp (fun src tgt => (hgiven src tgt).mp) fun _ => ⟨?_, ?_⟩
            · exact ⟨⟨trivial, edges, rfl⟩, parents, rfl⟩
            · exact fun src tgt => (hgiven src tgt).mpr
          have hin : ∀ k x, x ∈ IdSets.get (g₂.entityHistory.set (historyKey entity)
              (IdSets.get opened.entityHistory (historyKey entity) ++ [tx.txId])) k ↔
              g.InHistory k x ∨ (x = tx.txId ∧ historyKey entity = k) := by
            intro k x
            rw [IdSets.get_set]
            split_ifs with hk
            · subst hk
              rw [List.mem_append, List.mem_singleton, ← hhistory, InHistory]
              simp
            · rw [show x ∈ IdSets.get g₂.entityHistory k ↔ g.InHistory k x by
                rw [← hhistory, ← hhistory₁, InHistory, hkept']]
              simp [Ne.symm hk]
          have hsame := hedges.same
          refine ⟨⟨⟨hsame.nodes, hsame.completed, hsame.failed, hsame.relationships⟩, hedges.old,
            hedges.new, hedges.all⟩, ?_, ?_, ?_⟩
          · intro k x h
            exact (hin k x).mpr (.inl h)
          · intro k x h
            rcases (hin k x).mp h with h | ⟨hx, hk⟩
            · exact .inl h
            · exact .inr ⟨hx, entity, rfl, hk⟩
          · rintro - other rfl
            exact (hin _ _).mpr (.inr ⟨rfl, rfl⟩)

/-- **The loop over the entities of an added transaction.** -/
theorem addEntities_spec (g : CDCCausalityGraphEngine) (tx : CDCTransaction)
    (entities : List (String × String)) :
    AddsEdges g (addEntities tx g entities).1
        (fun src tgt => ∃ entity ∈ entities, g.Brings tx entity src tgt)
        (∃ added, (addEntities tx g entities).2 = .ok added) ∧
      AddsHistory g (addEntities tx g entities).1 tx.txId (· ∈ entities)
        (∃ added, (addEntities tx g entities).2 = .ok added) := by
  induction entities generalizing g with
  | nil =>
    refine ⟨⟨.refl g, fun _ _ h => h, fun _ _ h => .inl h, ?_⟩, fun _ _ h => h,
      fun _ _ h => .inl h, ?_⟩
    · rintro - src tgt ⟨entity, hentity, -⟩
      exact absurd hentity List.not_mem_nil
    · intro _ entity hentity
      exact absurd hentity List.not_mem_nil
  | cons entity entities ih =>
    rw [addEntities]
    obtain ⟨hedges, hhistory⟩ := addEntity_spec g tx entity
    split
    · next g₁ e hadd =>
        rw [hadd] at hedges hhistory
        refine ⟨hedges.imp ?_ ?_, hhistory.old, ?_, ?_⟩
        · intro src tgt h
          exact ⟨entity, List.mem_cons_self, h⟩
        · rintro ⟨added, hadded⟩
          cases hadded
        · intro k x h
          rcases hhistory.new k x h with h | ⟨hx, other, rfl, hk⟩
          · exact .inl h
          · exact .inr ⟨hx, other, List.mem_cons_self, hk⟩
        · rintro ⟨added, hadded⟩
          cases hadded
    · next g₁ edges hadd =>
        rw [hadd] at hedges hhistory
        obtain ⟨hedges', hhistory'⟩ := ih g₁
        have hbrings : ∀ other src tgt, g₁.Brings tx other src tgt ↔ g.Brings tx other src tgt := by
          intro other src tgt
          refine (hedges.same.others fun k x hx => ?_).brings
          constructor
          · intro h
            exact (hhistory.new k x h).resolve_right fun hnew => hx hnew.1
          · exact hhistory.old k x
        have hboth : AddsEdges g (addEntities tx g₁ entities).1
            (fun src tgt => ∃ other ∈ entity :: entities, g.Brings tx other src tgt)
            (∃ added, (addEntities tx g₁ entities).2 = .ok added) := by
          refine (hedges.trans hedges').imp ?_ ?_
          · rintro src tgt (h | ⟨other, hother, h⟩)
            · exact ⟨entity, List.mem_cons_self, h⟩
            · exact ⟨other, List.mem_cons_of_mem _ hother, (hbrings other src tgt).mp h⟩
          · intro hreturns
            refine ⟨⟨⟨edges, rfl⟩, hreturns⟩, ?_⟩
            rintro src tgt ⟨other, hother, h⟩
            rcases List.mem_cons.mp hother with rfl | hother
            · exact .inl h
            · exact .inr ⟨other, hother, (hbrings other src tgt).mpr h⟩
        have hhistories : AddsHistory g (addEntities tx g₁ entities).1 tx.txId
            (· ∈ entity :: entities) (∃ added, (addEntities tx g₁ entities).2 = .ok added) := by
          refine ⟨fun k x h => hhistory'.old k x (hhistory.old k x h), ?_, ?_⟩
          · intro k x h
            rcases hhistory'.new k x h with h | ⟨hx, other, hother, hk⟩
            · rcases hhistory.new k x h with h | ⟨hx, other, rfl, hk⟩
              · exact .inl h
              · exact .inr ⟨hx, other, List.mem_cons_self, hk⟩
            · exact .inr ⟨hx, other, List.mem_cons_of_mem _ hother, hk⟩
          · intro hreturns other hother
            rcases List.mem_cons.mp hother with rfl | hother
            · exact hhistory'.old _ _ (hhistory.all ⟨edges, rfl⟩ other rfl)
            · exact hhistory'.all hreturns other hother
        split
        · next g₂ e hrest =>
            rw [hrest] at hboth hhistories
            refine ⟨hboth.imp (fun _ _ h => h) ?_, hhistories.old, hhistories.new, ?_⟩
            · rintro ⟨added, hadded⟩
              cases hadded
            · rintro ⟨added, hadded⟩
              cases hadded
        · next g₂ more hrest =>
            rw [hrest] at hboth hhistories
            refine ⟨hboth.imp (fun _ _ h => h) fun _ => ⟨⟨more, rfl⟩, fun _ _ h => h⟩,
              hhistories.old, hhistories.new, fun _ => hhistories.all ⟨more, rfl⟩⟩

/-! ## Comparisons that return -/

/-- Edges that are all added could all be made. -/
theorem exists_of_addEdges {edges : List (Except PyRaised CDCDependencyEdge)}
    (h : (g.addEdges edges).2 = .ok added)
    {result : Except PyRaised CDCDependencyEdge} (hmem : result ∈ edges) :
    ∃ edge, result = .ok edge := by
  induction edges generalizing g added with
  | nil => exact absurd hmem List.not_mem_nil
  | cons head edges ih =>
    cases head with
    | error e => cases h
    | ok edge =>
      rcases List.mem_cons.mp hmem with rfl | hmem
      · exact ⟨edge, rfl⟩
      · rw [addEdges] at h
        split at h
        · cases h
        · split at h
          · cases h
          · next hrest => exact ih (congrArg Prod.snd hrest) hmem

/-- When an entity is added, its transaction has been compared with the active ones of the
history. -/
theorem isLater_of_addEntity (h : (g.addEntity tx entity).2 = .ok added)
    (hprev : g.InHistory (historyKey entity) prev) (hne : prev ≠ tx.txId)
    (hactive : prev ∉ g.completedTxs) : ∃ later, g.isLater tx prev = .ok later := by
  rw [addEntity] at h
  split at h
  · cases h
  · next hadd =>
      have hmem : prev ∈ (g.openHistory (historyKey entity)).active tx.txId
          (IdSets.get (g.openHistory (historyKey entity)).entityHistory (historyKey entity)) :=
        mem_active_iff.mpr ⟨inHistory_openHistory.mpr hprev, hne, hactive⟩
      obtain ⟨edge, hedge⟩ := exists_of_addEdges (congrArg Prod.snd hadd)
        (List.mem_map.mpr ⟨prev, hmem, rfl⟩)
      obtain ⟨later, hlater, -⟩ := Traversal.bind_eq_ok_iff.mp hedge
      exact ⟨later, hlater⟩

/-- The same for all entities of a transaction. -/
theorem isLater_of_addEntities {entities : List (String × String)}
    (h : (addEntities tx g entities).2 = .ok added) (hentity : entity ∈ entities)
    (hprev : g.InHistory (historyKey entity) prev) (hne : prev ≠ tx.txId)
    (hactive : prev ∉ g.completedTxs) : ∃ later, g.isLater tx prev = .ok later := by
  induction entities generalizing g added with
  | nil => exact absurd hentity List.not_mem_nil
  | cons head entities ih =>
    rw [addEntities] at h
    split at h
    · cases h
    · next g₁ edges hadd =>
        rcases List.mem_cons.mp hentity with rfl | hentity
        · exact isLater_of_addEntity (congrArg Prod.snd hadd) hprev hne hactive
        · obtain ⟨hedges, hhistory⟩ := addEntity_spec g tx head
          rw [hadd] at hedges hhistory
          split at h
          · cases h
          · next hrest =>
              have hothers : SameOthers tx.txId g g₁ := by
                refine hedges.same.others fun k x hx => ⟨fun h => ?_, hhistory.old k x⟩
                exact (hhistory.new k x h).resolve_right fun hnew => hx hnew.1
              rw [← hothers.isLater hne]
              apply ih (congrArg Prod.snd hrest) hentity (hhistory.old _ _ hprev)
              rw [hothers.completed]
              exact hactive

/-! ## One added transaction -/

/-- The entity is that of some event of the transaction, all of whose events have one. -/
def HasEntity (rt : DigestRuntime) (tx : CDCTransaction) (entity : String × String) : Prop :=
  ∃ entities, extractEntityKeys rt tx = .ok entities ∧ entity ∈ entities

/-- A new node changes nothing for the other transactions, and no edge. -/
theorem addNode_spec (g : CDCCausalityGraphEngine) (tx : CDCTransaction) :
    SameOthers tx.txId g (g.addNode tx) ∧
      (∀ src tgt, (g.addNode tx).Edge src tgt ↔ g.Edge src tgt) ∧
      ∀ histKey x, (g.addNode tx).InHistory histKey x ↔ g.InHistory histKey x := by
  refine ⟨⟨fun x hx => PyDict.get?_set_of_ne _ _ hx, rfl, rfl, fun _ _ _ => Iff.rfl⟩, ?_,
    fun _ _ => Iff.rfl⟩
  intro src tgt
  show src ∈ IdSets.get (g.predecessors.set _ _) tgt ↔ _
  rw [IdSets.get_set]
  split_ifs with h
  · rw [h, Edge]
  · rfl

/-- A new transaction whose events have entities goes through the loop over them. -/
theorem addTransaction_eq (hnew : g.nodes.get? tx.txId = none)
    {entities : List (String × String)} (hkeys : extractEntityKeys rt tx = .ok entities) :
    (g.addTransaction rt tx).1 = (addEntities tx (g.addNode tx) entities).1 ∧
      ∀ added, (g.addTransaction rt tx).2 = .ok added →
        (addEntities tx (g.addNode tx) entities).2 = .ok added := by
  rw [addTransaction, hnew, hkeys]
  simp only [Option.isSome_none, Bool.false_eq_true, if_false]
  split
  · next g₁ e hadd =>
      refine ⟨by rw [hadd], fun added h => ?_⟩
      cases h
  · next g₁ edges hadd =>
      split_ifs with hcycle
      · refine ⟨by rw [hadd], fun added h => ?_⟩
        cases h
      · refine ⟨by rw [hadd], fun added h => ?_⟩
        rw [hadd]
        exact h

/-- **What adding a transaction does.**  The node is there; the edges are the old ones and some of
those its entities bring, the histories gain the transaction under some of its entities; when the
call returns, all of them. -/
theorem addTransaction_spec (rt : DigestRuntime) (hnew : g.nodes.get? tx.txId = none) :
    AddsEdges (g.addNode tx) (g.addTransaction rt tx).1
        (fun src tgt => ∃ entity, HasEntity rt tx entity ∧ g.Brings tx entity src tgt)
        (∃ added, (g.addTransaction rt tx).2 = .ok added) ∧
      AddsHistory (g.addNode tx) (g.addTransaction rt tx).1 tx.txId (HasEntity rt tx)
        (∃ added, (g.addTransaction rt tx).2 = .ok added) := by
  cases hkeys : extractEntityKeys rt tx with
  | error e =>
    have heq : g.addTransaction rt tx = (g.addNode tx, .error e) := by
      rw [addTransaction, hnew, hkeys]
      rfl
    rw [heq]
    refine ⟨⟨.refl _, fun _ _ h => h, fun _ _ h => .inl h, ?_⟩, fun _ _ h => h,
      fun _ _ h => .inl h, ?_⟩
    · rintro ⟨added, hadded⟩
      cases hadded
    · rintro ⟨added, hadded⟩
      cases hadded
  | ok entities =>
    obtain ⟨heq, hreturns⟩ := addTransaction_eq hnew hkeys
    obtain ⟨hedges, hhistory⟩ := addEntities_spec (g.addNode tx) tx entities
    have hentity : ∀ entity, HasEntity rt tx entity ↔ entity ∈ entities := by
      intro entity
      constructor
      · rintro ⟨entities', h, hmem⟩
        cases hkeys.symm.trans h
        exact hmem
      · intro hmem
        exact ⟨entities, hkeys, hmem⟩
    have hbrings : ∀ entity src tgt,
        (g.addNode tx).Brings tx entity src tgt ↔ g.Brings tx entity src tgt :=
      fun _ _ _ => (addNode_spec g tx).1.brings
    rw [heq]
    simp only [hbrings] at hedges
    constructor
    · refine hedges.imp ?_ ?_
      · rintro src tgt ⟨entity, hmem, h⟩
        exact ⟨entity, (hentity entity).mpr hmem, h⟩
      · rintro ⟨added, hadded⟩
        refine ⟨⟨added, hreturns added hadded⟩, ?_⟩
        rintro src tgt ⟨entity, hmem, h⟩
        exact ⟨entity, (hentity entity).mp hmem, h⟩
    · refine ⟨hhistory.old, ?_, ?_⟩
      · intro k x h
        refine (hhistory.new k x h).imp_right ?_
        rintro ⟨hx, entity, hmem, hk⟩
        exact ⟨hx, entity, (hentity entity).mpr hmem, hk⟩
      · rintro ⟨added, hadded⟩ entity hmem
        exact hhistory.all ⟨added, hreturns added hadded⟩ entity ((hentity entity).mp hmem)

/-- When a new transaction is added, it has been compared with the active ones of its histories. -/
theorem isLater_of_addTransaction (hnew : g.nodes.get? tx.txId = none)
    (h : (g.addTransaction rt tx).2 = .ok added) (hentity : HasEntity rt tx entity)
    (hprev : g.InHistory (historyKey entity) prev) (hne : prev ≠ tx.txId)
    (hactive : prev ∉ g.completedTxs) : ∃ later, g.isLater tx prev = .ok later := by
  obtain ⟨entities, hkeys, hmem⟩ := hentity
  have hlater : ∃ later, (g.addNode tx).isLater tx prev = .ok later :=
    isLater_of_addEntities ((addTransaction_eq hnew hkeys).2 added h) hmem hprev hne hactive
  rw [← (addNode_spec g tx).1.isLater hne]
  exact hlater

/-! ## What histories and edges mention -/

/-- The invariant of the graph: nodes are under their own ids, edges join nodes, and what is in a
history is a node with an entity of that key. -/
structure GraphInvariant (rt : DigestRuntime) (g : CDCCausalityGraphEngine) : Prop where
  named : ∀ x node, g.nodes.get? x = some node → node.txId = x
  ends : ∀ src tgt, g.Edge src tgt →
    (g.nodes.get? src).isSome = true ∧ (g.nodes.get? tgt).isSome = true
  members : ∀ histKey x, g.InHistory histKey x → ∃ node, g.nodes.get? x = some node ∧
    ∃ entity, HasEntity rt node entity ∧ historyKey entity = histKey

theorem GraphInvariant.new (cdcSessionId : String) (fkRelationships : List (String × String)) :
    GraphInvariant rt (.new cdcSessionId fkRelationships) where
  named := fun _ _ h => by cases h
  ends := fun _ _ h => absurd h List.not_mem_nil
  members := fun _ _ h => absurd h List.not_mem_nil

theorem Brings.ends (h : g.Brings tx entity src tgt) :
    (src = tx.txId ∨ ∃ histKey, g.InHistory histKey src) ∧
      (tgt = tx.txId ∨ ∃ histKey, g.InHistory histKey tgt) := by
  rcases h with ⟨prev, hprev, -, -, later, -, rfl, rfl⟩ |
    ⟨rfl, -, -, parentTable, -, histKey, -, hsrc⟩
  · cases later with
    | true => exact ⟨.inl rfl, .inr ⟨_, hprev⟩⟩
    | false => exact ⟨.inr ⟨_, hprev⟩, .inl rfl⟩
  · exact ⟨.inr ⟨histKey, hsrc⟩, .inl rfl⟩

/-- **The invariant is kept** when a transaction is added, also when the call raises. -/
theorem GraphInvariant.addTransaction (hg : GraphInvariant rt g) (tx : CDCTransaction) :
    GraphInvariant rt (g.addTransaction rt tx).1 := by
  by_cases hnode : (g.nodes.get? tx.txId).isSome
  · have heq : (g.addTransaction rt tx).1 = g := by
      rw [CDCCausalityGraphEngine.addTransaction, if_pos hnode]
    rw [heq]
    exact hg
  · have hnew : g.nodes.get? tx.txId = none := by simpa using hnode
    obtain ⟨hedges, hhistory⟩ := addTransaction_spec rt hnew
    have hget : ∀ x, (g.addTransaction rt tx).1.nodes.get? x =
        if x = tx.txId then some tx else g.nodes.get? x := by
      intro x
      rw [hedges.same.nodes]
      show (g.nodes.set tx.txId tx).get? x = _
      split_ifs with hx
      · rw [hx, PyDict.get?_set]
      · exact PyDict.get?_set_of_ne _ _ hx
    have hsome : ∀ x, (x = tx.txId ∨ (g.nodes.get? x).isSome = true) →
        ((g.addTransaction rt tx).1.nodes.get? x).isSome = true := by
      intro x hx
      rw [hget]
      split_ifs with h
      · rfl
      · exact hx.resolve_left h
    have hmember : ∀ x, (x = tx.txId ∨ ∃ histKey, g.InHistory histKey x) →
        (x = tx.txId ∨ (g.nodes.get? x).isSome = true) := by
      rintro x (hx | ⟨histKey, hx⟩)
      · exact .inl hx
      · obtain ⟨node, hnode, -⟩ := hg.members histKey x hx
        exact .inr (by rw [hnode]; rfl)
    refine ⟨?_, ?_, ?_⟩
    · intro x node h
      rw [hget] at h
      split_ifs at h with hx
      · cases h
        exact hx.symm
      · exact hg.named x node h
    · intro src tgt h
      rcases hedges.new src tgt h with h | ⟨entity, -, h⟩
      · have hends := hg.ends src tgt (((addNode_spec g tx).2.1 src tgt).mp h)
        exact ⟨hsome src (.inr hends.1), hsome tgt (.inr hends.2)⟩
      · exact ⟨hsome src (hmember src h.ends.1), hsome tgt (hmember tgt h.ends.2)⟩
    · intro histKey x h
      rcases hhistory.new histKey x h with h | ⟨rfl, entity, hentity, hkey⟩
      · obtain ⟨node, hnode, hrest⟩ := hg.members histKey x h
        refine ⟨node, ?_, hrest⟩
        rw [hget, if_neg, hnode]
        rintro rfl
        rw [hnew] at hnode
        cases hnode
      · exact ⟨tx, by rw [hget, if_pos rfl], entity, hentity, hkey⟩

/-- Outcomes change neither nodes nor edges nor histories. -/
theorem GraphInvariant.of_eq (hg : GraphInvariant rt g) (hnodes : g'.nodes = g.nodes)
    (hedges : g'.predecessors = g.predecessors) (hhistory : g'.entityHistory = g.entityHistory) :
    GraphInvariant rt g' where
  named := by
    rw [hnodes]
    exact hg.named
  ends := by
    intro src tgt h
    rw [Edge, hedges] at h
    rw [hnodes]
    exact hg.ends src tgt h
  members := by
    intro histKey x h
    rw [InHistory, hhistory] at h
    rw [hnodes]
    exact hg.members histKey x h

end CDCCausalityGraphEngine

end CDC
