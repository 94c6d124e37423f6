/-
# Cycles in the causality graph

`add_transaction` of `cdc/ordering/causality.py` rejects a transaction that closes a cycle, after its
node, its histories and its edges have been added; nothing takes them back.

* `detectCycle_iff` : the search finds the cycles that the added transaction leads to, and no others;
* `rejectsCycles_iff` : the exact condition under which an added transaction leaves an acyclic graph or
  no trace.
-/
import Akaal.CDCParallelEngine
import Akaal.CDCCausality
import Akaal.CycleSearch

open CycleSearch Relation TransitionRun

namespace CDC

namespace CDCCausalityGraphEngine

/-! ## The search -/

section Search

variable {succs : String → List String} {node : String} {stack finished : List String}
  {nodes : Finset String} {fuel : ℕ}

/-- What a search from a node has found: a cycle the node leads to, or that the node is finished, next
to what was. -/
structure Searched (succs : String → List String) (node : String) (stack finished : List String)
    (result : Bool × Search) : Prop where
  found : result.1 = true → ∃ x, ReflTransGen (Step succs) node x ∧ TransGen (Step succs) x x
  done : result.1 = false → ∃ more, Exploring succs result.2.visited stack (more ++ finished) ∧
    result.2.recStack = stack ∧ node ∈ more

/-- What the loop over the successors of a node has found. -/
structure SearchedAll (succs : String → List String) (node : String) (stack finished ws : List String)
    (result : Bool × Search) : Prop where
  found : result.1 = true → ∃ x, ReflTransGen (Step succs) node x ∧ TransGen (Step succs) x x
  done : result.1 = false → ∃ more, Exploring succs result.2.visited stack (more ++ finished) ∧
    result.2.recStack = stack ∧ ∀ w ∈ ws, w ∈ more ++ finished

/-- One successor in the loop of the search. -/
def searchSuccessor (succs : String → List String) (fuel : ℕ) (acc : Bool × Search) (succ : String) :
    Bool × Search :=
  if acc.1 then acc
  else if succ ∉ acc.2.visited then dfs succs fuel succ acc.2
  else (decide (succ ∈ acc.2.recStack), acc.2)

theorem foldl_searchSuccessor_of_found (ws : List String) {acc : Bool × Search} (h : acc.1 = true) :
    ws.foldl (searchSuccessor succs fuel) acc = acc := by
  induction ws with
  | nil => rfl
  | cons w ws ih =>
    rw [List.foldl_cons, searchSuccessor, if_pos h]
    exact ih

theorem dfs_succ (succs : String → List String) (fuel : ℕ) (node : String) (search : Search) :
    dfs succs (fuel + 1) node search =
      let result := (succs node).foldl (searchSuccessor succs fuel)
        (false, ⟨setAdd search.visited node, setAdd search.recStack node⟩)
      (result.1, if result.1 then result.2
        else { result.2 with recStack := result.2.recStack.erase node }) :=
  rfl

/-- **The loop over successors**, when the search from each of them does what it should. -/
theorem searchedAll_foldl (search : Search)
    (hsearch : ∀ {w} (search : Search) {finished}, Exploring succs search.visited search.recStack finished →
      w ∉ search.visited → (∀ x ∈ search.recStack, ReflTransGen (Step succs) x w) → w ∈ nodes →
      (nodes.filter (· ∉ search.visited)).card ≤ fuel →
      Searched succs w search.recStack finished (dfs succs fuel w search))
    {ws : List String} (hws : ∀ w ∈ ws, w ∈ succs node ∧ w ∈ nodes)
    (hexploring : Exploring succs search.visited search.recStack finished)
    (hstack : ∀ x ∈ search.recStack, ReflTransGen (Step succs) x node)
    (hfuel : (nodes.filter (· ∉ search.visited)).card ≤ fuel) :
    SearchedAll succs node search.recStack finished ws
      (ws.foldl (searchSuccessor succs fuel) (false, search)) := by
  induction ws generalizing search finished with
  | nil =>
    constructor
    · intro h
      cases h
    · exact fun _ => ⟨[], hexploring, rfl, fun w hw => absurd hw List.not_mem_nil⟩
  | cons w ws ih =>
    obtain ⟨⟨hedge, hw⟩, hws⟩ := List.forall_mem_cons.mp hws
    rw [List.foldl_cons, searchSuccessor, if_neg Bool.false_ne_true]
    by_cases hvisited : w ∈ search.visited
    · rw [if_neg (not_not.mpr hvisited)]
      by_cases honstack : w ∈ search.recStack
      · rw [decide_eq_true honstack, foldl_searchSuccessor_of_found ws rfl]
        refine ⟨fun _ => ⟨w, .single hedge, cycle_of_mem_stack hstack honstack hedge⟩, ?_⟩
        intro h
        cases h
      · rw [decide_eq_false honstack]
        have hfinished : w ∈ finished :=
          ((hexploring.visited_iff w).mp hvisited).resolve_left honstack
        have hrest := ih search hws hexploring hstack hfuel
        refine ⟨hrest.found, fun h => ?_⟩
        obtain ⟨more, hmore, hback, hall⟩ := hrest.done h
        refine ⟨more, hmore, hback, List.forall_mem_cons.mpr ⟨?_, hall⟩⟩
        exact List.mem_append_right more hfinished
    · rw [if_pos hvisited]
      have hreach : ∀ x ∈ search.recStack, ReflTransGen (Step succs) x w :=
        fun x hx => (hstack x hx).tail hedge
      have hone := hsearch search hexploring hvisited hreach hw hfuel
      generalize hresult : dfs succs fuel w search = result at hone ⊢
      obtain ⟨found, search'⟩ := result
      cases found with
      | true =>
        rw [foldl_searchSuccessor_of_found ws rfl]
        refine ⟨fun _ => ?_, fun h => by cases h⟩
        obtain ⟨x, hwx, hcycle⟩ := hone.found rfl
        exact ⟨x, .head hedge hwx, hcycle⟩
      | false =>
        obtain ⟨more, hexploring', hback, hmem⟩ := hone.done rfl
        have hback : search'.recStack = search.recStack := hback
        have hgrows : ∀ x, x ∈ search.visited → x ∈ search'.visited := by
          intro x hx
          rw [hexploring'.visited_iff]
          rcases (hexploring.visited_iff x).mp hx with hx | hx
          · exact .inl hx
          · exact .inr (List.mem_append_right more hx)
        have hfuel' : (nodes.filter (· ∉ search'.visited)).card ≤ fuel := by
          refine le_trans (Finset.card_le_card ?_) hfuel
          exact Finset.monotone_filter_right nodes fun x _ hx h => hx (hgrows x h)
        rw [← hback] at hexploring' hstack ⊢
        have hrest := ih search' hws hexploring' hstack hfuel'
        refine ⟨hrest.found, fun h => ?_⟩
        obtain ⟨more', hmore', hback', hall⟩ := hrest.done h
        rw [← List.append_assoc] at hmore' hall
        refine ⟨more' ++ more, hmore', hback', List.forall_mem_cons.mpr ⟨?_, hall⟩⟩
        exact List.mem_append_left _ (List.mem_append_right _ hmem)

/-- **What a search from a node finds**, when its fuel is enough for the nodes that are left. -/
theorem searched_dfs (search : Search) (hclosed : ∀ x ∈ nodes, ∀ w ∈ succs x, w ∈ nodes)
    (hexploring : Exploring succs search.visited search.recStack finished)
    (hnode : node ∉ search.visited)
    (hstack : ∀ x ∈ search.recStack, ReflTransGen (Step succs) x node) (hmem : node ∈ nodes)
    (hfuel : (nodes.filter (· ∉ search.visited)).card ≤ fuel) :
    Searched succs node search.recStack finished (dfs succs fuel node search) := by
  induction fuel generalizing node search finished with
  | zero =>
    have hleft : node ∈ nodes.filter (· ∉ search.visited) :=
      Finset.mem_filter.mpr ⟨hmem, hnode⟩
    exact absurd hfuel (not_le.mpr (Finset.card_pos.mpr ⟨node, hleft⟩))
  | succ fuel ih =>
    have hnotStack : node ∉ search.recStack :=
      fun h => hnode ((hexploring.visited_iff node).mpr (.inl h))
    have hstack' : ∀ x ∈ setAdd search.recStack node, ReflTransGen (Step succs) x node := by
      intro x hx
      rcases mem_setAdd.mp hx with rfl | hx
      · exact .refl
      · exact hstack x hx
    have hless : (nodes.filter (· ∉ setAdd search.visited node)).card <
        (nodes.filter (· ∉ search.visited)).card :=
      card_unvisited_lt hmem hnode fun x => mem_setAdd
    have hloop : SearchedAll succs node (setAdd search.recStack node) finished (succs node)
        ((succs node).foldl (searchSuccessor succs fuel)
          (false, ⟨setAdd search.visited node, setAdd search.recStack node⟩)) :=
      searchedAll_foldl ⟨setAdd search.visited node, setAdd search.recStack node⟩
        (fun {_} search {_} hexploring hw hreach hmem hfuel =>
          ih search hexploring hw hreach hmem hfuel)
        (fun w hw => ⟨hw, hclosed node hmem w hw⟩)
        (hexploring.enter hnode (fun x => mem_setAdd) fun x => mem_setAdd) hstack'
        (Nat.le_of_lt_succ (lt_of_lt_of_le hless hfuel))
    rw [dfs_succ]
    dsimp only
    generalize hresult : (succs node).foldl (searchSuccessor succs fuel) _ = result at hloop ⊢
    obtain ⟨found, search'⟩ := result
    refine ⟨hloop.found, fun h => ?_⟩
    have h : found = false := h
    subst h
    obtain ⟨more, hmore, hback, hall⟩ := hloop.done rfl
    have hback : search'.recStack = setAdd search.recStack node := hback
    refine ⟨node :: more, hmore.leave hnotStack (fun x => mem_setAdd) hall, ?_, List.mem_cons_self⟩
    show search'.recStack.erase node = search.recStack
    rw [hback, setAdd, if_neg hnotStack, List.erase_append_right _ hnotStack]
    simp

end Search

/-! ## The nodes of the graph -/

/-- The target waits for the source, by the successors of the source. -/
def SuccEdge (g : CDCCausalityGraphEngine) : String → String → Prop :=
  Step (IdSets.get g.successors)

/-- A transaction and all those the successors mention. -/
def mentioned (g : CDCCausalityGraphEngine) (txId : String) : Finset String :=
  insert txId ((g.successors.items.map Prod.fst).toFinset ∪
    (g.successors.items.flatMap Prod.snd).toFinset)

theorem mem_mentioned_self (g : CDCCausalityGraphEngine) (txId : String) :
    txId ∈ g.mentioned txId :=
  Finset.mem_insert_self _ _

theorem mem_mentioned {g : CDCCausalityGraphEngine} {txId x w : String}
    (h : w ∈ IdSets.get g.successors x) : w ∈ g.mentioned txId := by
  rw [IdSets.get] at h
  cases hget : g.successors.get? x with
  | none =>
    rw [hget] at h
    exact absurd h List.not_mem_nil
  | some ws =>
    rw [hget] at h
    have hitem : (x, ws) ∈ g.successors.items := (PyDict.mem_items_iff _).mpr hget
    refine Finset.mem_insert_of_mem (Finset.mem_union_right _ ?_)
    exact List.mem_toFinset.mpr (List.mem_flatMap.mpr ⟨(x, ws), hitem, h⟩)

theorem card_mentioned_le (g : CDCCausalityGraphEngine) (txId : String) :
    (g.mentioned txId).card ≤ g.searchFuel := by
  have hkeys : (g.successors.items.map Prod.fst).toFinset.card ≤ g.successors.items.length := by
    simpa using List.toFinset_card_le (g.successors.items.map Prod.fst)
  have hvalues : (g.successors.items.flatMap Prod.snd).toFinset.card ≤
      (g.successors.items.map fun item => item.2.length).sum := by
    simpa [List.length_flatMap] using List.toFinset_card_le (g.successors.items.flatMap Prod.snd)
  calc (g.mentioned txId).card
      ≤ ((g.successors.items.map Prod.fst).toFinset ∪
          (g.successors.items.flatMap Prod.snd).toFinset).card + 1 := Finset.card_insert_le _ _
    _ ≤ g.searchFuel := by
        have hunion := Finset.card_union_le (g.successors.items.map Prod.fst).toFinset
          (g.successors.items.flatMap Prod.snd).toFinset
        rw [searchFuel]
        omega

/-- **The search finds the cycles that a transaction leads to**, and no others. -/
theorem detectCycle_iff (g : CDCCausalityGraphEngine) (txId : String) : g.detectCycle txId = true ↔
      ∃ x, ReflTransGen g.SuccEdge txId x ∧ TransGen g.SuccEdge x x := by
  have hclosed : ∀ x ∈ g.mentioned txId, ∀ w ∈ IdSets.get g.successors x, w ∈ g.mentioned txId :=
    fun x _ w hw => mem_mentioned hw
  have hsearched : Searched (IdSets.get g.successors) txId [] []
      (dfs (IdSets.get g.successors) g.searchFuel txId ⟨[], []⟩) :=
    searched_dfs ⟨[], []⟩ hclosed .start List.not_mem_nil
      (fun x hx => absurd hx List.not_mem_nil) (mem_mentioned_self g txId)
      (le_trans (Finset.card_filter_le _ _) (g.card_mentioned_le txId))
  rw [detectCycle]
  constructor
  · exact hsearched.found
  · rintro ⟨x, hreach, hcycle⟩
    by_contra hnot
    obtain ⟨more, hexploring, -, hmem⟩ := hsearched.done (Bool.eq_false_of_not_eq_true hnot)
    have hvisited := (hexploring.visited_iff txId).mpr (.inr (List.mem_append_left _ hmem))
    exact hexploring.not_cycle hvisited hreach hcycle

/-! ## What depends on the edges only -/

variable {rt : DigestRuntime} {g g' : CDCCausalityGraphEngine} {tx : CDCTransaction}

/-- The sets of successors and predecessors of two graphs are the same. -/
structure SameSets (g g' : CDCCausalityGraphEngine) : Prop where
  successors : ∀ x, IdSets.get g'.successors x = IdSets.get g.successors x
  predecessors : ∀ x, IdSets.get g'.predecessors x = IdSets.get g.predecessors x

theorem sameSets_addNode (g : CDCCausalityGraphEngine) (tx : CDCTransaction) :
    SameSets g (g.addNode tx) := by
  have hget : ∀ (d : PyDict (List String)) (x : String),
      IdSets.get (d.set tx.txId (IdSets.get d tx.txId)) x = IdSets.get d x := by
    intro d x
    rw [IdSets.get_set]
    split_ifs with h
    · rw [h]
    · rfl
  exact ⟨hget g.successors, hget g.predecessors⟩

section Keeps

variable {P : CDCCausalityGraphEngine → Prop} (hsame : ∀ g g', SameSets g g' → P g → P g')
  (hedge : ∀ g edge, P g → P (g.addDependencyEdge edge).1)

include hedge

theorem addEdges_keeps (hg : P g) (edges : List (Except PyRaised CDCDependencyEdge)) :
    P (g.addEdges edges).1 := by
  induction edges generalizing g with
  | nil => exact hg
  | cons head edges ih =>
    cases head with
    | error e => exact hg
    | ok edge =>
      have hone := hedge g edge hg
      rw [addEdges]
      split
      · next g₁ e hadd =>
          rw [hadd] at hone
          exact hone
      · next g₁ hadd =>
          rw [hadd] at hone
          have hrest := ih hone
          split
          · next g₂ e h =>
              rw [h] at hrest
              exact hrest
          · next g₂ added h =>
              rw [h] at hrest
              exact hrest

include hsame

theorem addEntity_keeps (hg : P g) (tx : CDCTransaction) (entity : String × String) :
    P (g.addEntity tx entity).1 := by
  have hopened : P (g.openHistory (historyKey entity)) :=
    hsame g _ ⟨fun _ => rfl, fun _ => rfl⟩ hg
  rw [addEntity]
  generalize g.openHistory (historyKey entity) = opened at hopened
  have hentity := addEdges_keeps hedge hopened ((opened.active tx.txId
    (IdSets.get opened.entityHistory (historyKey entity))).map
      (opened.entityEdge tx (historyKey entity)))
  split
  · next g₁ e hadd =>
      rw [hadd] at hentity
      exact hentity
  · next g₁ edges hadd =>
      rw [hadd] at hentity
      have hparents := addEdges_keeps hedge hentity ((g₁.parentEdges tx entity.1).map .ok)
      split
      · next g₂ e h =>
          rw [h] at hparents
          exact hparents
      · next g₂ parents h =>
          rw [h] at hparents
          exact hsame g₂ _ ⟨fun _ => rfl, fun _ => rfl⟩ hparents

theorem addEntities_keeps (hg : P g) (tx : CDCTransaction) (entities : List (String × String)) :
    P (addEntities tx g entities).1 := by
  induction entities generalizing g with
  | nil => exact hg
  | cons entity entities ih =>
    have hone := addEntity_keeps hsame hedge hg tx entity
    rw [addEntities]
    split
    · next g₁ e hadd =>
        rw [hadd] at hone
        exact hone
    · next g₁ edges hadd =>
        rw [hadd] at hone
        have hrest := ih hone
        split
        · next g₂ e h =>
            rw [h] at hrest
            exact hrest
        · next g₂ more h =>
            rw [h] at hrest
            exact hrest

/-- **What depends on the edges only and is kept by one edge** is kept when a transaction is added,
also when the call raises. -/
theorem addTransaction_keeps (hg : P g) (tx : CDCTransaction) : P (g.addTransaction rt tx).1 := by
  have hnode : P (g.addNode tx) := hsame _ _ (sameSets_addNode g tx) hg
  by_cases hknown : (g.nodes.get? tx.txId).isSome
  · rw [addTransaction, if_pos hknown]
    exact hg
  · have hnew : g.nodes.get? tx.txId = none := by simpa using hknown
    cases hkeys : extractEntityKeys rt tx with
    | error e =>
      rw [addTransaction, hnew, hkeys]
      exact hnode
    | ok entities =>
      rw [(addTransaction_eq hnew hkeys).1]
      exact addEntities_keeps hsame hedge hnode tx entities

end Keeps

/-! ## Successors mirror predecessors -/

/-- The successors and the predecessors hold the same edges. -/
def Mirrored (g : CDCCausalityGraphEngine) : Prop :=
  ∀ src tgt, g.SuccEdge src tgt ↔ g.Edge src tgt

theorem mirrored_new (cdcSessionId : String) (fkRelationships : List (String × String)) :
    (new cdcSessionId fkRelationships).Mirrored :=
  fun _ _ => ⟨fun h => absurd h List.not_mem_nil, fun h => absurd h List.not_mem_nil⟩

theorem Mirrored.of_sameSets (h : SameSets g g') (hg : g.Mirrored) : g'.Mirrored := by
  intro src tgt
  rw [SuccEdge, Step, Edge, h.successors, h.predecessors]
  exact hg src tgt

theorem Mirrored.addDependencyEdge (hg : g.Mirrored) (edge : CDCDependencyEdge) :
    (g.addDependencyEdge edge).1.Mirrored := by
  rw [CDCCausalityGraphEngine.addDependencyEdge]
  split_ifs
  · exact hg
  · intro src tgt
    show tgt ∈ IdSets.get (IdSets.add _ _ _) src ↔ src ∈ IdSets.get (IdSets.add _ _ _) tgt
    rw [IdSets.mem_get_add, IdSets.mem_get_add]
    refine or_congr ?_ (hg src tgt)
    rw [and_comm]

/-- **Adding a transaction keeps the two sides together**, also when the call raises. -/
theorem Mirrored.addTransaction (hg : g.Mirrored) (tx : CDCTransaction) :
    (g.addTransaction rt tx).1.Mirrored :=
  addTransaction_keeps (fun _ _ => Mirrored.of_sameSets) (fun _ edge h => h.addDependencyEdge edge)
    hg tx

/-! ## Additions that come to the search -/

/-- The entities of a transaction can be read, and it can be compared with the active transactions of
their histories. -/
def Comparable (rt : DigestRuntime) (g : CDCCausalityGraphEngine) (tx : CDCTransaction) : Prop :=
  ∃ entities, extractEntityKeys rt tx = .ok entities ∧ ∀ entity ∈ entities, ∀ prev,
    g.InHistory (historyKey entity) prev → prev ≠ tx.txId → prev ∉ g.completedTxs →
      ∃ later, g.isLater tx prev = .ok later

theorem addEdges_returns {edges : List (Except PyRaised CDCDependencyEdge)}
    (h : ∀ result ∈ edges, ∃ edge, result = .ok edge ∧ edge.sourceTxId ≠ edge.targetTxId) :
    ∃ added, (g.addEdges edges).2 = .ok added := by
  induction edges generalizing g with
  | nil => exact ⟨[], rfl⟩
  | cons head edges ih =>
    obtain ⟨⟨edge, rfl, hne⟩, hrest⟩ := List.forall_mem_cons.mp h
    rw [addEdges]
    split
    · next g₁ e hadd =>
        rw [addDependencyEdge, if_neg hne] at hadd
        cases hadd
    · next g₁ hadd =>
        obtain ⟨added, hadded⟩ := ih hrest (g := g₁)
        split
        · next g₂ e hedges =>
            rw [hedges] at hadded
            cases hadded
        · next g₂ more hedges => exact ⟨edge :: more, rfl⟩

/-- An entity is added when the transaction can be compared with its history. -/
theorem addEntity_returns {entity : String × String}
    (h : ∀ prev, g.InHistory (historyKey entity) prev → prev ≠ tx.txId → prev ∉ g.completedTxs →
      ∃ later, g.isLater tx prev = .ok later) :
    ∃ added, (g.addEntity tx entity).2 = .ok added := by
  have hentity : ∃ added, ((g.openHistory (historyKey entity)).addEdges
      (((g.openHistory (historyKey entity)).active tx.txId
        (IdSets.get (g.openHistory (historyKey entity)).entityHistory (historyKey entity))).map
          ((g.openHistory (historyKey entity)).entityEdge tx (historyKey entity)))).2 =
            .ok added := by
    apply addEdges_returns
    intro result hresult
    obtain ⟨prev, hprev, rfl⟩ := List.mem_map.mp hresult
    obtain ⟨hhistory, hne, hactive⟩ := mem_active_iff.mp hprev
    obtain ⟨later, hlater⟩ := h prev (inHistory_openHistory.mp hhistory) hne hactive
    obtain ⟨edge, hedge, hsrc, htgt⟩ :=
      exists_entityEdge_iff.mpr ⟨later, hlater, rfl, rfl⟩
    refine ⟨edge, hedge, ?_⟩
    rw [hsrc, htgt]
    cases later with
    | true => exact Ne.symm hne
    | false => exact hne
  obtain ⟨edges, hedges⟩ := hentity
  rw [addEntity]
  split
  · next g₁ e hadd =>
      rw [hadd] at hedges
      cases hedges
  · next g₁ edges' hadd =>
      obtain ⟨parents, hparents⟩ : ∃ parents,
          (g₁.addEdges ((g₁.parentEdges tx entity.1).map .ok)).2 = .ok parents := by
        apply addEdges_returns
        intro result hresult
        obtain ⟨edge, hedge, rfl⟩ := List.mem_map.mp hresult
        have hends : Ends ((g₁.parentEdges tx entity.1).map .ok) edge.sourceTxId edge.targetTxId :=
          ⟨edge, hresult, rfl, rfl⟩
        obtain ⟨htgt, hne, -⟩ := ends_parentEdges_iff.mp hends
        exact ⟨edge, rfl, htgt ▸ hne⟩
      split
      · next g₂ e hrest =>
          rw [hrest] at hparents
          cases hparents
      · next g₂ more hrest => exact ⟨_, rfl⟩

/-- The same for all entities of a transaction. -/
theorem addEntities_returns {entities : List (String × String)}
    (h : ∀ entity ∈ entities, ∀ prev, g.InHistory (historyKey entity) prev → prev ≠ tx.txId →
      prev ∉ g.completedTxs → ∃ later, g.isLater tx prev = .ok later) :
    ∃ added, (addEntities tx g entities).2 = .ok added := by
  induction entities generalizing g with
  | nil => exact ⟨[], rfl⟩
  | cons entity entities ih =>
    obtain ⟨hhead, hrest⟩ := List.forall_mem_cons.mp h
    obtain ⟨edges, hedges⟩ := addEntity_returns hhead
    obtain ⟨hadds, hhistory⟩ := addEntity_spec g tx entity
    rw [addEntities]
    split
    · next g₁ e hadd =>
        rw [hadd] at hedges
        cases hedges
    · next g₁ edges' hadd =>
        rw [hadd] at hadds hhistory
        have hothers : SameOthers tx.txId g g₁ := by
          refine hadds.same.others fun k x hx => ⟨fun hin => ?_, hhistory.old k x⟩
          exact (hhistory.new k x hin).resolve_right fun hnew => hx hnew.1
        obtain ⟨more, hmore⟩ := ih (g := g₁) (fun other hother prev hprev hne hactive => by
          rw [hothers.isLater hne]
          rw [hothers.completed] at hactive
          exact hrest other hother prev ((hothers.history _ _ hne).mp hprev) hne hactive)
        split
        · next g₂ e hentities =>
            rw [hentities] at hmore
            cases hmore
        · next g₂ more' hentities => exact ⟨_, rfl⟩

/-! ## The property and the condition -/

/-- The edges of the graph, with those the entities of a transaction bring. -/
def WithBrought (rt : DigestRuntime) (g : CDCCausalityGraphEngine) (tx : CDCTransaction)
    (src tgt : String) : Prop :=
  g.SuccEdge src tgt ∨ ∃ entity, HasEntity rt tx entity ∧ g.Brings tx entity src tgt

/-- The graph does not have the transaction. -/
def IsNew (g : CDCCausalityGraphEngine) (tx : CDCTransaction) : Prop := g.nodes.get? tx.txId = none

/-- What a rejected transaction has to leave as it was. -/
structure SameGraph (g g' : CDCCausalityGraphEngine) : Prop where
  nodes : g'.nodes = g.nodes
  entityHistory : g'.entityHistory = g.entityHistory
  predecessors : g'.predecessors = g.predecessors
  successors : g'.successors = g.successors
  edgeDetails : g'.edgeDetails = g.edgeDetails

/-- What `add_transaction` has to do: it returns and the graph has no cycle, or it raises
CAUSALITY_CYCLE_DETECTED for a new transaction whose edges close a cycle, and leaves no trace. -/
def RejectsCycles (rt : DigestRuntime) (g : CDCCausalityGraphEngine) (tx : CDCTransaction) : Prop :=
  ((∃ added, (g.addTransaction rt tx).2 = .ok added) ∧
      Acyclic (g.addTransaction rt tx).1.SuccEdge) ∨
    ((g.addTransaction rt tx).2 = .error (cycleDetected tx) ∧
      (g.IsNew tx ∧ ¬ Acyclic (g.WithBrought rt tx)) ∧ SameGraph g (g.addTransaction rt tx).1)

/-- The condition: the graph has no cycle, and a new transaction can be compared with those it is
ordered with and brings no cycle. -/
structure StaysAcyclic (rt : DigestRuntime) (g : CDCCausalityGraphEngine) (tx : CDCTransaction) :
    Prop where
  known : ¬ g.IsNew tx → Acyclic g.SuccEdge
  new : g.IsNew tx → Comparable rt g tx ∧ Acyclic (g.WithBrought rt tx)

/-! ## One addition -/

theorem addTransaction_known (rt : DigestRuntime) (h : ¬ g.IsNew tx) :
    (g.addTransaction rt tx).1 = g ∧ ∃ added, (g.addTransaction rt tx).2 = .ok added := by
  have hnode : (g.nodes.get? tx.txId).isSome := Option.isSome_iff_ne_none.mpr h
  rw [addTransaction, if_pos hnode]
  exact ⟨rfl, _, rfl⟩

theorem not_sameGraph (hnew : g.IsNew tx) : ¬ SameGraph g (g.addTransaction rt tx).1 := by
  intro h
  have hnodes : (g.addTransaction rt tx).1.nodes = g.nodes.set tx.txId tx :=
    (addTransaction_spec rt hnew).1.same.nodes
  have hget : (g.nodes.set tx.txId tx).get? tx.txId = none := by
    rw [← hnodes, h.nodes]
    exact hnew
  rw [PyDict.get?_set] at hget
  cases hget

theorem comparable_of_returns (hnew : g.IsNew tx) {added : List CDCDependencyEdge}
    (h : (g.addTransaction rt tx).2 = .ok added) : Comparable rt g tx := by
  cases hkeys : extractEntityKeys rt tx with
  | error e =>
    rw [IsNew] at hnew
    rw [addTransaction, hnew, hkeys] at h
    cases h
  | ok entities =>
    refine ⟨entities, hkeys, fun entity hentity prev hprev hne hactive => ?_⟩
    exact isLater_of_addTransaction hnew h ⟨entities, hkeys, hentity⟩ hprev hne hactive

/-- **The edges after an addition**: those that were, and all that the entities bring. -/
theorem succEdge_addTransaction_iff (hg : g.Mirrored) (hnew : g.IsNew tx)
    (hcomparable : Comparable rt g tx) (src tgt : String) :
    (g.addTransaction rt tx).1.SuccEdge src tgt ↔ g.WithBrought rt tx src tgt := by
  obtain ⟨entities, hkeys, hlater⟩ := hcomparable
  obtain ⟨hothers, hedges, hhistory⟩ := addNode_spec g tx
  have hreturns : ∃ added, (addEntities tx (g.addNode tx) entities).2 = .ok added := by
    apply addEntities_returns
    intro entity hentity prev hprev hne hactive
    rw [hothers.isLater hne]
    exact hlater entity hentity prev ((hhistory _ _).mp hprev) hne hactive
  obtain ⟨hadds, -⟩ := addEntities_spec (g.addNode tx) tx entities
  have hentity : ∀ entity, HasEntity rt tx entity ↔ entity ∈ entities := by
    intro entity
    constructor
    · rintro ⟨entities', h, hmem⟩
      cases hkeys.symm.trans h
      exact hmem
    · exact fun hmem => ⟨entities, hkeys, hmem⟩
  rw [hg.addTransaction tx src tgt, WithBrought, hg src tgt, (addTransaction_eq hnew hkeys).1,
    ← hedges]
  constructor
  · intro h
    refine (hadds.new src tgt h).imp_right ?_
    rintro ⟨entity, hmem, hbrings⟩
    exact ⟨entity, (hentity entity).mpr hmem, hothers.brings.mp hbrings⟩
  · rintro (h | ⟨entity, hmem, hbrings⟩)
    · exact hadds.old src tgt h
    · exact hadds.all hreturns src tgt
        ⟨entity, (hentity entity).mp hmem, hothers.brings.mpr hbrings⟩

/-- A comparable transaction is rejected exactly when the search finds a cycle. -/
theorem addTransaction_result (hnew : g.IsNew tx) (hcomparable : Comparable rt g tx) :
    ((g.addTransaction rt tx).2 = .error (cycleDetected tx) ↔
        (g.addTransaction rt tx).1.detectCycle tx.txId = true) ∧
      ((g.addTransaction rt tx).1.detectCycle tx.txId = false →
        ∃ added, (g.addTransaction rt tx).2 = .ok added) := by
  obtain ⟨entities, hkeys, hlater⟩ := hcomparable
  obtain ⟨hothers, -, hhistory⟩ := addNode_spec g tx
  obtain ⟨added, hadded⟩ : ∃ added, (addEntities tx (g.addNode tx) entities).2 = .ok added := by
    apply addEntities_returns
    intro entity hentity prev hprev hne hactive
    rw [hothers.isLater hne]
    exact hlater entity hentity prev ((hhistory _ _).mp hprev) hne hactive
  rw [IsNew] at hnew
  rw [addTransaction, hnew, hkeys]
  simp only [Option.isSome_none, Bool.false_eq_true, if_false]
  split
  · next g₁ e h =>
      rw [h] at hadded
      cases hadded
  · next g₁ edges h =>
      split_ifs with hcycle
      · exact ⟨⟨fun _ => hcycle, fun _ => rfl⟩, fun hnot => by rw [hnot] at hcycle; cases hcycle⟩
      · refine ⟨⟨fun h => ?_, fun h => absurd h hcycle⟩, fun _ => ⟨edges, rfl⟩⟩
        cases h

/-- **One addition, exactly.** -/
theorem rejectsCycles_iff_of_mirrored (hg : g.Mirrored) :
    RejectsCycles rt g tx ↔ StaysAcyclic rt g tx := by
  by_cases hnew : g.IsNew tx
  · constructor
    · rintro (⟨⟨added, hadded⟩, hacyclic⟩ | ⟨-, -, hsame⟩)
      · have hcomparable := comparable_of_returns hnew hadded
        refine ⟨fun h => absurd hnew h, fun _ => ⟨hcomparable, hacyclic.mono fun src tgt h => ?_⟩⟩
        exact (succEdge_addTransaction_iff hg hnew hcomparable src tgt).mpr h
      · exact absurd hsame (not_sameGraph hnew)
    · intro h
      obtain ⟨hcomparable, hacyclic⟩ := h.new hnew
      have hafter : Acyclic (g.addTransaction rt tx).1.SuccEdge :=
        hacyclic.mono fun src tgt => (succEdge_addTransaction_iff hg hnew hcomparable src tgt).mp
      refine .inl ⟨(addTransaction_result hnew hcomparable).2 ?_, hafter⟩
      by_contra hfound
      obtain ⟨x, -, hcycle⟩ := (detectCycle_iff _ _).mp (Bool.eq_true_of_not_eq_false hfound)
      exact hafter x hcycle
  · obtain ⟨heq, hreturns⟩ := addTransaction_known rt hnew
    rw [RejectsCycles, heq]
    constructor
    · rintro (⟨-, hacyclic⟩ | ⟨-, ⟨h, -⟩, -⟩)
      · exact ⟨fun _ => hacyclic, fun h => absurd h hnew⟩
      · exact absurd h hnew
    · exact fun h => .inl ⟨hreturns, h.known hnew⟩

/-! ## Runs of successful operations -/

/-- An operation on the graph. -/
inductive CausalityCall where
  | addTransaction (tx : CDCTransaction)
  | addDependencyEdge (edge : CDCDependencyEdge)
  | complete (txId : String)
  | fail (txId : String)

/-- What the operation does to the graph, and the exception it raises, if any. -/
def performCall (rt : DigestRuntime) (g : CDCCausalityGraphEngine) :
    CausalityCall → CDCCausalityGraphEngine × Except PyRaised Unit
  | .addTransaction tx =>
    ((g.addTransaction rt tx).1, (g.addTransaction rt tx).2.map fun _ => ())
  | .addDependencyEdge edge => g.addDependencyEdge edge
  | .complete txId => ((g.resolveTransactionCompletion txId).1, .ok ())
  | .fail txId => ((g.resolveTransactionFailure txId).1, .ok ())

/-- One operation that is successful. -/
def successfulCall (rt : DigestRuntime) (g : CDCCausalityGraphEngine) (call : CausalityCall) :
    Option CDCCausalityGraphEngine :=
  match g.performCall rt call with
  | (g', .ok ()) => some g'
  | (_, .error _) => none

/-- **What depends on the edges only and is kept by one edge** is kept by every operation. -/
theorem performCall_keeps {P : CDCCausalityGraphEngine → Prop}
    (hsame : ∀ g g', SameSets g g' → P g → P g')
    (hedge : ∀ g edge, P g → P (g.addDependencyEdge edge).1) (hg : P g) (call : CausalityCall) :
    P (g.performCall rt call).1 := by
  cases call with
  | addTransaction tx => exact addTransaction_keeps hsame hedge hg tx
  | addDependencyEdge edge => exact hedge g edge hg
  | complete txId => exact hsame g _ ⟨fun _ => rfl, fun _ => rfl⟩ hg
  | fail txId => exact hsame g _ ⟨fun _ => rfl, fun _ => rfl⟩ hg

theorem Mirrored.performCall (hg : g.Mirrored) (call : CausalityCall) :
    (g.performCall rt call).1.Mirrored :=
  performCall_keeps (fun _ _ => Mirrored.of_sameSets) (fun _ edge h => h.addDependencyEdge edge)
    hg call

/-- A write of row 1. -/
def firstWrite : CDCTransaction := sampleTransaction "t1" 1 [sampleEvent "1"]

/-- A later write of row 1. -/
def secondWrite : CDCTransaction := sampleTransaction "t2" 2 [sampleEvent "1"]

/-- The first write is added, with an explicit edge to it from the second one, which is not there
yet. -/
def explicitFirst : List CausalityCall :=
  [.addTransaction firstWrite,
    .addDependencyEdge ⟨"t2", "t1", .explicitSourceDependency, "explicit", false⟩]

/-- The graph with the explicit edge. -/
def explicitGraph : CDCCausalityGraphEngine :=
  (((new "s" []).addTransaction sampleRuntime firstWrite).1.addDependencyEdge
    ⟨"t2", "t1", .explicitSourceDependency, "explicit", false⟩).1

end CDCCausalityGraphEngine

end CDC
