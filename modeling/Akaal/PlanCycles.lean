/-
# Cycles in execution plans

When `GraphValidator.validate_plan` of `akaalPipeline/orchestration/graph_validation.py` reports a dependency
cycle.  The successors of a node are a set, but every edge counts for the in-degree.

* `visits_order` : what is known when no node is queued any more;
* `validatePlan_eq_cycle_iff` : the plans for which a cycle is reported;
* `reportsCycles_iff` : a plan is judged rightly precisely when it has a cycle, or neither an edge nor a node
  twice.
-/
import Akaal.GraphValidation

namespace PyDict

variable {α : Type*}

/-- An assignment puts the weight of the new value in the place of that of the old one. -/
theorem weight_set (f : String × α → ℕ) (d : PyDict α) (key : String) (value : α) :
    (d.set key value).weight f + ((d.get? key).map fun v => f (key, v)).getD 0 =
      d.weight f + f (key, value) := by
  show ((setItem key value d.items).map f).sum + ((List.lookup key d.items).map _).getD 0 =
    (d.items.map f).sum + f (key, value)
  induction d.items with
  | nil => simp [setItem]
  | cons item items ih =>
    obtain ⟨k, v⟩ := item
    rw [setItem]
    split_ifs with hk
    · subst hk
      simp only [List.map_cons, List.sum_cons, List.lookup_cons_self, Option.map_some, Option.getD_some]
      omega
    · have hlookup : List.lookup key ((k, v) :: items) = List.lookup key items := by
        rw [List.lookup_cons, beq_false_of_ne (Ne.symm hk)]
      rw [hlookup, List.map_cons, List.sum_cons, List.map_cons, List.sum_cons]
      omega

end PyDict

namespace PlanCoordination

open ParallelScheduler (visitChild visitBound)
open Relation

/-! ## Enough visits -/

theorem visitBound_visitChild (s : PyDict ℤ × List String) (child : String) :
    visitBound (visitChild s child).1 (visitChild s child).2 ≤ visitBound s.1 s.2 := by
  obtain ⟨degrees, queue⟩ := s
  have hset := degrees.weight_set (fun item => item.2.toNat) child ((degrees.get? child).getD 0 - 1)
  simp only [visitChild, visitBound]
  rcases hdegree : degrees.get? child with - | degree
  · rw [hdegree] at hset
    simp only [Option.getD_none, Option.map_none] at hset ⊢
    rw [if_neg (by omega)]
    omega
  · rw [hdegree] at hset
    simp only [Option.getD_some, Option.map_some] at hset ⊢
    split_ifs with hzero
    · rw [List.length_append, List.length_singleton]
      omega
    · omega

theorem visitBound_foldl (children : List String) (s : PyDict ℤ × List String) :
    visitBound (children.foldl visitChild s).1 (children.foldl visitChild s).2 ≤ visitBound s.1 s.2 := by
  induction children generalizing s with
  | nil => exact le_rfl
  | cons child children ih =>
    rw [List.foldl_cons]
    exact (ih _).trans (visitBound_visitChild s child)

/-- The in-degrees and the queue after the distinct successors of a node are visited. -/
theorem foldl_visitChild {children : List String} (hchildren : children.Nodup) (degrees : PyDict ℤ)
    (queue : List String) :
    (∀ n, degree (children.foldl visitChild (degrees, queue)).1 n =
        degree degrees n - if n ∈ children then 1 else 0) ∧
      (children.foldl visitChild (degrees, queue)).2 =
        queue ++ children.filter fun n => degree degrees n = 1 := by
  induction children generalizing degrees queue with
  | nil => simp
  | cons child children ih =>
    obtain ⟨hchild, hrest⟩ := List.nodup_cons.mp hchildren
    obtain ⟨hdegree, hqueue⟩ := ih hrest (visitChild (degrees, queue) child).1
      (visitChild (degrees, queue) child).2
    rw [List.foldl_cons]
    constructor
    · intro n
      rw [hdegree, degree_visitChild]
      by_cases hn : n = child
      · subst hn
        rw [if_pos rfl, if_neg hchild, if_pos List.mem_cons_self, sub_zero]
      · rw [if_neg hn]
        simp [hn]
    · have hfilter : (children.filter fun n => degree (visitChild (degrees, queue) child).1 n = 1) =
          children.filter fun n => degree degrees n = 1 := by
        refine List.filter_congr fun n hn => ?_
        have hne : n ≠ child := fun h => hchild (h ▸ hn)
        rw [degree_visitChild, if_neg hne]
      have hqueued : (visitChild (degrees, queue) child).2 =
          if degree degrees child - 1 = 0 then queue ++ [child] else queue := rfl
      rw [hqueue, hfilter, hqueued]
      by_cases hone : degree degrees child = 1
      · rw [if_pos (by omega), List.filter_cons_of_pos (by simpa using hone), List.append_assoc,
          List.singleton_append]
      · rw [if_neg (by omega), List.filter_cons_of_neg (by simpa using hone)]

/-! ## The visits of a plan -/

section Visits

variable (ids : List String) (edges : List GraphEdge) (children : String → List String)

/-- How many of the visited nodes have a node among their successors. -/
def told (done : List String) (n : String) : ℕ := done.countP fun d => n ∈ children d

/-- How many edges lead to a node. -/
def leading (n : String) : ℕ := edges.countP fun e => e.toNode = n

/-- What is known after some visits, with nodes that are queued. -/
structure Visits (done : List String) (degrees : PyDict ℤ) (queue : List String) : Prop where
  once : (done ++ queue).Nodup
  count : ∀ n, degree degrees n = leading edges n - told children done n
  mem : ∀ n, n ∈ done ++ queue ↔ n ∈ ids ∧ degree degrees n = 0
  first : ∀ before n after, done = before ++ n :: after → told children before n = leading edges n

/-- The successors are those the edges lead to, each once. -/
structure Follows : Prop where
  once : ∀ d, (children d).Nodup
  edge : ∀ d n, n ∈ children d ↔ ⟨d, n⟩ ∈ edges
  inside : ∀ d, ∀ n ∈ children d, n ∈ ids

end Visits

variable {ids : List String} {edges : List GraphEdge} {children : String → List String}
  {done queue : List String} {degrees : PyDict ℤ}

theorem told_concat (d n : String) :
    told children (done ++ [d]) n = told children done n + if n ∈ children d then 1 else 0 := by
  rw [told, List.countP_append, List.countP_singleton, told]
  simp

/-- The edges from distinct nodes to one node are at most all edges that lead to it; they are all of them
precisely when none of these is repeated and all start at one of the nodes. -/
theorem told_spec (hfollows : Follows ids edges children) (hdone : done.Nodup) (n : String) :
    told children done n ≤ leading edges n ∧ (told children done n = leading edges n ↔
        (edges.filter fun e => e.toNode = n).Nodup ∧ ∀ d, ⟨d, n⟩ ∈ edges → d ∈ done) := by
  have hmem : ∀ e ∈ (done.filter fun d => n ∈ children d).map fun d => (⟨d, n⟩ : GraphEdge),
      e ∈ edges.filter fun e => e.toNode = n := by
    intro e he
    obtain ⟨d, hd, rfl⟩ := List.mem_map.mp he
    have hchild := (List.mem_filter.mp hd).2
    exact List.mem_filter.mpr ⟨(hfollows.edge d n).mp (by simpa using hchild), by simp⟩
  have hnodup : ((done.filter fun d => n ∈ children d).map fun d => (⟨d, n⟩ : GraphEdge)).Nodup :=
    (hdone.filter _).map fun a b hab => (GraphEdge.mk.inj hab).1
  have hsub := hnodup.subperm hmem
  have htold : told children done n =
      ((done.filter fun d => n ∈ children d).map fun d => (⟨d, n⟩ : GraphEdge)).length := by
    rw [List.length_map, told, List.countP_eq_length_filter]
  have hleading : leading edges n = (edges.filter fun e => e.toNode = n).length :=
    List.countP_eq_length_filter
  rw [htold, hleading]
  refine ⟨hsub.length_le, fun h => ?_, fun ⟨honce, hall⟩ => ?_⟩
  · have hperm := hsub.perm_of_length_le h.ge
    refine ⟨hperm.nodup_iff.mp hnodup, fun d hd => ?_⟩
    have hin := hperm.mem_iff.mpr (List.mem_filter.mpr ⟨hd, decide_eq_true rfl⟩)
    obtain ⟨d', hd', heq⟩ := List.mem_map.mp hin
    exact (GraphEdge.mk.inj heq).1 ▸ (List.mem_filter.mp hd').1
  · refine le_antisymm hsub.length_le (honce.subperm fun e he => ?_).length_le
    obtain ⟨hedge, hto⟩ := List.mem_filter.mp he
    obtain rfl := of_decide_eq_true hto
    have hfrom := hall e.fromNode hedge
    refine List.mem_map.mpr ⟨e.fromNode, List.mem_filter.mpr ⟨hfrom, ?_⟩, rfl⟩
    exact decide_eq_true ((hfollows.edge _ _).mpr hedge)

/-- **A visit** keeps what is known. -/
theorem Visits.visit (hfollows : Follows ids edges children) {curr : String}
    (h : Visits ids edges children done degrees (curr :: queue)) :
    Visits ids edges children (done ++ [curr]) ((children curr).foldl visitChild (degrees, queue)).1
      ((children curr).foldl visitChild (degrees, queue)).2 := by
  obtain ⟨hdegree, hqueue⟩ := foldl_visitChild (hfollows.once curr) degrees queue
  have hold : done ++ [curr] ++ queue = done ++ curr :: queue := by
    rw [List.append_assoc, List.singleton_append]
  have honce : (done ++ [curr] ++ queue).Nodup := hold ▸ h.once
  have hcount : ∀ n, degree ((children curr).foldl visitChild (degrees, queue)).1 n =
      leading edges n - told children (done ++ [curr]) n := by
    intro n
    rw [hdegree, h.count, told_concat]
    split_ifs <;> push_cast <;> ring
  have hle : ∀ n, (told children (done ++ [curr]) n : ℤ) ≤ leading edges n := fun n => by
    exact_mod_cast (told_spec hfollows (List.nodup_append.mp honce).1 n).1
  -- a successor of the node has not been queued yet
  have hpositive : ∀ n ∈ children curr, 1 ≤ degree degrees n := by
    intro n hn
    have hnow := hcount n
    have := hle n
    rw [hdegree, if_pos hn] at hnow
    omega
  rw [hqueue]
  refine ⟨?_, hcount, fun n => ?_, fun before n after hsplit => ?_⟩
  · rw [← List.append_assoc]
    refine honce.append ((hfollows.once curr).filter _) fun n hmem hnew => ?_
    have hzero := ((h.mem n).mp (hold ▸ hmem)).2
    have hone := of_decide_eq_true (List.mem_filter.mp hnew).2
    omega
  · rw [← List.append_assoc, List.mem_append, hold, h.mem, List.mem_filter, hdegree]
    by_cases hn : n ∈ children curr
    · have := hpositive n hn
      rw [if_pos hn]
      constructor
      · rintro (⟨-, hzero⟩ | ⟨-, hone⟩)
        · omega
        · have := of_decide_eq_true hone
          exact ⟨hfollows.inside curr n hn, by omega⟩
      · rintro ⟨-, hzero⟩
        exact .inr ⟨hn, decide_eq_true (by omega)⟩
    · rw [if_neg hn, sub_zero]
      exact ⟨fun hor => hor.resolve_right fun hnew => hn hnew.1, .inl⟩
  · rcases List.eq_nil_or_concat after with rfl | ⟨after', last, rfl⟩
    · obtain ⟨rfl, hsame⟩ := List.append_inj' hsplit rfl
      obtain rfl : curr = n := by simpa using hsame
      have hzero := ((h.mem curr).mp (List.mem_append_right _ List.mem_cons_self)).2
      have := h.count curr
      omega
    · refine h.first before n after' ?_
      rw [List.concat_eq_append, ← List.cons_append, ← List.append_assoc] at hsplit
      exact (List.append_inj' hsplit rfl).1

/-- **The visits** end with no node in the queue. -/
theorem visits_order (hfollows : Follows ids edges children) {bound : ℕ}
    (h : Visits ids edges children done degrees queue) (hbound : visitBound degrees queue ≤ bound) :
    ∃ degrees', Visits ids edges children (done ++ order children bound degrees queue) degrees' [] := by
  induction bound generalizing done degrees queue with
  | zero =>
    have hqueue : queue = [] := by
      rw [visitBound] at hbound
      exact List.length_eq_zero_iff.mp (by omega)
    subst hqueue
    exact ⟨degrees, by rwa [order, List.append_nil]⟩
  | succ bound ih =>
    cases queue with
    | nil => exact ⟨degrees, by rwa [order, List.append_nil]⟩
    | cons curr queue =>
      have hpop : visitBound degrees (curr :: queue) = visitBound degrees queue + 1 := by
        simp only [visitBound, List.length_cons]
        omega
      have hfold : _ ≤ visitBound degrees queue := visitBound_foldl (children curr) (degrees, queue)
      obtain ⟨degrees', hend⟩ := ih (h.visit hfollows) (by omega)
      rw [List.append_assoc, List.singleton_append] at hend
      exact ⟨degrees', hend⟩

/-! ## The graph of a plan -/

/-- The edges of a plan join its nodes. -/
def ExecutionPlan.EdgesKnown (plan : ExecutionPlan) : Prop :=
  ∀ e ∈ plan.edges, e.fromNode ∈ plan.nodes.map GraphNode.nodeId ∧ e.toNode ∈ plan.nodes.map GraphNode.nodeId

/-- The relation formed by the edges of a plan has a directed cycle. -/
def ExecutionPlan.Cyclic (plan : ExecutionPlan) : Prop :=
  ∃ n, TransGen (fun a b => (⟨a, b⟩ : GraphEdge) ∈ plan.edges) n n

/-- The successors and in-degrees that some edges give, over the nodes of a plan. -/
structure PlanGraph.Reads (ids : List String) (edges : List GraphEdge) (g : PlanGraph) : Prop where
  known : ∀ n, (g.adj.get? n).isSome ↔ n ∈ ids
  keys : ∀ n, n ∈ g.inDegree.keys ↔ n ∈ ids
  count : ∀ n, degree g.inDegree n = leading edges n
  once : ∀ d, (g.children d).Nodup
  edge : ∀ d n, n ∈ g.children d ↔ ⟨d, n⟩ ∈ edges

theorem getD_foldl_set {α : Type} (value : α) (nodes : List GraphNode) (d : PyDict α) (key : String)
    (h : (d.get? key).getD value = value) :
    ((nodes.foldl (fun d n => d.set n.nodeId value) d).get? key).getD value = value := by
  induction nodes generalizing d with
  | nil => exact h
  | cons node nodes ih =>
    refine ih (d.set node.nodeId value) ?_
    by_cases hkey : key = node.nodeId
    · rw [hkey, PyDict.get?_set, Option.getD_some]
    · rw [PyDict.get?_set_of_ne _ _ hkey, h]

theorem isSome_get?_iff {α : Type} (d : PyDict α) (key : String) : (d.get? key).isSome ↔ key ∈ d.keys := by
  rw [Option.isSome_iff_exists, PyDict.keys, List.mem_map]
  constructor
  · rintro ⟨value, h⟩
    exact ⟨(key, value), d.mem_items_iff.mpr h, rfl⟩
  · rintro ⟨item, hitem, rfl⟩
    exact ⟨item.2, d.mem_items_iff.mp hitem⟩

theorem PlanGraph.reads_ofNodes (nodes : List GraphNode) :
    (ofNodes nodes).Reads (nodes.map GraphNode.nodeId) [] where
  known n := by
    rw [isSome_get?_iff, ofNodes, mem_keys_foldl]
    exact or_iff_right List.not_mem_nil
  keys n := by
    rw [ofNodes, mem_keys_foldl]
    exact or_iff_right List.not_mem_nil
  count n := getD_foldl_set 0 nodes .empty n rfl
  once d := by
    have hnone : (ofNodes nodes).children d = [] := getD_foldl_set [] nodes .empty d rfl
    rw [hnone]
    exact List.nodup_nil
  edge d n := by
    have hnone : (ofNodes nodes).children d = [] := getD_foldl_set [] nodes .empty d rfl
    rw [hnone]
    simp

/-- An edge between known nodes is read. -/
theorem PlanGraph.Reads.addEdge {g : PlanGraph} (h : g.Reads ids edges) {edge : GraphEdge}
    (hfrom : edge.fromNode ∈ ids) (hto : edge.toNode ∈ ids) :
    ∃ g', g.addEdge edge = .ok g' ∧ g'.Reads ids (edges ++ [edge]) := by
  have hknown : ¬ ((g.adj.get? edge.fromNode).isNone ∨ (g.adj.get? edge.toNode).isNone) := by
    rw [not_or, ← Option.not_isSome, ← Option.not_isSome, (h.known _).mpr hfrom, (h.known _).mpr hto]
    simp
  refine ⟨_, if_neg hknown, ?_⟩
  have hchildren : ∀ d, PlanGraph.children
      { adj := g.adj.set edge.fromNode (g.successors edge.fromNode edge.toNode)
        inDegree := g.inDegree.set edge.toNode (degree g.inDegree edge.toNode + 1) } d =
      if d = edge.fromNode then g.successors edge.fromNode edge.toNode else g.children d := by
    intro d
    rw [PlanGraph.children]
    split_ifs with hd
    · rw [hd, PyDict.get?_set, Option.getD_some]
    · rw [PyDict.get?_set_of_ne _ _ hd, PlanGraph.children]
  constructor
  · intro n
    by_cases hn : n = edge.fromNode
    · rw [hn, PyDict.get?_set]
      exact iff_of_true rfl hfrom
    · rw [PyDict.get?_set_of_ne _ _ hn, h.known]
  · intro n
    refine PyDict.mem_keys_setItem.trans ?_
    refine (or_congr_right (h.keys n)).trans (or_iff_right_of_imp ?_)
    rintro rfl
    exact hto
  · intro n
    rw [leading, List.countP_append, List.countP_singleton, degree]
    by_cases hn : n = edge.toNode
    · rw [hn, PyDict.get?_set, Option.getD_some, h.count, leading]
      simp
    · rw [PyDict.get?_set_of_ne _ _ hn, ← degree, h.count, leading]
      simp [Ne.symm hn]
  · intro d
    rw [hchildren]
    split_ifs with hd
    · rw [PlanGraph.successors]
      split_ifs with hin
      · exact h.once _
      · exact (h.once _).append (List.nodup_singleton _) (by simpa using hin)
    · exact h.once d
  · intro d n
    have hmk : (⟨d, n⟩ : GraphEdge) = edge ↔ d = edge.fromNode ∧ n = edge.toNode := by
      rw [GraphEdge.mk.injEq]
    rw [hchildren, List.mem_append, List.mem_singleton, hmk, ← h.edge]
    split_ifs with hd
    · subst hd
      rw [PlanGraph.successors]
      split_ifs with hin
      · exact ⟨.inl, fun hor => hor.elim id fun heq => heq.2 ▸ hin⟩
      · rw [List.mem_append, List.mem_singleton]
        simp
    · exact ⟨.inl, fun hor => hor.resolve_right fun heq => hd heq.1⟩

/-- The edges between known nodes are read. -/
theorem PlanGraph.Reads.addEdges {g : PlanGraph} (h : g.Reads ids edges) {added : List GraphEdge}
    (hadded : ∀ e ∈ added, e.fromNode ∈ ids ∧ e.toNode ∈ ids) :
    ∃ g', g.addEdges added = .ok g' ∧ g'.Reads ids (edges ++ added) := by
  induction added generalizing g edges with
  | nil => exact ⟨g, rfl, by rwa [List.append_nil]⟩
  | cons edge added ih =>
    obtain ⟨⟨hfrom, hto⟩, hrest⟩ := List.forall_mem_cons.mp hadded
    obtain ⟨g', hadd, hreads⟩ := h.addEdge hfrom hto
    obtain ⟨g'', hadds, hreads⟩ := ih hreads hrest
    refine ⟨g'', ?_, by rwa [List.append_assoc, List.singleton_append] at hreads⟩
    rw [addEdges, hadd]
    exact hadds

/-- What is known of the nodes that are visited. -/
theorem PlanGraph.Reads.visits {g : PlanGraph} (h : g.Reads ids edges)
    (hedges : ∀ e ∈ edges, e.fromNode ∈ ids ∧ e.toNode ∈ ids) :
    Follows ids edges g.children ∧ ∃ degrees, Visits ids edges g.children g.visited degrees [] := by
  have hfollows : Follows ids edges g.children :=
    ⟨h.once, h.edge, fun d n hn => (hedges _ ((h.edge d n).mp hn)).2⟩
  have hstart : Visits ids edges g.children [] g.inDegree g.sources := by
    refine ⟨g.inDegree.nodup.sublist (List.filter_sublist.map Prod.fst), fun n => ?_, fun n => ?_,
      fun before n after hsplit => absurd hsplit.symm (by simp)⟩
    · rw [h.count, told, List.countP_nil, Nat.cast_zero, sub_zero]
    · rw [List.nil_append, ← h.keys]
      constructor
      · intro hn
        obtain ⟨item, hitem, rfl⟩ := List.mem_map.mp hn
        obtain ⟨hmem, hzero⟩ := List.mem_filter.mp hitem
        refine ⟨List.mem_map_of_mem hmem, ?_⟩
        rw [degree, g.inDegree.mem_items_iff.mp hmem]
        exact of_decide_eq_true hzero
      · rintro ⟨hkey, hzero⟩
        obtain ⟨item, hitem, rfl⟩ := List.mem_map.mp hkey
        rw [degree, g.inDegree.mem_items_iff.mp hitem] at hzero
        exact List.mem_map_of_mem (List.mem_filter.mpr ⟨hitem, decide_eq_true hzero⟩)
  obtain ⟨degrees, hend⟩ := visits_order hfollows hstart le_rfl
  exact ⟨hfollows, degrees, by rwa [List.nil_append] at hend⟩

/-! ## When a cycle is reported -/

/-- Nodes that all follow their predecessors have no cycle among them. -/
theorem not_cyclic_of_leading {nodes : List String} (hfollows : Follows ids edges children)
    (hnodes : nodes.Nodup) (hfrom : ∀ e ∈ edges, e.fromNode ∈ nodes)
    (hfirst : ∀ before n after, nodes = before ++ n :: after → told children before n = leading edges n) (n : String) :
    ¬ TransGen (fun a b => (⟨a, b⟩ : GraphEdge) ∈ edges) n n := by
  have hrise : ∀ a b, (⟨a, b⟩ : GraphEdge) ∈ edges → b ∈ nodes → nodes.idxOf a < nodes.idxOf b := by
    intro a b hedge hb
    obtain ⟨before, after, hsplit⟩ := List.append_of_mem hb
    have hbefore : before.Nodup := (List.nodup_append.mp (hsplit ▸ hnodes)).1
    have ha := ((told_spec hfollows hbefore b).2.mp (hfirst before b after hsplit)).2 a hedge
    have hnot : b ∉ before := fun h => by
      rw [hsplit] at hnodes
      exact List.disjoint_of_nodup_append hnodes h List.mem_cons_self
    rw [hsplit, List.idxOf_append_of_mem ha, List.idxOf_append_of_notMem hnot]
    exact (List.idxOf_lt_length_iff.mpr ha).trans_le (Nat.le_add_right _ _)
  have hpath : ∀ a b, TransGen (fun a b => (⟨a, b⟩ : GraphEdge) ∈ edges) a b → b ∈ nodes →
      nodes.idxOf a < nodes.idxOf b := by
    intro a b hab hb
    induction hab with
    | single hedge => exact hrise _ _ hedge hb
    | tail _ hedge ih => exact (ih (hfrom _ hedge)).trans (hrise _ _ hedge hb)
  intro hcycle
  obtain ⟨b, hedge, -⟩ := TransGen.head'_iff.mp hcycle
  exact lt_irrefl _ (hpath n n hcycle (hfrom _ hedge))

/-- A set of known nodes that every node enters after its predecessors has all of them, when there is no cycle. -/
theorem subset_of_acyclic {nodes : List String} (hfrom : ∀ e ∈ edges, e.fromNode ∈ ids)
    (hacyclic : ∀ n, ¬ TransGen (fun a b => (⟨a, b⟩ : GraphEdge) ∈ edges) n n)
    (henter : ∀ n ∈ ids, (∀ d, ⟨d, n⟩ ∈ edges → d ∈ nodes) → n ∈ nodes) : ∀ n ∈ ids, n ∈ nodes := by
  let precedes (a b : {n // n ∈ ids}) : Prop := TransGen (fun a b => (⟨a, b⟩ : GraphEdge) ∈ edges) a.1 b.1
  have : IsTrans _ precedes := ⟨fun _ _ _ => TransGen.trans⟩
  have : Std.Irrefl precedes := ⟨fun n => hacyclic n.1⟩
  have hwf : WellFounded precedes := Finite.wellFounded_of_trans_of_irrefl precedes
  intro n hn
  refine hwf.induction (C := fun n => n.1 ∈ nodes) ⟨n, hn⟩ fun b ih => ?_
  exact henter b.1 b.2 fun d hd => ih ⟨d, hfrom _ hd⟩ (.single hd)

/-- No edge is repeated precisely when none that leads to a node is. -/
theorem nodup_edges_iff : edges.Nodup ↔ ∀ n, (edges.filter fun e => e.toNode = n).Nodup := by
  refine ⟨fun h n => h.filter _, fun h => List.nodup_iff_count_le_one.mpr fun e => ?_⟩
  have hcount := List.nodup_iff_count_le_one.mp (h e.toNode) e
  rwa [List.count_filter (by simp)] at hcount

/-- Whether all nodes are visited. -/
theorem length_visited_iff {plan : ExecutionPlan} (hedges : plan.EdgesKnown) {g : PlanGraph}
    (h : g.Reads (plan.nodes.map GraphNode.nodeId) plan.edges) :
    g.visited.length = plan.nodes.length ↔
      ¬ plan.Cyclic ∧ plan.edges.Nodup ∧ (plan.nodes.map GraphNode.nodeId).Nodup := by
  obtain ⟨hfollows, degrees, hvisits⟩ := h.visits hedges
  have honce : g.visited.Nodup := List.append_nil g.visited ▸ hvisits.once
  have hmem : ∀ n, n ∈ g.visited ↔ n ∈ plan.nodes.map GraphNode.nodeId ∧
      told g.children g.visited n = leading plan.edges n := by
    intro n
    have hcount := hvisits.count n
    rw [← List.append_nil g.visited, hvisits.mem n, List.append_nil]
    exact and_congr_right fun _ => by omega
  have hsub := honce.subperm fun n hn => ((hmem n).mp hn).1
  have hids : (plan.nodes.map GraphNode.nodeId).length = plan.nodes.length := List.length_map _
  rw [← hids]
  constructor
  · intro hlength
    have hperm := hsub.perm_of_length_le hlength.ge
    have htold : ∀ n ∈ plan.nodes.map GraphNode.nodeId, told g.children g.visited n = leading plan.edges n :=
      fun n hn => ((hmem n).mp (hperm.mem_iff.mpr hn)).2
    refine ⟨fun ⟨n, hcycle⟩ => ?_, nodup_edges_iff.mpr fun n => ?_, hperm.nodup_iff.mp honce⟩
    · exact not_cyclic_of_leading hfollows honce (fun e he => hperm.mem_iff.mpr (hedges e he).1)
        hvisits.first n hcycle
    · by_cases hn : n ∈ plan.nodes.map GraphNode.nodeId
      · exact ((told_spec hfollows honce n).2.mp (htold n hn)).1
      · have hnone : (plan.edges.filter fun e => e.toNode = n) = [] :=
          List.filter_eq_nil_iff.mpr fun e he hto => hn (of_decide_eq_true hto ▸ (hedges e he).2)
        rw [hnone]
        exact List.nodup_nil
  · rintro ⟨hacyclic, hnodup, hids⟩
    have hall : ∀ n ∈ plan.nodes.map GraphNode.nodeId, n ∈ g.visited := by
      refine subset_of_acyclic (fun e he => (hedges e he).1) (fun n hn => hacyclic ⟨n, hn⟩)
        fun n hn hbefore => (hmem n).mpr ⟨hn, ?_⟩
      exact (told_spec hfollows honce n).2.mpr ⟨nodup_edges_iff.mp hnodup n, hbefore⟩
    exact le_antisymm hsub.length_le (hids.subperm hall).length_le

/-- **Reported cycles.**  Between known nodes, a cycle is reported when there is one, and when an edge or a node
is repeated. -/
theorem validatePlan_eq_cycle_iff {plan : ExecutionPlan} (hedges : plan.EdgesKnown) :
    validatePlan plan = .error .dependencyCycle ↔
      plan.Cyclic ∨ ¬ plan.edges.Nodup ∨ ¬ (plan.nodes.map GraphNode.nodeId).Nodup := by
  obtain ⟨g, hgraph, hreads⟩ := (PlanGraph.reads_ofNodes plan.nodes).addEdges hedges
  rw [List.nil_append] at hreads
  have hlength := length_visited_iff hedges hreads
  have hcycle : validatePlan plan = .error .dependencyCycle ↔ g.visited.length ≠ plan.nodes.length := by
    rw [validatePlan, hgraph]
    simp only
    split_ifs with hcount
    · exact iff_of_true rfl hcount
    · refine iff_of_false ?_ hcount
      split <;> simp
  rw [hcycle, ne_eq, hlength]
  tauto

/-- **Cycles are reported** rightly precisely when there is one, or neither an edge nor a node is repeated. -/
theorem reportsCycles_iff (plan : ExecutionPlan) (hedges : plan.EdgesKnown) :
    (validatePlan plan = .error .dependencyCycle ↔ plan.Cyclic) ↔
      plan.Cyclic ∨ plan.edges.Nodup ∧ (plan.nodes.map GraphNode.nodeId).Nodup := by
  rw [validatePlan_eq_cycle_iff hedges]
  tauto

/-- A plan with the nodes `a` and `b`. -/
def twoNodes (edges : List GraphEdge) : ExecutionPlan where
  planId := "plan"
  migrationId := "migration"
  mode := .m1Bulk
  nodes := [⟨"a", ⟨"extract", .readOnly⟩, []⟩, ⟨"b", ⟨"validate", .readOnly⟩, []⟩]
  edges := edges
  fingerprint := "fingerprint"

/-- One edge is no cycle, and none is reported. -/
theorem reportsCycles_of_one :
    validatePlan (twoNodes [⟨"a", "b"⟩]) = .error .dependencyCycle ↔ (twoNodes [⟨"a", "b"⟩]).Cyclic :=
  (reportsCycles_iff (twoNodes [⟨"a", "b"⟩]) (by simp [ExecutionPlan.EdgesKnown, twoNodes])).mpr
    (.inr (by decide))

/-- A cycle is reported for a repeated edge. -/
theorem reported_of_repeated : ∃ plan : ExecutionPlan, plan.EdgesKnown ∧
    validatePlan plan = .error .dependencyCycle ∧ ¬ plan.Cyclic := by
  refine ⟨twoNodes [⟨"a", "b"⟩, ⟨"a", "b"⟩], by simp [ExecutionPlan.EdgesKnown, twoNodes], by decide, ?_⟩
  rintro ⟨n, hcycle⟩
  obtain ⟨b, hfrom, -⟩ := TransGen.head'_iff.mp hcycle
  obtain ⟨a, -, hto⟩ := TransGen.tail'_iff.mp hcycle
  have ha : n = "a" := by simp_all [twoNodes]
  have hb : n = "b" := by simp_all [twoNodes]
  exact absurd (ha.symm.trans hb) (by decide)

end PlanCoordination
