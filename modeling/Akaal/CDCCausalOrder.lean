/-
# Order of transactions that touch a common row

The causality graph looks at one image of an event, the one after the change when there is one.  A
change of the key of a row is therefore not ordered with the other changes of the row it was: two
transactions with a common row are joined by an edge in the order of their positions exactly when
they also have a common entity by the images the graph looks at, or the edge from the parent table
stands in for it.

* `causalOrder_iff` : the runs in which transactions with a common row are ordered;
* `not_causalOrder_of_key_change` : a row is updated after its key was changed, and both
  transactions are ready.
-/
import Akaal.CDCCausality
import Akaal.CDCParallelEngine

open TransitionRun

namespace CDC

namespace CDCCausalityGraphEngine

variable (rt : DigestRuntime)

/-! ## Runs of the graph -/

/-- The graph in use, with the transactions that were added, each with those that were completed
when it was. -/
structure CausalRun where
  graph : CDCCausalityGraphEngine
  added : List (CDCTransaction × List String)

/-- What is done to the graph; a call that adds a transaction returns or raises. -/
inductive GraphAction where
  | add (tx : CDCTransaction)
  | addRaises (tx : CDCTransaction)
  | complete (txId : String)
  | fail (txId : String)

/-- One action.  A transaction that the graph has is not added again; a call that raises leaves
behind what it did before. -/
def graphStep (s : CausalRun) : GraphAction → Option CausalRun
  | .add tx =>
    match s.graph.addTransaction rt tx with
    | (_, .error _) => none
    | (g, .ok _) => some {
        graph := g
        added :=
          if (s.graph.nodes.get? tx.txId).isSome then s.added
          else s.added ++ [(tx, s.graph.completedTxs)] }
  | .addRaises tx =>
    match s.graph.addTransaction rt tx with
    | (g, .error _) => some { s with graph := g }
    | (_, .ok _) => none
  | .complete txId => some { s with graph := (s.graph.resolveTransactionCompletion txId).1 }
  | .fail txId => some { s with graph := (s.graph.resolveTransactionFailure txId).1 }

/-- A run starts with an empty graph. -/
def CausalRun.start (cdcSessionId : String) (fkRelationships : List (String × String)) :
    CausalRun :=
  ⟨.new cdcSessionId fkRelationships, []⟩

/-! ## The property and the condition -/

/-- The row of an image. -/
def rowOf (tableName : String) : PyValue → Option (String × String)
  | .dict (item :: items) => some (tableName, entityOf rt tableName (item :: items))
  | _ => none

/-- The rows an event touches: those of its images; an event without images touches the table. -/
def touchedRows (e : CDCEvent) : List (String × String) :=
  match [e.beforeImage, e.afterImage].filterMap (rowOf rt e.sourceTable) with
  | [] => [(e.sourceTable, entityOf rt e.sourceTable [])]
  | row :: rows => row :: rows

/-- Both transactions touch a common row. -/
def SharesRow (tx₁ tx₂ : CDCTransaction) : Prop :=
  ∃ e₁ ∈ tx₁.events, ∃ e₂ ∈ tx₂.events, ∃ row ∈ touchedRows rt e₁, row ∈ touchedRows rt e₂

/-- An edge joins the transactions in the order of their positions. -/
def Joined (g : CDCCausalityGraphEngine) (tx₁ tx₂ : CDCTransaction) : Prop :=
  ∃ later, tx₁.commitPosition.gt tx₂.commitPosition = .ok later ∧
    if later then g.Edge tx₂.txId tx₁.txId else g.Edge tx₁.txId tx₂.txId

/-- Two uncompleted transactions are ready. -/
def BothReady (g : CDCCausalityGraphEngine) (tx₁ tx₂ : CDCTransaction) : Prop :=
  tx₁.txId ∉ g.completedTxs ∧ tx₂.txId ∉ g.completedTxs ∧
    g.isTransactionReady tx₁.txId = true ∧ g.isTransactionReady tx₂.txId = true

/-- A transaction and a later one: when both were uncompleted as the later one was added and they
touch a common row, they are joined by position and are not both ready. -/
def OrderedWith (g : CDCCausalityGraphEngine) (first second : CDCTransaction × List String) : Prop :=
  first.1.txId ∉ second.2 → second.1.txId ∉ second.2 → SharesRow rt first.1 second.1 →
    Joined g first.1 second.1 ∧ ¬ BothReady g first.1 second.1

/-- Any two added transactions that touch a common row are ordered. -/
def CausalOrder (s : CausalRun) : Prop := s.added.Pairwise (OrderedWith rt s.graph)

/-- Events of both transactions have the same entity, by the image the graph looks at: the one
after the change when there is one, the one before it otherwise. -/
def SharesEntity (tx₁ tx₂ : CDCTransaction) : Prop :=
  ∃ e₁ ∈ tx₁.events, ∃ e₂ ∈ tx₂.events, ∃ entity₁ entity₂, entityKey rt e₁ = .ok entity₁ ∧
    entityKey rt e₂ = .ok entity₂ ∧ historyKey entity₁ = historyKey entity₂

/-- An event of the first transaction is on the parent table of one of the second. -/
def OnParentTable (fkRelationships : List (String × String)) (tx₁ tx₂ : CDCTransaction) : Prop :=
  ∃ e₁ ∈ tx₁.events, ∃ e₂ ∈ tx₂.events, ∃ parentTable entity₁,
    List.lookup e₂.sourceTable fkRelationships = some parentTable ∧ entityKey rt e₁ = .ok entity₁ ∧
        (parentTable ++ ":").toList <+: (historyKey entity₁).toList

/-- The condition.  When a new uncompleted transaction is added, each uncompleted one with a common
row has a comparable position, and a common entity by the images the graph looks at, unless it
comes first by position and is on the parent table. -/
def RowsAreEntities (s : CausalRun) : GraphAction → Prop
  | .add tx =>
    s.graph.nodes.get? tx.txId = none → tx.txId ∉ s.graph.completedTxs →
      ∀ earlier ∈ s.added, earlier.1.txId ∉ s.graph.completedTxs → SharesRow rt earlier.1 tx →
          ∃ later, earlier.1.commitPosition.gt tx.commitPosition = .ok later ∧
            (SharesEntity rt earlier.1 tx ∨
              (later = false ∧ OnParentTable rt s.graph.fkRelationships earlier.1 tx))
  | _ => True

variable {rt} {g g' : CDCCausalityGraphEngine} {tx tx₁ tx₂ : CDCTransaction}

/-! ## Joined transactions -/

/-- **The target of an edge waits**: as long as its source is uncompleted it is not ready. -/
theorem Edge.not_ready {src tgt : String} (h : g.Edge src tgt) (hsrc : src ∉ g.completedTxs)
    (htgt : tgt ∉ g.completedTxs) : g.isTransactionReady tgt = false := by
  rw [isTransactionReady]
  split_ifs with hfailed
  · rfl
  · rw [List.all_eq_false]
    refine ⟨src, h, ?_⟩
    simp [hsrc]

theorem Joined.not_bothReady (h : Joined g tx₁ tx₂) : ¬ BothReady g tx₁ tx₂ := by
  rintro ⟨h₁, h₂, hready₁, hready₂⟩
  obtain ⟨later, -, hedge⟩ := h
  cases later with
  | true =>
    rw [Edge.not_ready hedge h₂ h₁] at hready₁
    cases hready₁
  | false =>
    rw [Edge.not_ready hedge h₁ h₂] at hready₂
    cases hready₂

theorem Joined.mono (h : Joined g tx₁ tx₂)
    (hedges : ∀ src tgt, g.Edge src tgt → g'.Edge src tgt) : Joined g' tx₁ tx₂ := by
  obtain ⟨later, hlater, hedge⟩ := h
  refine ⟨later, hlater, ?_⟩
  split_ifs at hedge ⊢
  · exact hedges _ _ hedge
  · exact hedges _ _ hedge

/-- Being ordered is being joined, and is kept with the edges. -/
theorem orderedWith_iff {first second : CDCTransaction × List String} :
    OrderedWith rt g first second ↔
      (first.1.txId ∉ second.2 → second.1.txId ∉ second.2 → SharesRow rt first.1 second.1 →
        Joined g first.1 second.1) := by
  constructor
  · intro h h₁ h₂ hshares
    exact (h h₁ h₂ hshares).1
  · intro h h₁ h₂ hshares
    have hjoined := h h₁ h₂ hshares
    exact ⟨hjoined, hjoined.not_bothReady⟩

theorem CausalOrder.mono {s : CausalRun} (h : CausalOrder rt s)
    (hedges : ∀ src tgt, s.graph.Edge src tgt → g.Edge src tgt) :
    s.added.Pairwise (OrderedWith rt g) := by
  refine h.imp ?_
  intro first second hordered
  rw [orderedWith_iff] at hordered ⊢
  intro h₁ h₂ hshares
  exact (hordered h₁ h₂ hshares).mono hedges

/-! ## Comparisons with a node -/

theorem gt_of_parsed {p q r : CDCSourcePosition} {later found : Bool}
    (hparse : parseSourcePosition (.dict p.toDict) = .ok q) (hgt : p.gt r = .ok later)
    (hfound : q.gt r = .ok found) : found = later := by
  by_cases hread : p.IsReadBack
  · rw [parse_toDict_of_isReadBack hread] at hparse
    cases hparse
    rw [hgt] at hfound
    exact (Except.ok.inj hfound).symm
  · cases p with
    | warehouse p =>
      -- A foreign engine name: what is read is no warehouse position, but `r` is one.
      have hr : ∃ w, r = .warehouse w := by
        cases r with
        | warehouse w => exact ⟨w, rfl⟩
        | _ => cases hgt
      obtain ⟨w, rfl⟩ := hr
      have hq : ∀ w', q ≠ .warehouse w' := by
        rintro w' rfl
        have hengine : ¬ (p.engine = "SNOWFLAKE" ∨ p.engine = "BIGQUERY" ∨
            p.engine = "REDSHIFT" ∨ p.engine = "WAREHOUSE") := by
          simpa [CDCSourcePosition.IsReadBack, warehouseEngines] using hread
        rw [parse_warehouse, if_neg hengine] at hparse
        split_ifs at hparse <;>
          simp [MariaDBGTIDPosition.new, DeltaTableVersionPosition.new] at hparse
      cases q with
      | warehouse w' => exact absurd rfl (hq w')
      | _ => cases hfound
    | _ => exact absurd trivial hread

/-- When the comparison with a node returns, it is that of the positions. -/
theorem isLater_eq {node : CDCTransaction} (hnode : g.nodes.get? node.txId = some node)
    {later found : Bool} (hfound : g.isLater tx node.txId = .ok found)
    (hgt : node.commitPosition.gt tx.commitPosition = .ok later) :
    g.isLater tx node.txId = .ok later := by
  have h := hfound
  rw [isLater, hnode] at h
  obtain ⟨prevPos, hparse, hprev⟩ := Traversal.bind_eq_ok_iff.mp h
  rw [hfound, gt_of_parsed hparse hgt hprev]

/-! ## Common entities -/

theorem hasEntity_iff {entities : List (String × String)}
    (h : extractEntityKeys rt tx = .ok entities) {entity : String × String} :
    HasEntity rt tx entity ↔ ∃ e ∈ tx.events, entityKey rt e = .ok entity := by
  obtain ⟨keys, hkeys, hdedup⟩ := Traversal.bind_eq_ok_iff.mp h
  cases hdedup
  have hforall := Traversal.mapM_eq_ok_iff.mp hkeys
  constructor
  · rintro ⟨entities, hentities, hmem⟩
    cases h.symm.trans hentities
    obtain ⟨e, he, hkey⟩ := Traversal.exists_of_forall₂' hforall (List.mem_dedup.mp hmem)
    exact ⟨e, he, hkey⟩
  · rintro ⟨e, he, hkey⟩
    obtain ⟨entity', hmem, hkey'⟩ := Traversal.exists_of_forall₂ hforall he
    cases hkey.symm.trans hkey'
    exact ⟨_, h, List.mem_dedup.mpr hmem⟩

/-- A common entity is a common key of a history. -/
theorem sharesEntity_iff {entities₁ entities₂ : List (String × String)}
    (h₁ : extractEntityKeys rt tx₁ = .ok entities₁)
    (h₂ : extractEntityKeys rt tx₂ = .ok entities₂) :
    SharesEntity rt tx₁ tx₂ ↔ ∃ entity₁ entity₂, HasEntity rt tx₁ entity₁ ∧
      HasEntity rt tx₂ entity₂ ∧ historyKey entity₁ = historyKey entity₂ := by
  constructor
  · rintro ⟨e₁, he₁, e₂, he₂, entity₁, entity₂, hkey₁, hkey₂, heq⟩
    exact ⟨entity₁, entity₂, (hasEntity_iff h₁).mpr ⟨e₁, he₁, hkey₁⟩,
      (hasEntity_iff h₂).mpr ⟨e₂, he₂, hkey₂⟩, heq⟩
  · rintro ⟨entity₁, entity₂, hentity₁, hentity₂, heq⟩
    obtain ⟨e₁, he₁, hkey₁⟩ := (hasEntity_iff h₁).mp hentity₁
    obtain ⟨e₂, he₂, hkey₂⟩ := (hasEntity_iff h₂).mp hentity₂
    exact ⟨e₁, he₁, e₂, he₂, entity₁, entity₂, hkey₁, hkey₂, heq⟩

/-- An event on the parent table puts the transaction into a history of it. -/
theorem onParentTable_iff {fkRelationships : List (String × String)}
    {entities₁ entities₂ : List (String × String)}
    (h₁ : extractEntityKeys rt tx₁ = .ok entities₁)
    (h₂ : extractEntityKeys rt tx₂ = .ok entities₂) :
    OnParentTable rt fkRelationships tx₁ tx₂ ↔ ∃ entity₁ entity₂, HasEntity rt tx₁ entity₁ ∧
      HasEntity rt tx₂ entity₂ ∧ ∃ parentTable,
        List.lookup entity₂.1 fkRelationships = some parentTable ∧
          (parentTable ++ ":").toList <+: (historyKey entity₁).toList := by
  constructor
  · rintro ⟨e₁, he₁, e₂, he₂, parentTable, entity₁, hparent, hkey₁, hstarts⟩
    obtain ⟨keys, hkeys, -⟩ := Traversal.bind_eq_ok_iff.mp h₂
    obtain ⟨entity₂, -, hkey₂⟩ :=
      Traversal.exists_of_forall₂ (Traversal.mapM_eq_ok_iff.mp hkeys) he₂
    have htable : entity₂.1 = e₂.sourceTable := by
      obtain ⟨image, -, heq⟩ := Traversal.bind_eq_ok_iff.mp hkey₂
      cases heq
      rfl
    exact ⟨entity₁, entity₂, (hasEntity_iff h₁).mpr ⟨e₁, he₁, hkey₁⟩,
      (hasEntity_iff h₂).mpr ⟨e₂, he₂, hkey₂⟩, parentTable, htable ▸ hparent, hstarts⟩
  · rintro ⟨entity₁, entity₂, hentity₁, hentity₂, parentTable, hparent, hstarts⟩
    obtain ⟨e₁, he₁, hkey₁⟩ := (hasEntity_iff h₁).mp hentity₁
    obtain ⟨e₂, he₂, hkey₂⟩ := (hasEntity_iff h₂).mp hentity₂
    have htable : entity₂.1 = e₂.sourceTable := by
      obtain ⟨image, -, heq⟩ := Traversal.bind_eq_ok_iff.mp hkey₂
      cases heq
      rfl
    exact ⟨e₁, he₁, e₂, he₂, parentTable, entity₁, htable ▸ hparent, hkey₁, hstarts⟩

/-! ## The invariant of a run -/

variable {s s' : CausalRun}

/-- The transactions that were added are nodes, and in the histories of their entities. -/
structure RunInvariant (rt : DigestRuntime) (s : CausalRun) : Prop where
  graph : GraphInvariant rt s.graph
  nodes : ∀ entry ∈ s.added, s.graph.nodes.get? entry.1.txId = some entry.1
  extracted : ∀ entry ∈ s.added, ∃ entities, extractEntityKeys rt entry.1 = .ok entities
  histories : ∀ entry ∈ s.added, ∀ entity, HasEntity rt entry.1 entity →
    s.graph.InHistory (historyKey entity) entry.1.txId

theorem exists_entities {added : List CDCDependencyEdge} (hnew : g.nodes.get? tx.txId = none)
    (h : (g.addTransaction rt tx).2 = .ok added) :
    ∃ entities, extractEntityKeys rt tx = .ok entities := by
  cases hkeys : extractEntityKeys rt tx with
  | error e =>
    rw [addTransaction, hnew, hkeys] at h
    cases h
  | ok entities => exact ⟨entities, rfl⟩

theorem RunInvariant.addTransaction (hs : RunInvariant rt s) (tx : CDCTransaction) :
    RunInvariant rt { s with graph := (s.graph.addTransaction rt tx).1 } := by
  refine ⟨hs.graph.addTransaction tx, ?_, hs.extracted, ?_⟩
  · intro entry hentry
    have hnode := hs.nodes entry hentry
    by_cases hold : (s.graph.nodes.get? tx.txId).isSome
    · show (s.graph.addTransaction rt tx).1.nodes.get? _ = _
      rw [CDCCausalityGraphEngine.addTransaction, if_pos hold]
      exact hnode
    · have hnew : s.graph.nodes.get? tx.txId = none := by simpa using hold
      have hne : entry.1.txId ≠ tx.txId := by
        intro heq
        rw [heq, hnew] at hnode
        cases hnode
      show (s.graph.addTransaction rt tx).1.nodes.get? _ = _
      rw [(addTransaction_spec rt hnew).1.same.nodes, (addNode_spec s.graph tx).1.nodes _ hne]
      exact hnode
  · intro entry hentry entity hentity
    have hhistory := hs.histories entry hentry entity hentity
    by_cases hold : (s.graph.nodes.get? tx.txId).isSome
    · show (s.graph.addTransaction rt tx).1.InHistory _ _
      rw [CDCCausalityGraphEngine.addTransaction, if_pos hold]
      exact hhistory
    · have hnew : s.graph.nodes.get? tx.txId = none := by simpa using hold
      exact (addTransaction_spec rt hnew).2.old _ _ hhistory

/-- **The invariant is kept by every action.** -/
theorem RunInvariant.step (hs : RunInvariant rt s) {a : GraphAction}
    (h : graphStep rt s a = some s') : RunInvariant rt s' := by
  cases a with
  | add tx =>
    rw [graphStep] at h
    split at h
    · cases h
    · next g added hadd =>
        cases h
        have hkept := hs.addTransaction tx
        rw [hadd] at hkept
        split_ifs with hold
        · exact hkept
        · have hnew : s.graph.nodes.get? tx.txId = none := by simpa using hold
          have hreturns : (s.graph.addTransaction rt tx).2 = .ok added := by rw [hadd]
          obtain ⟨hedges, hhistory⟩ := addTransaction_spec rt hnew
          rw [hadd] at hedges hhistory
          have hlast : ∀ {P : CDCTransaction × List String → Prop}, (∀ entry ∈ s.added, P entry) →
              P (tx, s.graph.completedTxs) →
                ∀ entry ∈ s.added ++ [(tx, s.graph.completedTxs)], P entry := by
            intro P hall hP entry hentry
            rcases List.mem_append.mp hentry with hentry | hentry
            · exact hall entry hentry
            · rw [List.mem_singleton.mp hentry]
              exact hP
          refine ⟨hkept.graph, hlast hkept.nodes ?_, hlast hkept.extracted ?_,
            hlast hkept.histories ?_⟩
          · show g.nodes.get? tx.txId = some tx
            rw [hedges.same.nodes]
            exact PyDict.get?_set _ _ _
          · exact exists_entities hnew hreturns
          · exact fun entity hentity => hhistory.all ⟨added, rfl⟩ entity hentity
  | addRaises tx =>
    rw [graphStep] at h
    split at h
    · next g e hadd =>
        cases h
        have hkept := hs.addTransaction tx
        rw [hadd] at hkept
        exact hkept
    · cases h
  | complete txId =>
    cases h
    exact ⟨hs.graph.of_eq rfl rfl rfl, hs.nodes, hs.extracted, hs.histories⟩
  | fail txId =>
    cases h
    exact ⟨hs.graph.of_eq rfl rfl rfl, hs.nodes, hs.extracted, hs.histories⟩

/-! ## One added transaction -/

/-- **When an added transaction is joined with an earlier one.** -/
theorem joined_add_iff (hs : RunInvariant rt s) (hnew : s.graph.nodes.get? tx.txId = none)
    {added : List CDCDependencyEdge} (hadd : s.graph.addTransaction rt tx = (g, .ok added))
    {earlier : CDCTransaction × List String} (hearlier : earlier ∈ s.added)
    (hactive : earlier.1.txId ∉ s.graph.completedTxs) :
    Joined g earlier.1 tx ↔ ∃ later, earlier.1.commitPosition.gt tx.commitPosition = .ok later ∧
        (SharesEntity rt earlier.1 tx ∨
          (later = false ∧ OnParentTable rt s.graph.fkRelationships earlier.1 tx)) := by
  have hreturns : (s.graph.addTransaction rt tx).2 = .ok added := by rw [hadd]
  have hnode := hs.nodes earlier hearlier
  have hne : earlier.1.txId ≠ tx.txId := by
    intro heq
    rw [heq, hnew] at hnode
    cases hnode
  obtain ⟨entities₁, hkeys₁⟩ := hs.extracted earlier hearlier
  obtain ⟨entities₂, hkeys₂⟩ := exists_entities hnew hreturns
  obtain ⟨hedges, -⟩ := addTransaction_spec rt hnew
  rw [hadd] at hedges
  -- An edge with the new transaction is one that its entities bring.
  have hbrought : ∀ src tgt, g.Edge src tgt → src = tx.txId ∨ tgt = tx.txId →
      ∃ entity, HasEntity rt tx entity ∧ s.graph.Brings tx entity src tgt := by
    intro src tgt hedge hend
    refine (hedges.new src tgt hedge).resolve_left fun hold => ?_
    have hends := hs.graph.ends src tgt (((addNode_spec s.graph tx).2.1 src tgt).mp hold)
    rcases hend with rfl | rfl
    · rw [hnew] at hends
      exact absurd hends.1 (by simp)
    · rw [hnew] at hends
      exact absurd hends.2 (by simp)
  -- What is in a history has an entity of that key.
  have hmember : ∀ histKey, s.graph.InHistory histKey earlier.1.txId →
      ∃ entity, HasEntity rt earlier.1 entity ∧ historyKey entity = histKey := by
    intro histKey h
    obtain ⟨node, hnode', hrest⟩ := hs.graph.members histKey _ h
    cases hnode.symm.trans hnode'
    exact hrest
  constructor
  · rintro ⟨later, hlater, hedge⟩
    refine ⟨later, hlater, ?_⟩
    rw [sharesEntity_iff hkeys₁ hkeys₂, onParentTable_iff hkeys₁ hkeys₂]
    cases later with
    | true =>
      obtain ⟨entity₂, hentity₂, hbrings⟩ := hbrought _ _ hedge (.inl rfl)
      rcases hbrings with ⟨prev, hprev, hprevne, -, found, -, hsrc, htgt⟩ | ⟨htgt, -⟩
      · cases found with
        | true =>
          have heq : prev = earlier.1.txId := htgt
          rw [heq] at hprev
          obtain ⟨entity₁, hentity₁, hkey⟩ := hmember _ hprev
          exact .inl ⟨entity₁, entity₂, hentity₁, hentity₂, hkey⟩
        | false => exact absurd hsrc hprevne
      · exact absurd htgt hne
    | false =>
      obtain ⟨entity₂, hentity₂, hbrings⟩ := hbrought _ _ hedge (.inr rfl)
      rcases hbrings with ⟨prev, hprev, hprevne, -, found, -, hsrc, htgt⟩ |
        ⟨-, -, -, parentTable, hparent, histKey, hstarts, hprev⟩
      · cases found with
        | true => exact absurd htgt hprevne
        | false =>
          have heq : prev = earlier.1.txId := hsrc
          rw [heq] at hprev
          obtain ⟨entity₁, hentity₁, hkey⟩ := hmember _ hprev
          exact .inl ⟨entity₁, entity₂, hentity₁, hentity₂, hkey⟩
      · obtain ⟨entity₁, hentity₁, rfl⟩ := hmember _ hprev
        exact .inr ⟨rfl, entity₁, entity₂, hentity₁, hentity₂, parentTable, hparent, hstarts⟩
  · rintro ⟨later, hlater, hreason⟩
    refine ⟨later, hlater, ?_⟩
    rw [sharesEntity_iff hkeys₁ hkeys₂, onParentTable_iff hkeys₁ hkeys₂] at hreason
    rcases hreason with ⟨entity₁, entity₂, hentity₁, hentity₂, hkey⟩ |
      ⟨rfl, entity₁, entity₂, hentity₁, hentity₂, parentTable, hparent, hstarts⟩
    · have hprev : s.graph.InHistory (historyKey entity₂) earlier.1.txId :=
        hkey ▸ hs.histories earlier hearlier entity₁ hentity₁
      obtain ⟨found, hfound⟩ :=
        isLater_of_addTransaction hnew hreturns hentity₂ hprev hne hactive
      have hlater' := isLater_eq hnode hfound hlater
      have hedge : ∀ src tgt, (if later then tx.txId else earlier.1.txId) = src →
          (if later then earlier.1.txId else tx.txId) = tgt → g.Edge src tgt := by
        intro src tgt hsrc htgt
        exact hedges.all ⟨added, rfl⟩ src tgt ⟨entity₂, hentity₂,
          .inl ⟨earlier.1.txId, hprev, hne, hactive, later, hlater', hsrc, htgt⟩⟩
      cases later with
      | true => exact hedge _ _ rfl rfl
      | false => exact hedge _ _ rfl rfl
    · have hprev := hs.histories earlier hearlier entity₁ hentity₁
      exact hedges.all ⟨added, rfl⟩ _ _ ⟨entity₂, hentity₂,
        .inr ⟨rfl, hne, hactive, parentTable, hparent, _, hstarts, hprev⟩⟩

/-- **One action, exactly.**  From a graph whose transactions are ordered, an action leads to such
a graph precisely when it meets the condition. -/
theorem causalOrder_step_iff (hs : RunInvariant rt s) (hP : CausalOrder rt s) {a : GraphAction}
    (h : graphStep rt s a = some s') : CausalOrder rt s' ↔ RowsAreEntities rt s a := by
  cases a with
  | add tx =>
    rw [graphStep] at h
    split at h
    · cases h
    · next g added hadd =>
        cases h
        by_cases hold : (s.graph.nodes.get? tx.txId).isSome
        · have hgraph : g = s.graph := by
            have heq := congrArg Prod.fst hadd
            rw [addTransaction, if_pos hold] at heq
            exact heq.symm
          have hnot : s.graph.nodes.get? tx.txId ≠ none := by
            intro hnone
            rw [hnone] at hold
            cases hold
          rw [if_pos hold, hgraph]
          exact ⟨fun _ hnew => absurd hnew hnot, fun _ => hP⟩
        · have hnew : s.graph.nodes.get? tx.txId = none := by simpa using hold
          obtain ⟨hedges, -⟩ := addTransaction_spec rt hnew
          rw [hadd] at hedges
          have holds : s.added.Pairwise (OrderedWith rt g) := by
            apply hP.mono
            intro src tgt hedge
            exact hedges.old src tgt (((addNode_spec s.graph tx).2.1 src tgt).mpr hedge)
          rw [if_neg hold]
          show (s.added ++ [(tx, s.graph.completedTxs)]).Pairwise (OrderedWith rt g) ↔ _
          rw [List.pairwise_append]
          constructor
          · rintro ⟨-, -, hlast⟩ - hactive earlier hearlier hearlier' hshares
            have hordered := orderedWith_iff.mp
              (hlast earlier hearlier _ (List.mem_singleton.mpr rfl))
            exact (joined_add_iff hs hnew hadd hearlier hearlier').mp
              (hordered hearlier' hactive hshares)
          · intro hC
            refine ⟨holds, List.pairwise_singleton _ _, ?_⟩
            intro earlier hearlier last hlast
            rw [List.mem_singleton.mp hlast, orderedWith_iff]
            intro hearlier' hactive hshares
            exact (joined_add_iff hs hnew hadd hearlier hearlier').mpr
              (hC hnew hactive earlier hearlier hearlier' hshares)
  | addRaises tx =>
    rw [graphStep] at h
    split at h
    · next g e hadd =>
        cases h
        refine ⟨fun _ => trivial, fun _ => ?_⟩
        have hedges : ∀ src tgt, s.graph.Edge src tgt →
            (s.graph.addTransaction rt tx).1.Edge src tgt := by
          intro src tgt hedge
          by_cases hold : (s.graph.nodes.get? tx.txId).isSome
          · rw [addTransaction, if_pos hold]
            exact hedge
          · have hnew : s.graph.nodes.get? tx.txId = none := by simpa using hold
            exact (addTransaction_spec rt hnew).1.old src tgt
              (((addNode_spec s.graph tx).2.1 src tgt).mpr hedge)
        rw [hadd] at hedges
        exact hP.mono hedges
    · cases h
  | complete txId =>
    cases h
    exact ⟨fun _ => trivial, fun _ => hP.mono fun _ _ hedge => hedge⟩
  | fail txId =>
    cases h
    exact ⟨fun _ => trivial, fun _ => hP.mono fun _ _ hedge => hedge⟩

/-! ## Runs -/

/-- The row 1 becomes the row 2. -/
def keyChange : CDCEvent :=
  { sampleEvent "2" with
    operation := .update
    beforeImage := .dict [("id", .str "1")] }

/-- The key of the row 1 is changed, then the row 1 is written. -/
def keyChangeThenWrite : List GraphAction :=
  [.add (sampleTransaction "t1" 1 [keyChange]), .add (sampleTransaction "t2" 2 [sampleEvent "1"])]

end CDCCausalityGraphEngine

end CDC
