/-
# Bidirectional replication

`CDCOriginProvenance`, `CDCReplicationLoopFilter` and `CDCBirectionalTopologyManager` of
`cdc/multi_master`.  The manager takes the transactions captured at two databases A and B, decides
which of them are applied at the other database, and writes into the events of those where they
come from.

* `shouldSuppress_tagged` : when a filter suppresses what a filter has tagged;
* `processIncomingTransaction_cases` : when a transaction is READY, and what it becomes.
-/
import Akaal.CDCCausality

open PythonText

namespace CDC

/-! ## Origin provenance -/

/-- `CDCOriginProvenance`; the fields take whatever values a dictionary has. -/
structure CDCOriginProvenance where
  originDatabaseId : PyValue
  originTopologyId : PyValue
  originRunId : PyValue
  akaalWriterId : PyValue
  replicationDirection : PyValue
  hopCount : PyValue
  originTxId : PyValue
  originTimestamp : PyValue

namespace CDCOriginProvenance

/-- `to_dict`. -/
def toDict (prov : CDCOriginProvenance) : PyItems :=
  [("origin_database_id", prov.originDatabaseId), ("origin_topology_id", prov.originTopologyId),
    ("origin_run_id", prov.originRunId), ("akaal_writer_id", prov.akaalWriterId),
    ("replication_direction", prov.replicationDirection), ("hop_count", prov.hopCount),
    ("origin_tx_id", prov.originTxId), ("origin_timestamp", prov.originTimestamp)]

/-- The fields without a default. -/
def requiredFields : List String :=
  ["origin_database_id", "origin_topology_id", "origin_run_id", "akaal_writer_id",
    "replication_direction"]

/-- The fields with a default. -/
def defaultedFields : List String := ["hop_count", "origin_tx_id", "origin_timestamp"]

/-- Names in quotes, as a message lists them. -/
def quotedNames : List String → String
  | [] => ""
  | [name] => "'" ++ name ++ "'"
  | [first, second] => "'" ++ first ++ "' and '" ++ second ++ "'"
  | names => String.join (names.dropLast.map fun name => "'" ++ name ++ "', ") ++ "and '" ++
      names.getLastD "" ++ "'"

/-- `from_dict`, or the text of the exception that a wrong keyword raises. -/
def fromDict (now : String) (data : PyItems) : Except String CDCOriginProvenance :=
  let missing := requiredFields.filter fun field => (List.lookup field data).isNone
  match data.find? fun item => item.1 ∉ requiredFields ∧ item.1 ∉ defaultedFields with
  | some item => .error ("CDCOriginProvenance.__init__() got an unexpected keyword argument '" ++
      item.1 ++ "'")
  | none =>
    if missing ≠ [] then
      .error ("CDCOriginProvenance.__init__() missing " ++ intText missing.length ++
        " required positional argument" ++ (if missing.length = 1 then "" else "s") ++ ": " ++
        quotedNames missing)
    else .ok {
      originDatabaseId := getValue data "origin_database_id"
      originTopologyId := getValue data "origin_topology_id"
      originRunId := getValue data "origin_run_id"
      akaalWriterId := getValue data "akaal_writer_id"
      replicationDirection := getValue data "replication_direction"
      hopCount := (List.lookup "hop_count" data).getD (.int 1)
      originTxId := getValue data "origin_tx_id"
      originTimestamp := (List.lookup "origin_timestamp" data).getD (.str now) }

@[simp] theorem fromDict_toDict (now : String) (prov : CDCOriginProvenance) :
    fromDict now prov.toDict = .ok prov := by
  simp [fromDict, toDict, requiredFields, defaultedFields, getValue, List.lookup]

end CDCOriginProvenance

/-! ## The loop filter -/

theorem orEmptyDict_setItem (key : String) (v : PyValue) (items : PyItems) :
    orEmptyDict (.dict (PyDict.setItem key v items)) = .dict (PyDict.setItem key v items) := by
  have hne : PyDict.setItem key v items ≠ [] := by
    intro h
    have hfound := PyDict.lookup_setItem key v items
    rw [h] at hfound
    cases hfound
  rw [orEmptyDict, if_neg]
  show ¬ (PyDict.setItem key v items).isEmpty = true
  rw [List.isEmpty_iff]
  exact hne

/-- `CDCReplicationLoopFilter`. -/
structure CDCReplicationLoopFilter where
  localDatabaseId : String
  topologyId : String
  runId : String
  akaalWriterId : String
  maxHops : ℤ

/-- The value is a text, and this one. -/
def isText (v : PyValue) (s : String) : Bool :=
  match v with
  | .str t => t = s
  | _ => false

/-- `hop_count > max_hops`. -/
def exceedsHops (maxHops : ℤ) : PyValue → Except PyRaised Bool
  | .int z => .ok (decide (maxHops < z))
  | .bool b => .ok (decide (maxHops < b.toNat))
  | .float (.finite q) => .ok (decide ((maxHops : ℚ) < q))
  | .float .negativeZero => .ok (decide (maxHops < 0))
  | .float (.infinite negative) => .ok !negative
  | .float .nan => .ok false
  | _ => .error (wrongType "hop_count")

namespace CDCReplicationLoopFilter

/-- `CDCReplicationLoopFilter(...)` under the default names. -/
def new (localDatabaseId topologyId runId : String) : CDCReplicationLoopFilter where
  localDatabaseId := localDatabaseId
  topologyId := topologyId
  runId := runId
  akaalWriterId := "writer-" ++ localDatabaseId
  maxHops := 5

variable (rt : DigestRuntime) (f : CDCReplicationLoopFilter)

/-- The provenance a filter writes. -/
def provenance (now : String) (txId direction : String) : CDCOriginProvenance where
  originDatabaseId := .str f.localDatabaseId
  originTopologyId := .str f.topologyId
  originRunId := .str f.runId
  akaalWriterId := .str f.akaalWriterId
  replicationDirection := .str direction
  hopCount := .int 1
  originTxId := .str txId
  originTimestamp := .str now

/-- `event.details["origin_provenance"] = prov.to_dict()`. -/
def tagEvent (prov : CDCOriginProvenance) (e : CDCEvent) : Except PyRaised CDCEvent := do
  let details ← asDict "details" e.details
  return {
    e with
    details := .dict (PyDict.setItem "origin_provenance" (.dict prov.toDict) details)
    details_eq := orEmptyDict_setItem _ _ details }

/-- `attach_origin_provenance`. -/
def attachOriginProvenance (now : String) (tx : CDCTransaction) (direction : String) :
    Except PyRaised CDCTransaction := do
  let events ← tx.events.mapM (tagEvent (f.provenance now tx.txId direction))
  return { tx with events := events }

/-- A failure of the filter. -/
def failure (identity : CDCEventIdentity) (failureType : CDCFailureType) (message : String) :
    PyRaised :=
  .executionError {
    failureType := failureType
    category := .blocking
    message := message
    migrationId := identity.migrationId
    jobId := identity.jobId
    runId := identity.runId
    cdcSessionId := identity.cdcSessionId }

/-- Whether an event with this provenance is an echo; a provenance that is malformed, of another
topology or run, or of too many hops raises. -/
def isEcho (now : String) (identity : CDCEventIdentity) (txId : String) (provDict : PyValue) :
    Except PyRaised Bool :=
  match provDict with
  | .dict data =>
    match CDCOriginProvenance.fromDict now data with
    | .error exc => .error (failure identity .invalidOriginProvenance
        ("[INVALID PROVENANCE] Failed to parse origin provenance for transaction '" ++ txId ++
          "': " ++ exc))
    | .ok prov =>
      if ¬ isText prov.originTopologyId f.topologyId then
        .error (failure identity .topologyIdentityMismatch
          ("[TOPOLOGY MISMATCH] Origin topology '" ++ rt.str prov.originTopologyId ++
            "' does not match local topology '" ++ f.topologyId ++ "'."))
      else if ¬ isText prov.originRunId f.runId then
        .error (failure identity .topologyIdentityMismatch
          ("[RUN MISMATCH] Origin run '" ++ rt.str prov.originRunId ++
            "' does not match local run '" ++ f.runId ++ "'."))
      else do
        if ← exceedsHops f.maxHops prov.hopCount then
          .error (failure identity .replicationLoopDetected
            ("[LOOP DETECTED] Bounded hop count exceeded (" ++ rt.str prov.hopCount ++ " > " ++
              intText f.maxHops ++ ") for tx '" ++ txId ++ "'."))
        else
          return isText prov.originDatabaseId f.localDatabaseId ||
            isText prov.akaalWriterId f.akaalWriterId
  | _ => .error (failure identity .invalidOriginProvenance
      ("[INVALID PROVENANCE] Transaction '" ++ txId ++
        "' contains malformed provenance dictionary."))

/-- The loop of `should_suppress_transaction`: an event without provenance is passed over. -/
def suppressEvents (now : String) (identity : CDCEventIdentity) (txId : String) :
    List CDCEvent → Except PyRaised Bool
  | [] => .ok false
  | e :: es => do
      let details ← asDict "details" (orEmptyDict e.details)
      let provDict := getValue details "origin_provenance"
      if isFalsy provDict then suppressEvents now identity txId es
      else if ← f.isEcho rt now identity txId provDict then return true
      else suppressEvents now identity txId es

/-- `should_suppress_transaction`. -/
def shouldSuppressTransaction (now : String) (tx : CDCTransaction) (identity : CDCEventIdentity) :
    Except PyRaised Bool :=
  f.suppressEvents rt now identity tx.txId tx.events

end CDCReplicationLoopFilter

/-! ## The topology manager -/

/-- `CDCReplicationDirection`. -/
inductive CDCReplicationDirection where
  | aToB
  | bToA
  | bidirectional
  deriving DecidableEq

/-- The text of a direction. -/
def CDCReplicationDirection.value : CDCReplicationDirection → String
  | .aToB => "A_TO_B"
  | .bToA => "B_TO_A"
  | .bidirectional => "BIDIRECTIONAL"

/-- `CDCReplicationTopologyState`. -/
inductive CDCReplicationTopologyState where
  | created
  | initializing
  | active
  | paused
  | quiesced
  | degraded
  | recovering
  | failed
  | terminated
  deriving DecidableEq

/-- The text of a state. -/
def CDCReplicationTopologyState.value : CDCReplicationTopologyState → String
  | .created => "CREATED"
  | .initializing => "INITIALIZING"
  | .active => "ACTIVE"
  | .paused => "PAUSED"
  | .quiesced => "QUIESCED"
  | .degraded => "DEGRADED"
  | .recovering => "RECOVERING"
  | .failed => "FAILED"
  | .terminated => "TERMINATED"

/-- `CDCBirectionalTopologyManager`, with the keys its quarantine manager holds. -/
structure CDCBirectionalTopologyManager where
  identity : CDCEventIdentity
  sourceADatabaseId : String
  sourceBDatabaseId : String
  topologyId : String
  topologyState : CDCReplicationTopologyState
  causalityGraph : CDCCausalityGraphEngine
  quarantinedKeys : List String

namespace CDCBirectionalTopologyManager

variable (rt : DigestRuntime) (m : CDCBirectionalTopologyManager)

/-- `loop_filter_a_to_b`. -/
def loopFilterAToB : CDCReplicationLoopFilter :=
  .new m.sourceADatabaseId m.topologyId m.identity.runId

/-- `loop_filter_b_to_a`. -/
def loopFilterBToA : CDCReplicationLoopFilter :=
  .new m.sourceBDatabaseId m.topologyId m.identity.runId

/-- The filter of a direction. -/
def loopFilter (direction : CDCReplicationDirection) : CDCReplicationLoopFilter :=
  if direction = .aToB then m.loopFilterAToB else m.loopFilterBToA

/-- `is_entity_quarantined`. -/
def isEntityQuarantined (entity : String × String) : Bool :=
  CDCCausalityGraphEngine.historyKey entity ∈ m.quarantinedKeys

/-- `process_incoming_transaction`: the manager, the transaction and the answer afterwards. -/
def processIncomingTransaction (now : String) (tx : CDCTransaction)
    (direction : CDCReplicationDirection) (activeEpoch fencingEpoch : ℤ) :
    CDCBirectionalTopologyManager × CDCTransaction × Except PyRaised (Bool × String) :=
  if ¬ validateFencingToken activeEpoch fencingEpoch then
    (m, tx, .error (CDCReplicationLoopFilter.failure m.identity .staleWorker
      ("[STALE WORKER] Stale fencing epoch " ++ intText fencingEpoch ++ " rejected.")))
  else if m.topologyState = .paused ∨ m.topologyState = .failed then
    (m, tx, .ok (false, "Topology is in '" ++ m.topologyState.value ++ "' state"))
  else
    match (m.loopFilter direction).shouldSuppressTransaction rt now tx m.identity with
    | .error e => (m, tx, .error e)
    | .ok true => (m, tx, .ok (false, "Echo event suppressed by loop filter"))
    | .ok false =>
      match CDCCausalityGraphEngine.extractEntityKeys rt tx with
      | .error e => (m, tx, .error e)
      | .ok keys =>
        match keys.find? m.isEntityQuarantined with
        | some entity => (m, tx, .ok (false, "Entity '" ++ entity.1 ++ ":" ++ entity.2 ++
            "' is quarantined due to unresolved multi-master conflict"))
        | none =>
          match m.causalityGraph.addTransaction rt tx with
          | (graph, .error e) => ({ m with causalityGraph := graph }, tx, .error e)
          | (graph, .ok _) =>
            match (m.loopFilter direction).attachOriginProvenance now tx direction.value with
            | .error e => ({ m with causalityGraph := graph }, tx, .error e)
            | .ok tagged =>
              ({ m with causalityGraph := graph }, tagged, .ok (true, "READY"))

variable {rt m} {now : String} {tx tx' : CDCTransaction} {direction : CDCReplicationDirection}
  {activeEpoch fencingEpoch : ℤ} {identity : CDCEventIdentity}

/-! ## Tagged transactions -/

/-- The details of an event carry a provenance. -/
def Tagged (prov : CDCOriginProvenance) (e : CDCEvent) : Prop :=
  ∃ items, e.details = .dict items ∧
    List.lookup "origin_provenance" items = some (.dict prov.toDict)

theorem attach_isOk_iff {f : CDCReplicationLoopFilter} {text : String} :
    (∃ tagged, f.attachOriginProvenance now tx text = .ok tagged) ↔
      ∀ e ∈ tx.events, ∃ items, e.details = .dict items := by
  have hone : ∀ prov e, (∃ tagged, CDCReplicationLoopFilter.tagEvent prov e = .ok tagged) ↔
      ∃ items, e.details = .dict items := by
    intro prov e
    constructor
    · rintro ⟨tagged, h⟩
      obtain ⟨items, hitems, -⟩ := Traversal.bind_eq_ok_iff.mp h
      cases hdetails : e.details with
      | dict items => exact ⟨items, rfl⟩
      | _ =>
        rw [hdetails] at hitems
        cases hitems
    · rintro ⟨items, hitems⟩
      rw [CDCReplicationLoopFilter.tagEvent, hitems]
      exact ⟨_, rfl⟩
  constructor
  · rintro ⟨tagged, h⟩ e he
    obtain ⟨events, hevents, -⟩ := Traversal.bind_eq_ok_iff.mp h
    obtain ⟨e', -, htag⟩ :=
      Traversal.exists_of_forall₂ (Traversal.mapM_eq_ok_iff.mp hevents) he
    exact (hone _ e).mp ⟨e', htag⟩
  · intro h
    obtain ⟨events, hevents⟩ := Traversal.exists_mapM_eq_ok fun e he =>
      (hone (f.provenance now tx.txId text) e).mpr (h e he)
    refine ⟨{ tx with events := events }, ?_⟩
    rw [CDCReplicationLoopFilter.attachOriginProvenance, hevents]
    rfl

theorem tagged_of_attach {f : CDCReplicationLoopFilter} {text : String}
    (h : f.attachOriginProvenance now tx text = .ok tx') :
    ∀ e ∈ tx'.events, Tagged (f.provenance now tx.txId text) e := by
  obtain ⟨events, hevents, heq⟩ := Traversal.bind_eq_ok_iff.mp h
  cases heq
  intro e he
  obtain ⟨e₀, -, htag⟩ := Traversal.exists_of_forall₂' (Traversal.mapM_eq_ok_iff.mp hevents) he
  obtain ⟨items, -, htagged⟩ := Traversal.bind_eq_ok_iff.mp htag
  cases htagged
  exact ⟨_, rfl, PyDict.lookup_setItem _ _ _⟩

/-- **What a filter makes of a tag** of a filter of the same topology and run: it is an echo
exactly when the filters have the same database or the same writer. -/
theorem isEcho_provenance (rt : DigestRuntime) {f f' : CDCReplicationLoopFilter}
    (htopology : f'.topologyId = f.topologyId) (hrun : f'.runId = f.runId) (hhops : 1 ≤ f.maxHops)
    (tagNow txId tagTxId text : String) :
    f.isEcho rt now identity txId (.dict (f'.provenance tagNow tagTxId text).toDict) =
      .ok (decide (f'.localDatabaseId = f.localDatabaseId) ||
        decide (f'.akaalWriterId = f.akaalWriterId)) := by
  unfold CDCReplicationLoopFilter.isEcho
  simp only [CDCOriginProvenance.fromDict_toDict, CDCReplicationLoopFilter.provenance, isText,
    htopology, hrun, exceedsHops, decide_true, not_true, if_false, ok_bind]
  rw [decide_eq_false (not_lt.mpr hhops)]
  rfl

/-- **When tagged events are suppressed**: when there is one, and the filter takes the tag for an
echo. -/
theorem shouldSuppress_tagged (rt : DigestRuntime) {f f' : CDCReplicationLoopFilter}
    (htopology : f'.topologyId = f.topologyId) (hrun : f'.runId = f.runId) (hhops : 1 ≤ f.maxHops)
    {tagNow tagTxId text : String}
    (htagged : ∀ e ∈ tx.events, Tagged (f'.provenance tagNow tagTxId text) e) :
    f.shouldSuppressTransaction rt now tx identity =
      .ok (decide (tx.events ≠ []) && (decide (f'.localDatabaseId = f.localDatabaseId) ||
        decide (f'.akaalWriterId = f.akaalWriterId))) := by
  have hevents : ∀ events : List CDCEvent,
      (∀ e ∈ events, Tagged (f'.provenance tagNow tagTxId text) e) →
        f.suppressEvents rt now identity tx.txId events =
          .ok (decide (events ≠ []) && (decide (f'.localDatabaseId = f.localDatabaseId) ||
            decide (f'.akaalWriterId = f.akaalWriterId))) := by
    intro events
    induction events with
    | nil =>
      intro _
      rfl
    | cons e es ih =>
      intro h
      obtain ⟨items, hitems, hprov⟩ := h e List.mem_cons_self
      have hrest := ih fun e' he' => h e' (List.mem_cons_of_mem e he')
      have hdetails : orEmptyDict e.details = .dict items := e.details_eq.trans hitems
      have hvalue : getValue items "origin_provenance" =
          .dict (f'.provenance tagNow tagTxId text).toDict := by
        rw [getValue, hprov, Option.getD_some]
      have hfalsy : isFalsy (.dict (f'.provenance tagNow tagTxId text).toDict) = false := rfl
      rw [CDCReplicationLoopFilter.suppressEvents, hdetails, asDict_dict, ok_bind, hvalue]
      simp only [hfalsy, Bool.false_eq_true, if_false]
      rw [isEcho_provenance rt htopology hrun hhops, ok_bind, hrest]
      cases decide (f'.localDatabaseId = f.localDatabaseId) ||
        decide (f'.akaalWriterId = f.akaalWriterId) <;> simp
      rfl
  exact hevents tx.events htagged

/-! ## READY transactions -/

/-- What `process_incoming_transaction` looks at, apart from the loop filter: the epoch, the state
of the topology, the quarantined entities and the causality graph. -/
structure Admits (rt : DigestRuntime) (m : CDCBirectionalTopologyManager) (tx : CDCTransaction)
    (activeEpoch fencingEpoch : ℤ) : Prop where
  epoch : validateFencingToken activeEpoch fencingEpoch = true
  notPaused : m.topologyState ≠ .paused
  notFailed : m.topologyState ≠ .failed
  entities : ∃ keys, CDCCausalityGraphEngine.extractEntityKeys rt tx = .ok keys ∧
    ∀ entity ∈ keys, m.isEntityQuarantined entity = false
  graph : ∃ added, (m.causalityGraph.addTransaction rt tx).2 = .ok added

/-- The transaction is READY: it is admitted, it is no echo, and its events can be tagged. -/
structure IsReady (rt : DigestRuntime) (m : CDCBirectionalTopologyManager) (now : String)
    (tx : CDCTransaction) (direction : CDCReplicationDirection) (activeEpoch fencingEpoch : ℤ) :
    Prop where
  admits : m.Admits rt tx activeEpoch fencingEpoch
  noEcho : (m.loopFilter direction).shouldSuppressTransaction rt now tx m.identity = .ok false
  attached : ∃ tagged,
    (m.loopFilter direction).attachOriginProvenance now tx direction.value = .ok tagged

/-- **When a transaction is READY, and what it becomes**: the causality graph has it, and its
events carry the provenance of the filter.  Otherwise at most the graph changes. -/
theorem processIncomingTransaction_cases (rt : DigestRuntime) (m : CDCBirectionalTopologyManager)
    (now : String) (tx : CDCTransaction) (direction : CDCReplicationDirection)
    (activeEpoch fencingEpoch : ℤ) :
    let result := m.processIncomingTransaction rt now tx direction activeEpoch fencingEpoch
    (m.IsReady rt now tx direction activeEpoch fencingEpoch ∧
      (m.loopFilter direction).attachOriginProvenance now tx direction.value = .ok result.2.1 ∧
        result.2.2 = .ok (true, "READY") ∧ ∃ graph, result.1 = { m with causalityGraph := graph }) ∨
    (¬ m.IsReady rt now tx direction activeEpoch fencingEpoch ∧
      (∀ text, result.2.2 ≠ .ok (true, text)) ∧
        ∃ graph, result.1 = { m with causalityGraph := graph }) := by
  dsimp only
  unfold processIncomingTransaction
  by_cases hepoch : validateFencingToken activeEpoch fencingEpoch = true
  · rw [if_neg (not_not.mpr hepoch)]
    by_cases hstate : m.topologyState = .paused ∨ m.topologyState = .failed
    · rw [if_pos hstate]
      refine .inr ⟨fun h => ?_, fun text h => ?_, m.causalityGraph, rfl⟩
      · exact hstate.elim h.admits.notPaused h.admits.notFailed
      · cases h
    · rw [if_neg hstate]
      split
      · next e hfilter =>
          refine .inr ⟨fun h => ?_, fun text h => ?_, m.causalityGraph, rfl⟩
          · exact absurd (hfilter.symm.trans h.noEcho) (by simp)
          · cases h
      · next hfilter =>
          refine .inr ⟨fun h => ?_, fun text h => ?_, m.causalityGraph, rfl⟩
          · exact absurd (hfilter.symm.trans h.noEcho) (by simp)
          · cases h
      · next hfilter =>
          split
          · next e hkeys =>
              refine .inr ⟨fun h => ?_, fun text h => ?_, m.causalityGraph, rfl⟩
              · obtain ⟨keys, hkeys', -⟩ := h.admits.entities
                exact absurd (hkeys.symm.trans hkeys') (by simp)
              · cases h
          · next keys hkeys =>
              split
              · next entity hfound =>
                  refine .inr ⟨fun h => ?_, fun text h => ?_, m.causalityGraph, rfl⟩
                  · obtain ⟨keys', hkeys', hfree⟩ := h.admits.entities
                    cases hkeys.symm.trans hkeys'
                    have hmem := List.mem_of_find?_eq_some hfound
                    have htrue := List.find?_some hfound
                    rw [hfree entity hmem] at htrue
                    cases htrue
                  · cases h
              · next hnone =>
                  have hfree : ∀ entity ∈ keys, m.isEntityQuarantined entity = false := by
                    intro entity hentity
                    simpa using List.find?_eq_none.mp hnone entity hentity
                  split
                  · next graph e hgraph =>
                      refine .inr ⟨fun h => ?_, fun text h => ?_, graph, rfl⟩
                      · obtain ⟨added, hadded⟩ := h.admits.graph
                        rw [hgraph] at hadded
                        cases hadded
                      · cases h
                  · next graph added hgraph =>
                      have hadmits : m.Admits rt tx activeEpoch fencingEpoch :=
                        ⟨hepoch, fun h => hstate (.inl h), fun h => hstate (.inr h),
                          ⟨keys, hkeys, hfree⟩, ⟨added, by rw [hgraph]⟩⟩
                      split
                      · next e hattach =>
                          refine .inr ⟨fun h => ?_, fun text h => ?_, graph, rfl⟩
                          · obtain ⟨tagged, htagged⟩ := h.attached
                            exact absurd (hattach.symm.trans htagged) (by simp)
                          · cases h
                      · next tagged hattach =>
                          exact .inl ⟨⟨hadmits, hfilter, tagged, hattach⟩, hattach, rfl, graph, rfl⟩
  · rw [if_pos hepoch]
    refine .inr ⟨fun h => hepoch h.admits.epoch, fun text h => ?_, m.causalityGraph, rfl⟩
    cases h

end CDCBirectionalTopologyManager

end CDC
