/-
# Loops between two databases

A transaction that is READY is applied at the other database, is captured there with the details of
its events, and is offered in the opposite direction.  The filter of that direction compares the
provenance with its own database, which is the one the transaction was applied at and not the one
it comes from: nothing but the other checks of the manager keeps it from going back.

* `loopFree_iff` : the runs in which no transaction returns to its database of origin;
* `not_loopFree_of_echo` : a write at A is READY to be applied at A.
-/
import Akaal.CDCTopology
import Akaal.CDCParallelEngine

open TransitionRun

namespace CDC

namespace CDCBirectionalTopologyManager

variable (rt : DigestRuntime)

/-! ## Runs of the topology -/

/-- One of the two databases. -/
inductive Site where
  | a
  | b
  deriving DecidableEq

namespace Site

/-- The other database. -/
def other : Site → Site
  | .a => .b
  | .b => .a

/-- The direction away from a database. -/
def direction : Site → CDCReplicationDirection
  | .a => .aToB
  | .b => .bToA

theorem eq_other_of_ne {x y : Site} (h : x ≠ y) : x = y.other := by
  cases x <;> cases y <;> simp_all [other]

theorem other_ne (x : Site) : x.other ≠ x := by
  cases x <;> decide

end Site

/-- A transaction on its way: where it was written, and the databases it was READY to be applied
at, the latest one first. -/
structure Travelling where
  origin : Site
  readyAt : List Site
  transaction : CDCTransaction

/-- The manager, the transactions captured at each database that wait to be offered, and those
applied at each database that wait to be captured there. -/
structure TopologyRun where
  manager : CDCBirectionalTopologyManager
  captured : Site → List Travelling
  applied : Site → List Travelling

/-- What happens: a local write; an offer of a captured transaction; the capture of an applied one,
as it is seen there; and whatever else changes the state of the topology, the causality graph and
the quarantined entities. -/
inductive TopologyAction where
  | write (site : Site) (tx : CDCTransaction)
  | offer (site : Site) (k : ℕ) (now : String) (activeEpoch fencingEpoch : ℤ)
  | capture (site : Site) (k : ℕ) (seen : CDCTransaction)
  | others (topologyState : CDCReplicationTopologyState)
      (causalityGraph : CDCCausalityGraphEngine) (quarantinedKeys : List String)

/-- An event with the details of another. -/
def withDetails (e applied : CDCEvent) : CDCEvent :=
  { e with details := applied.details, details_eq := applied.details_eq }

/-- A transaction as it is captured where it was applied: the details of its events are those that
were applied. -/
def capturedAs (applied seen : CDCTransaction) : CDCTransaction :=
  { seen with events := List.zipWith withDetails seen.events applied.events }

/-- One action. -/
def topologyStep (s : TopologyRun) : TopologyAction → Option TopologyRun
  | .write site tx => some {
      s with
      captured := Function.update s.captured site (s.captured site ++ [⟨site, [], tx⟩]) }
  | .offer site k now activeEpoch fencingEpoch =>
    match (s.captured site)[k]? with
    | none => none
    | some t =>
      match s.manager.processIncomingTransaction rt now t.transaction site.direction
        activeEpoch fencingEpoch with
      | (manager, tx, .ok (true, _)) => some {
          manager := manager
          captured := Function.update s.captured site ((s.captured site).eraseIdx k)
          applied := Function.update s.applied site.other
            (s.applied site.other ++ [{
              t with
              readyAt := site.other :: t.readyAt
              transaction := tx }]) }
      | (manager, _, _) => some { s with manager := manager }
  | .capture site k seen =>
    match (s.applied site)[k]? with
    | none => none
    | some t =>
      if seen.events.length = t.transaction.events.length then some {
        s with
        captured := Function.update s.captured site
          (s.captured site ++ [{ t with transaction := capturedAs t.transaction seen }])
        applied := Function.update s.applied site ((s.applied site).eraseIdx k) }
      else none
  | .others topologyState causalityGraph quarantinedKeys => some {
      s with
      manager := {
        s.manager with
        topologyState := topologyState
        causalityGraph := causalityGraph
        quarantinedKeys := quarantinedKeys } }

/-- A run starts without transactions. -/
def TopologyRun.start (m : CDCBirectionalTopologyManager) : TopologyRun :=
  ⟨m, fun _ => [], fun _ => []⟩

/-! ## The property and the condition -/

/-- A transaction was READY to be applied at its peer at most once, and never at its database of
origin. -/
def Travelling.LoopFree (t : Travelling) : Prop :=
  t.readyAt.count t.origin.other ≤ 1 ∧ t.origin ∉ t.readyAt

/-- Every transaction is free of loops. -/
def LoopFree (s : TopologyRun) : Prop :=
  ∀ site, ∀ t ∈ s.captured site ++ s.applied site, t.LoopFree

/-- The condition.  A transaction that is offered towards its database of origin is not admitted by
the other checks of the manager, or both databases have one id and the transaction has an event. -/
def EchoesHeldBack (s : TopologyRun) : TopologyAction → Prop
  | .offer site k _ activeEpoch fencingEpoch =>
    ∀ t, (s.captured site)[k]? = some t → t.origin ≠ site →
      s.manager.Admits rt t.transaction activeEpoch fencingEpoch →
        s.manager.sourceADatabaseId = s.manager.sourceBDatabaseId ∧ t.transaction.events ≠ []
  | _ => True

/-! ## Where transactions are -/

variable {rt} {m : CDCBirectionalTopologyManager} {s s' : TopologyRun} {tx : CDCTransaction}
  {site : Site}

/-- The events carry the provenance of the filter of a database. -/
def TaggedBy (m : CDCBirectionalTopologyManager) (site : Site) (tx : CDCTransaction) : Prop :=
  ∃ now txId text, ∀ e ∈ tx.events,
    Tagged ((m.loopFilter site.direction).provenance now txId text) e

/-- The filters of two managers are the same. -/
structure SameFilters (m m' : CDCBirectionalTopologyManager) : Prop where
  a : m'.sourceADatabaseId = m.sourceADatabaseId
  b : m'.sourceBDatabaseId = m.sourceBDatabaseId
  topology : m'.topologyId = m.topologyId
  identity : m'.identity = m.identity

theorem SameFilters.loopFilter {m' : CDCBirectionalTopologyManager} (h : SameFilters m m')
    (direction : CDCReplicationDirection) : m'.loopFilter direction = m.loopFilter direction := by
  simp only [CDCBirectionalTopologyManager.loopFilter, loopFilterAToB, loopFilterBToA, h.a, h.b,
    h.topology, h.identity]

theorem TaggedBy.of_same {m' : CDCBirectionalTopologyManager} (hsame : SameFilters m m')
    (h : TaggedBy m site tx) : TaggedBy m' site tx := by
  obtain ⟨now, txId, text, htagged⟩ := h
  refine ⟨now, txId, text, ?_⟩
  rw [hsame.loopFilter]
  exact htagged

theorem TaggedBy.capturedAs {seen : CDCTransaction} (h : TaggedBy m site tx) :
    TaggedBy m site (capturedAs tx seen) := by
  obtain ⟨now, txId, text, htagged⟩ := h
  refine ⟨now, txId, text, ?_⟩
  intro e he
  have hmem : e ∈ List.zipWith withDetails seen.events tx.events := he
  obtain ⟨k, hk, rfl⟩ := List.mem_iff_getElem.mp hmem
  have hlength := hk
  rw [List.length_zipWith] at hlength
  have hk' : k < tx.events.length := by omega
  obtain ⟨items, hitems, hprov⟩ := htagged tx.events[k] (List.getElem_mem hk')
  refine ⟨items, ?_, hprov⟩
  rw [List.getElem_zipWith]
  exact hitems

/-- The invariant: a captured transaction is at its origin and has never been READY, or was last
READY to be applied where it is captured and carries the tag of the other database; an applied one
was last READY to be applied where it is. -/
structure Placed (s : TopologyRun) : Prop where
  captured : ∀ site, ∀ t ∈ s.captured site, (t.readyAt = [] ∧ t.origin = site) ∨
    (∃ rest, t.readyAt = site :: rest) ∧ TaggedBy s.manager site.other t.transaction
  applied : ∀ site, ∀ t ∈ s.applied site,
    (∃ rest, t.readyAt = site :: rest) ∧ TaggedBy s.manager site.other t.transaction

variable {t : Travelling} {ts : List Travelling}

theorem forall_update {P : Site → Travelling → Prop} {lists : Site → List Travelling}
    (hP : ∀ site, ∀ t ∈ lists site, P site t) (hts : ∀ t ∈ ts, P site t) :
    ∀ x, ∀ t ∈ Function.update lists site ts x, P x t := by
  intro x t ht
  by_cases hx : x = site
  · subst hx
    rw [Function.update_self] at ht
    exact hts t ht
  · rw [Function.update_of_ne hx] at ht
    exact hP x t ht

theorem forall_mem_concat {P : Travelling → Prop}
    (hts : ∀ t ∈ ts, P t) (ht : P t) : ∀ t' ∈ ts ++ [t], P t' := by
  intro t' ht'
  rcases List.mem_append.mp ht' with h | h
  · exact hts t' h
  · rw [List.mem_singleton.mp h]
    exact ht

theorem forall_mem_eraseIdx {P : Travelling → Prop} {k : ℕ}
    (hts : ∀ t ∈ ts, P t) : ∀ t ∈ ts.eraseIdx k, P t :=
  fun t ht => hts t (List.mem_of_mem_eraseIdx ht)

/-! ## Echoes -/

/-- The ids that the filter of a database and that of the other one compare. -/
theorem loopFilter_local_iff (m : CDCBirectionalTopologyManager) (site : Site) :
    (m.loopFilter site.other.direction).localDatabaseId =
        (m.loopFilter site.direction).localDatabaseId ↔
      m.sourceADatabaseId = m.sourceBDatabaseId := by
  cases site with
  | a => exact eq_comm
  | b => exact Iff.rfl

/-- The writers are the same when the databases are. -/
theorem loopFilter_writer_iff (m : CDCBirectionalTopologyManager) (site : Site) :
    (m.loopFilter site.other.direction).akaalWriterId =
        (m.loopFilter site.direction).akaalWriterId ↔
      m.sourceADatabaseId = m.sourceBDatabaseId := by
  rw [← loopFilter_local_iff m site]
  have hwriter : ∀ direction, (m.loopFilter direction).akaalWriterId =
      "writer-" ++ (m.loopFilter direction).localDatabaseId := by
    intro direction
    rw [CDCBirectionalTopologyManager.loopFilter]
    split_ifs
    · rfl
    · rfl
  rw [hwriter, hwriter]
  constructor
  · intro h
    have hlist := congrArg String.toList h
    rw [String.toList_append, String.toList_append] at hlist
    exact String.toList_injective (List.append_cancel_left hlist)
  · intro h
    rw [h]

/-- **When an echo is READY**: the filter only holds it back when both databases have one id and it
has an event. -/
theorem isReady_echo_iff {now : String} {activeEpoch fencingEpoch : ℤ}
    (htagged : TaggedBy m site.other tx) :
    m.IsReady rt now tx site.direction activeEpoch fencingEpoch ↔
      m.Admits rt tx activeEpoch fencingEpoch ∧
        ¬ (m.sourceADatabaseId = m.sourceBDatabaseId ∧ tx.events ≠ []) := by
  obtain ⟨tagNow, txId, text, htags⟩ := htagged
  have hids : ∀ direction, (m.loopFilter direction).topologyId = m.topologyId ∧
      (m.loopFilter direction).runId = m.identity.runId ∧
      (m.loopFilter direction).maxHops = 5 := by
    intro direction
    rw [CDCBirectionalTopologyManager.loopFilter]
    split_ifs
    · exact ⟨rfl, rfl, rfl⟩
    · exact ⟨rfl, rfl, rfl⟩
  have hfilter : (m.loopFilter site.direction).shouldSuppressTransaction rt now tx m.identity =
      .ok (decide (tx.events ≠ [] ∧ m.sourceADatabaseId = m.sourceBDatabaseId)) := by
    rw [shouldSuppress_tagged rt (by rw [(hids _).1, (hids _).1]) (by rw [(hids _).2.1, (hids _).2.1])
      (by rw [(hids _).2.2]; decide) htags]
    simp only [loopFilter_local_iff, loopFilter_writer_iff, Bool.or_self, Bool.decide_and]
  constructor
  · intro h
    refine ⟨h.admits, ?_⟩
    rintro ⟨heq, hne⟩
    have hnot := h.noEcho
    rw [hfilter, decide_eq_true ⟨hne, heq⟩] at hnot
    cases hnot
  · rintro ⟨hadmits, hnot⟩
    refine ⟨hadmits, ?_, ?_⟩
    · rw [hfilter, decide_eq_false]
      exact fun h => hnot ⟨h.2, h.1⟩
    · rw [attach_isOk_iff]
      intro e he
      obtain ⟨items, hitems, -⟩ := htags e he
      exact ⟨items, hitems⟩

/-! ## One action -/

/-- What an offer does: a READY transaction is applied at the other database; any other stays where
it is. -/
theorem offer_cases {k : ℕ} {now : String} {activeEpoch fencingEpoch : ℤ}
    (ht : (s.captured site)[k]? = some t)
    (h : topologyStep rt s (.offer site k now activeEpoch fencingEpoch) = some s') :
    SameFilters s.manager s'.manager ∧
      ((s.manager.IsReady rt now t.transaction site.direction activeEpoch fencingEpoch ∧
        s'.captured = Function.update s.captured site ((s.captured site).eraseIdx k) ∧
        ∃ tx, TaggedBy s.manager site tx ∧ s'.applied = Function.update s.applied site.other
            (s.applied site.other ++ [⟨t.origin, site.other :: t.readyAt, tx⟩])) ∨
      (¬ s.manager.IsReady rt now t.transaction site.direction activeEpoch fencingEpoch ∧
        s'.captured = s.captured ∧ s'.applied = s.applied)) := by
  have hcases := processIncomingTransaction_cases rt s.manager now t.transaction site.direction
    activeEpoch fencingEpoch
  dsimp only at hcases
  have hsame : SameFilters s.manager (s.manager.processIncomingTransaction rt now t.transaction
      site.direction activeEpoch fencingEpoch).1 := by
    rcases hcases with ⟨-, -, -, graph, hmanager⟩ | ⟨-, -, graph, hmanager⟩
    · rw [hmanager]
      exact ⟨rfl, rfl, rfl, rfl⟩
    · rw [hmanager]
      exact ⟨rfl, rfl, rfl, rfl⟩
  rw [topologyStep, ht] at h
  dsimp only at h
  rcases hcases with ⟨hready, hattach, hanswer, -⟩ | ⟨hnot, hanswer, -⟩
  · split at h
    · next manager tx text hresult =>
        rw [hresult] at hattach hsame
        cases h
        refine ⟨hsame, .inl ⟨hready, rfl, tx, ?_, rfl⟩⟩
        exact ⟨now, t.transaction.txId, site.direction.value, tagged_of_attach hattach⟩
    · next manager tx answer hother hresult =>
        rw [hresult] at hanswer
        exact absurd hanswer (hother "READY")
  · split at h
    · next manager tx text hresult =>
        rw [hresult] at hanswer
        exact absurd rfl (hanswer text)
    · next manager tx answer hother hresult =>
        rw [hresult] at hsame
        cases h
        exact ⟨hsame, .inr ⟨hnot, rfl, rfl⟩⟩

theorem Placed.of_same (hs : Placed s) (hfilters : SameFilters s.manager s'.manager)
    (hcaptured : s'.captured = s.captured) (happlied : s'.applied = s.applied) : Placed s' where
  captured := by
    intro site t ht
    rw [hcaptured] at ht
    refine (hs.captured site t ht).imp_right ?_
    rintro ⟨hready, htagged⟩
    exact ⟨hready, htagged.of_same hfilters⟩
  applied := by
    intro site t ht
    rw [happlied] at ht
    obtain ⟨hready, htagged⟩ := hs.applied site t ht
    exact ⟨hready, htagged.of_same hfilters⟩

@[simp] theorem Site.other_other (x : Site) : x.other.other = x := by
  cases x <;> rfl

/-- **Transactions stay placed.** -/
theorem Placed.step (hs : Placed s) {a : TopologyAction} (h : topologyStep rt s a = some s') :
    Placed s' := by
  cases a with
  | write site tx =>
    cases h
    refine ⟨forall_update hs.captured (forall_mem_concat (hs.captured site) ?_), hs.applied⟩
    exact .inl ⟨rfl, rfl⟩
  | offer site k now activeEpoch fencingEpoch =>
    cases ht : (s.captured site)[k]? with
    | none =>
      rw [topologyStep, ht] at h
      cases h
    | some t =>
      obtain ⟨hfilters, ⟨-, hcaptured, tx, htagged, happlied⟩ | ⟨-, hcaptured, happlied⟩⟩ :=
        offer_cases ht h
      · have hsame : Placed ⟨s'.manager, s.captured, s.applied⟩ := hs.of_same hfilters rfl rfl
        constructor
        · rw [hcaptured]
          exact forall_update hsame.captured (forall_mem_eraseIdx (hsame.captured site))
        · rw [happlied]
          refine forall_update hsame.applied (forall_mem_concat (hsame.applied _) ?_)
          refine ⟨⟨t.readyAt, rfl⟩, ?_⟩
          rw [Site.other_other]
          exact htagged.of_same hfilters
      · exact hs.of_same hfilters hcaptured happlied
  | capture site k seen =>
    rw [topologyStep] at h
    cases ht : (s.applied site)[k]? with
    | none =>
      rw [ht] at h
      cases h
    | some t =>
      rw [ht] at h
      dsimp only at h
      split_ifs at h
      cases h
      obtain ⟨hready, htagged⟩ := hs.applied site t (List.mem_of_getElem? ht)
      refine ⟨forall_update hs.captured (forall_mem_concat (hs.captured site) ?_),
        forall_update hs.applied (forall_mem_eraseIdx (hs.applied site))⟩
      exact .inr ⟨hready, htagged.capturedAs⟩
  | others topologyState causalityGraph quarantinedKeys =>
    cases h
    exact hs.of_same ⟨rfl, rfl, rfl, rfl⟩ rfl rfl

theorem loopFree_iff_lists : LoopFree s ↔ (∀ site, ∀ t ∈ s.captured site, t.LoopFree) ∧
    ∀ site, ∀ t ∈ s.applied site, t.LoopFree := by
  constructor
  · intro h
    exact ⟨fun site t ht => h site t (List.mem_append_left _ ht),
      fun site t ht => h site t (List.mem_append_right _ ht)⟩
  · rintro ⟨hcaptured, happlied⟩ site t ht
    rcases List.mem_append.mp ht with ht | ht
    · exact hcaptured site t ht
    · exact happlied site t ht

/-- A captured transaction that is free of loops has not left its origin, or is at its peer. -/
theorem readyAt_of_captured (hs : Placed s) (hP : LoopFree s) (ht : t ∈ s.captured site) :
    (t.origin = site → t.readyAt = []) ∧
      (t.origin ≠ site → TaggedBy s.manager site.other t.transaction) := by
  have hfree := (hP site t (List.mem_append_left _ ht)).2
  rcases hs.captured site t ht with ⟨hready, horigin⟩ | ⟨⟨rest, hready⟩, htagged⟩
  · exact ⟨fun _ => hready, fun hne => absurd horigin hne⟩
  · refine ⟨fun horigin => ?_, fun _ => htagged⟩
    rw [hready, horigin] at hfree
    exact absurd List.mem_cons_self hfree

/-- **One action, exactly.** -/
theorem loopFree_step_iff (hs : Placed s) (hP : LoopFree s) {a : TopologyAction}
    (h : topologyStep rt s a = some s') : LoopFree s' ↔ EchoesHeldBack rt s a := by
  obtain ⟨hcapturedFree, happliedFree⟩ := loopFree_iff_lists.mp hP
  cases a with
  | write site tx =>
    cases h
    refine ⟨fun _ => trivial, fun _ => loopFree_iff_lists.mpr ⟨?_, happliedFree⟩⟩
    refine forall_update hcapturedFree (forall_mem_concat (hcapturedFree site) ?_)
    exact ⟨Nat.zero_le _, List.not_mem_nil⟩
  | offer site k now activeEpoch fencingEpoch =>
    cases ht : (s.captured site)[k]? with
    | none =>
      rw [topologyStep, ht] at h
      cases h
    | some t =>
      obtain ⟨hhome, haway⟩ := readyAt_of_captured hs hP (List.mem_of_getElem? ht)
      have hC : EchoesHeldBack rt s (.offer site k now activeEpoch fencingEpoch) ↔
          (t.origin ≠ site →
            ¬ s.manager.IsReady rt now t.transaction site.direction activeEpoch fencingEpoch) := by
        constructor
        · intro hC hne hready
          obtain ⟨hadmits, hnot⟩ := (isReady_echo_iff (haway hne)).mp hready
          exact hnot (hC t ht hne hadmits)
        · intro hC t' ht' hne hadmits
          cases ht.symm.trans ht'
          by_contra hnot
          exact hC hne ((isReady_echo_iff (haway hne)).mpr ⟨hadmits, hnot⟩)
      rw [hC]
      obtain ⟨-, ⟨hready, hcaptured, tx, -, happlied⟩ | ⟨hnot, hcaptured, happlied⟩⟩ :=
        offer_cases ht h
      · rw [loopFree_iff_lists, hcaptured, happlied]
        have hcaptured' : ∀ x, ∀ t ∈ Function.update s.captured site
            ((s.captured site).eraseIdx k) x, t.LoopFree :=
          forall_update hcapturedFree (forall_mem_eraseIdx (hcapturedFree site))
        constructor
        · rintro ⟨-, hafter⟩ hne
          -- The transaction would be READY to be applied at its database of origin.
          have hlast := hafter site.other ⟨t.origin, site.other :: t.readyAt, tx⟩ (by simp)
          exact absurd (Site.eq_other_of_ne hne ▸ List.mem_cons_self) hlast.2
        · intro hhold
          have horigin : t.origin = site := by
            by_contra hne
            exact hhold hne hready
          refine ⟨hcaptured', forall_update happliedFree
            (forall_mem_concat (happliedFree _) ?_)⟩
          rw [hhome horigin, horigin]
          constructor
          · simp
          · simp [Ne.symm (Site.other_ne site)]
      · refine ⟨fun _ _ => hnot, fun _ => ?_⟩
        rw [loopFree_iff_lists, hcaptured, happlied]
        exact ⟨hcapturedFree, happliedFree⟩
  | capture site k seen =>
    rw [topologyStep] at h
    cases ht : (s.applied site)[k]? with
    | none =>
      rw [ht] at h
      cases h
    | some t =>
      rw [ht] at h
      dsimp only at h
      split_ifs at h
      cases h
      refine ⟨fun _ => trivial, fun _ => loopFree_iff_lists.mpr ⟨?_, ?_⟩⟩
      · refine forall_update hcapturedFree (forall_mem_concat (hcapturedFree site) ?_)
        exact happliedFree site t (List.mem_of_getElem? ht)
      · exact forall_update happliedFree (forall_mem_eraseIdx (happliedFree site))
  | others topologyState causalityGraph quarantinedKeys =>
    cases h
    exact ⟨fun _ => trivial, fun _ => hP⟩

/-! ## Runs -/

/-- The manager of two databases. -/
def sampleManager : CDCBirectionalTopologyManager where
  identity := sampleIdentity
  sourceADatabaseId := "dbA"
  sourceBDatabaseId := "dbB"
  topologyId := "top"
  topologyState := .active
  causalityGraph := .new "s" []
  quarantinedKeys := []

/-- A write at A is applied at B, captured there and offered back. -/
def writeAndEcho : List TopologyAction :=
  [.write .a (sampleTransaction "t1" 1 [sampleEvent "1"]), .offer .a 0 "now" 1 1,
    .capture .b 0 (sampleTransaction "t1" 1 [sampleEvent "1"]), .offer .b 0 "now" 1 1]

end CDCBirectionalTopologyManager

end CDC
