/-
# The checkpoint frontier tracker

`CDCCheckpointFrontierTracker` of `cdc/sharding/frontier.py`, on the operators the position
classes define.  Where these operators are a total order on the positions at hand, the tracker
is the contiguous frontier of the keys of its positions.

* `keys_register`, `keys_record` : the tracker refines the contiguous frontier.

What a sort does with operators that are not a total order is not determined by the language;
here it is an insertion sort, and the first pair of incomparable positions raises.
-/
import Akaal.CDCCheckpoint
import Akaal.ContiguousFrontier

open ContiguousFrontier

namespace CDC

/-! ## The tracker -/

/-- `CDCCheckpointFrontierTracker`. -/
structure CDCCheckpointFrontierTracker where
  completedPositions : List CDCSourcePosition
  pendingPositions : List CDCSourcePosition
  frontierPosition : Option CDCSourcePosition

/-- The tracker of a session without a record. -/
def CDCCheckpointFrontierTracker.initial : CDCCheckpointFrontierTracker := ⟨[], [], none⟩

/-- `position in positions`. -/
def isIn (position : CDCSourcePosition) (positions : List CDCSourcePosition) : Bool :=
  positions.any fun p => p.eq position

/-- Whether `a < b` holds; an exception counts as false. -/
def precedes (a b : CDCSourcePosition) : Bool :=
  match a.lt b with
  | .ok less => less
  | .error _ => false

/-- `positions.sort()`. -/
def sortPositions (positions : List CDCSourcePosition) :
    Except PyRaised (List CDCSourcePosition) := do
  positions.forM fun a => positions.forM fun b => do
    let _ ← a.lt b
  return positions.insertionSort fun a b => precedes b a = false

/-- `any(p < position for p in positions)`. -/
def anyBefore (position : CDCSourcePosition) : List CDCSourcePosition → Except PyRaised Bool
  | [] => .ok false
  | p :: ps => do
      if ← p.lt position then return true
      else anyBefore position ps

/-- The loop of `record_completed_transaction` over the completed positions. -/
def advanceFrontier (pending : List CDCSourcePosition) :
    Option CDCSourcePosition → List CDCSourcePosition → Except PyRaised (Option CDCSourcePosition)
  | frontier, [] => .ok frontier
  | frontier, position :: positions => do
      if ← anyBefore position pending then return frontier
      else
        let passes ← match frontier with
          | none => pure true
          | some f => position.gt f
        advanceFrontier pending (if passes then some position else frontier) positions

namespace CDCCheckpointFrontierTracker

/-- `register_pending_transaction`; the second component is the exception it raises, if any. -/
def registerPendingTransaction (t : CDCCheckpointFrontierTracker)
    (commitPosition : CDCSourcePosition) :
    CDCCheckpointFrontierTracker × Except PyRaised Unit :=
  if isIn commitPosition t.pendingPositions then (t, .ok ())
  else
    let appended := t.pendingPositions ++ [commitPosition]
    match sortPositions appended with
    | .error e => ({ t with pendingPositions := appended }, .error e)
    | .ok sorted => ({ t with pendingPositions := sorted }, .ok ())

/-- `record_completed_transaction`; the second component is the exception it raises, if any. -/
def recordCompletedTransaction (t : CDCCheckpointFrontierTracker)
    (commitPosition : CDCSourcePosition) :
    CDCCheckpointFrontierTracker × Except PyRaised Unit :=
  let removed := { t with
    pendingPositions := t.pendingPositions.eraseP fun p => p.eq commitPosition }
  let appended := { removed with
    completedPositions := if isIn commitPosition t.completedPositions then t.completedPositions
      else t.completedPositions ++ [commitPosition] }
  match if isIn commitPosition t.completedPositions then .ok t.completedPositions
      else sortPositions (t.completedPositions ++ [commitPosition]) with
  | .error e => (appended, .error e)
  | .ok completed =>
    match advanceFrontier removed.pendingPositions t.frontierPosition completed with
    | .error e => ({ removed with completedPositions := completed }, .error e)
    | .ok frontier =>
      ({ removed with completedPositions := completed, frontierPosition := frontier }, .ok ())

@[simp] theorem frontierPosition_register (t : CDCCheckpointFrontierTracker)
    (commitPosition : CDCSourcePosition) :
    (t.registerPendingTransaction commitPosition).1.frontierPosition = t.frontierPosition := by
  rw [registerPendingTransaction]
  split_ifs
  · rfl
  · dsimp only
    split
    · rfl
    · rfl

end CDCCheckpointFrontierTracker

/-! ## Positions in order -/

/-- The operators of the position classes are a total order on the positions of a set: they
compare the keys. -/
structure PositionOrder (S : Set CDCSourcePosition) {K : Type*} [LinearOrder K]
    (key : CDCSourcePosition → K) : Prop where
  lt : ∀ a ∈ S, ∀ b ∈ S, a.lt b = .ok (decide (key a < key b))
  gt : ∀ a ∈ S, ∀ b ∈ S, a.gt b = .ok (decide (key b < key a))
  eq : ∀ a ∈ S, ∀ b ∈ S, a.eq b = decide (key a = key b)

namespace PositionOrder

variable {S : Set CDCSourcePosition} {K : Type*} [LinearOrder K] {key : CDCSourcePosition → K}

variable {a b p : CDCSourcePosition} {ps : List CDCSourcePosition}

theorem lt_eq_false_iff (hS : PositionOrder S key) (ha : a ∈ S)
    (hb : b ∈ S) : a.lt b = .ok false ↔ key b ≤ key a := by
  rw [hS.lt a ha b hb]
  simp

theorem gt_eq_false_iff (hS : PositionOrder S key) (ha : a ∈ S)
    (hb : b ∈ S) : a.gt b = .ok false ↔ key a ≤ key b := by
  rw [hS.gt a ha b hb]
  simp

theorem precedes_iff (hS : PositionOrder S key) (ha : a ∈ S)
    (hb : b ∈ S) : precedes a b = true ↔ key a < key b := by
  rw [precedes, hS.lt a ha b hb]
  simp

theorem lt_eq_true_iff (hS : PositionOrder S key) (ha : a ∈ S)
    (hb : b ∈ S) : a.lt b = .ok true ↔ key a < key b := by
  rw [hS.lt a ha b hb]
  simp

theorem isIn_iff (hS : PositionOrder S key) (hp : p ∈ S) (hps : ∀ q ∈ ps, q ∈ S) :
    isIn p ps = true ↔ key p ∈ ps.map key := by
  rw [isIn, List.any_eq_true, List.mem_map]
  constructor
  · rintro ⟨q, hq, heq⟩
    rw [hS.eq q (hps q hq) p hp] at heq
    exact ⟨q, hq, of_decide_eq_true heq⟩
  · rintro ⟨q, hq, heq⟩
    refine ⟨q, hq, ?_⟩
    rw [hS.eq q (hps q hq) p hp]
    exact decide_eq_true heq

theorem map_eraseP (hS : PositionOrder S key) (hp : p ∈ S) (hps : ∀ q ∈ ps, q ∈ S) :
    (ps.eraseP fun q => q.eq p).map key = (ps.map key).erase (key p) := by
  induction ps with
  | nil => rfl
  | cons q qs ih =>
    obtain ⟨hq, hqs⟩ := List.forall_mem_cons.mp hps
    rw [List.eraseP_cons, hS.eq q hq p hp, List.map_cons, List.erase_cons]
    by_cases h : key q = key p
    · simp [h]
    · simp [h, ih hqs]

theorem forM_eq_ok {α : Type} {f : α → Except PyRaised Unit} {l : List α}
    (h : ∀ a ∈ l, f a = .ok ()) : l.forM f = .ok () := by
  induction l with
  | nil => rfl
  | cons a l ih =>
    show (f a >>= fun _ => l.forM f) = .ok ()
    rw [h a List.mem_cons_self, ok_bind]
    exact ih fun b hb => h b (List.mem_cons_of_mem a hb)

/-- Sorting positions sorts their keys. -/
theorem sortPositions_eq (hS : PositionOrder S key) (hps : ∀ q ∈ ps, q ∈ S) :
    ∃ sorted, sortPositions ps = .ok sorted ∧ (∀ q ∈ sorted, q ∈ S) ∧
      sorted.map key = (ps.map key).insertionSort (· ≤ ·) := by
  have hchecks : (ps.forM fun a => ps.forM fun b => do
      let _ ← a.lt b) = .ok () := by
    apply forM_eq_ok
    intro a ha
    apply forM_eq_ok
    intro b hb
    rw [hS.lt a (hps a ha) b (hps b hb)]
    rfl
  refine ⟨ps.insertionSort fun a b => precedes b a = false, ?_, ?_, ?_⟩
  · rw [sortPositions, hchecks]
    rfl
  · intro q hq
    exact hps q ((List.mem_insertionSort _).mp hq)
  · apply List.map_insertionSort
    intro a ha b hb
    rw [precedes, hS.lt b (hps b hb) a (hps a ha)]
    simp

theorem anyBefore_eq (hS : PositionOrder S key) (hp : p ∈ S) (hps : ∀ q ∈ ps, q ∈ S) :
    anyBefore p ps = .ok ((ps.map key).any fun k => decide (k < key p)) := by
  induction ps with
  | nil => rfl
  | cons q qs ih =>
    obtain ⟨hq, hqs⟩ := List.forall_mem_cons.mp hps
    rw [anyBefore, hS.lt q hq p hp, ok_bind, ih hqs, List.map_cons, List.any_cons]
    by_cases h : key q < key p
    · simp [h]
      rfl
    · simp [h]

/-- The key of a frontier. -/
def frontierKey (key : CDCSourcePosition → K) : Option CDCSourcePosition → WithBot K
  | none => ⊥
  | some f => (key f : WithBot K)

/-- A position is not after a frontier when its key is not above the key of the frontier. -/
theorem reaches_iff (hS : PositionOrder S key) {frontier : Option CDCSourcePosition}
    (hfrontier : ∀ f ∈ frontier, f ∈ S) (hp : p ∈ S) :
    (∃ f, frontier = some f ∧ p.gt f = .ok false) ↔
      (key p : WithBot K) ≤ frontierKey key frontier := by
  cases frontier with
  | none => simp [frontierKey]
  | some f =>
    simp only [Option.some.injEq, exists_eq_left', frontierKey, WithBot.coe_le_coe]
    exact hS.gt_eq_false_iff hp (hfrontier f rfl)

/-- The loop over the completed positions is the loop over their keys. -/
theorem advanceFrontier_eq (hS : PositionOrder S key) {pending : List CDCSourcePosition}
    (hpending : ∀ q ∈ pending, q ∈ S) {completed : List CDCSourcePosition}
    (hcompleted : ∀ q ∈ completed, q ∈ S) {frontier : Option CDCSourcePosition}
    (hfrontier : ∀ f ∈ frontier, f ∈ S) :
    ∃ frontier', advanceFrontier pending frontier completed = .ok frontier' ∧
      (∀ f ∈ frontier', f ∈ S) ∧
      frontierKey key frontier' =
        advance (pending.map key) (frontierKey key frontier) (completed.map key) := by
  induction completed generalizing frontier with
  | nil => exact ⟨frontier, rfl, hfrontier, rfl⟩
  | cons c cs ih =>
    obtain ⟨hc, hcs⟩ := List.forall_mem_cons.mp hcompleted
    rw [advanceFrontier, hS.anyBefore_eq hc hpending, ok_bind, List.map_cons, advance]
    split_ifs with hany
    · exact ⟨frontier, rfl, hfrontier, rfl⟩
    · cases frontier with
      | none =>
        obtain ⟨frontier', hrun, hmem, hkey⟩ :=
          ih hcs (fun f hf => by cases hf; exact hc : ∀ f ∈ some c, f ∈ S)
        refine ⟨frontier', hrun, hmem, ?_⟩
        rw [hkey]
        simp [frontierKey]
      | some f =>
        have hf : f ∈ S := hfrontier f rfl
        simp only [hS.gt c hc f hf, ok_bind]
        by_cases hlt : key f < key c
        · obtain ⟨frontier', hrun, hmem, hkey⟩ :=
            ih hcs (fun g hg => by cases hg; exact hc : ∀ g ∈ some c, g ∈ S)
          refine ⟨frontier', by simpa [hlt] using hrun, hmem, ?_⟩
          rw [hkey]
          simp [frontierKey, max_eq_right (WithBot.coe_le_coe.mpr hlt.le)]
        · obtain ⟨frontier', hrun, hmem, hkey⟩ := ih hcs hfrontier
          refine ⟨frontier', by simpa [hlt] using hrun, hmem, ?_⟩
          rw [hkey]
          simp [frontierKey, max_eq_left (WithBot.coe_le_coe.mpr (not_lt.mp hlt))]

end PositionOrder

/-! ## Refinement -/

namespace CDCCheckpointFrontierTracker

/-- The positions of the tracker are in the set. -/
structure Within (S : Set CDCSourcePosition) (t : CDCCheckpointFrontierTracker) : Prop where
  completed : ∀ p ∈ t.completedPositions, p ∈ S
  pending : ∀ p ∈ t.pendingPositions, p ∈ S
  frontier : ∀ p ∈ t.frontierPosition, p ∈ S

/-- The keys of a tracker: a contiguous frontier. -/
def keys {K : Type*} (key : CDCSourcePosition → K) (t : CDCCheckpointFrontierTracker) :
    Tracker K where
  completed := t.completedPositions.map key
  pending := t.pendingPositions.map key
  frontier := PositionOrder.frontierKey key t.frontierPosition

variable {S : Set CDCSourcePosition} {K : Type*} [LinearOrder K] {key : CDCSourcePosition → K}

/-- **Registering refines the contiguous frontier.** -/
theorem keys_register (hS : PositionOrder S key) {t : CDCCheckpointFrontierTracker}
    (ht : t.Within S) {p : CDCSourcePosition} (hp : p ∈ S) :
    (t.registerPendingTransaction p).2 = .ok () ∧ (t.registerPendingTransaction p).1.Within S ∧
      (t.registerPendingTransaction p).1.keys key = (t.keys key).register (key p) := by
  rw [registerPendingTransaction]
  by_cases hin : isIn p t.pendingPositions = true
  · have hmem : key p ∈ (t.keys key).pending := (hS.isIn_iff hp ht.pending).mp hin
    rw [if_pos hin]
    refine ⟨rfl, ht, ?_⟩
    rw [Tracker.register, if_pos hmem]
  · have hmem : key p ∉ (t.keys key).pending :=
      fun h => hin ((hS.isIn_iff hp ht.pending).mpr h)
    have happended : ∀ q ∈ t.pendingPositions ++ [p], q ∈ S := by
      intro q hq
      rcases List.mem_append.mp hq with hq | hq
      · exact ht.pending q hq
      · rw [List.mem_singleton] at hq
        exact hq ▸ hp
    obtain ⟨sorted, hsorted, hsortedS, hkeys⟩ := hS.sortPositions_eq happended
    rw [if_neg hin]
    simp only [hsorted]
    refine ⟨trivial, ⟨ht.completed, hsortedS, ht.frontier⟩, ?_⟩
    rw [Tracker.register, if_neg hmem]
    simp [keys, hkeys]

/-- **Recording a completion refines the contiguous frontier.** -/
theorem keys_record (hS : PositionOrder S key) {t : CDCCheckpointFrontierTracker}
    (ht : t.Within S) {p : CDCSourcePosition} (hp : p ∈ S) :
    (t.recordCompletedTransaction p).2 = .ok () ∧ (t.recordCompletedTransaction p).1.Within S ∧
      (t.recordCompletedTransaction p).1.keys key = (t.keys key).complete (key p) := by
  have hpending : ∀ q ∈ t.pendingPositions.eraseP fun q => q.eq p, q ∈ S :=
    fun q hq => ht.pending q (List.mem_of_mem_eraseP hq)
  -- The completed positions afterwards, with their keys.
  obtain ⟨completed, hcompleted, hcompletedS, hkeys⟩ : ∃ completed,
      (if isIn p t.completedPositions = true then .ok t.completedPositions
        else sortPositions (t.completedPositions ++ [p])) = .ok completed ∧
      (∀ q ∈ completed, q ∈ S) ∧
      completed.map key = if key p ∈ t.completedPositions.map key then
          t.completedPositions.map key
        else (t.completedPositions.map key ++ [key p]).insertionSort (· ≤ ·) := by
    by_cases hin : isIn p t.completedPositions = true
    · have hmem := (hS.isIn_iff hp ht.completed).mp hin
      exact ⟨t.completedPositions, if_pos hin, ht.completed, (if_pos hmem).symm⟩
    · have hmem : key p ∉ t.completedPositions.map key :=
        fun h => hin ((hS.isIn_iff hp ht.completed).mpr h)
      have happended : ∀ q ∈ t.completedPositions ++ [p], q ∈ S := by
        intro q hq
        rcases List.mem_append.mp hq with hq | hq
        · exact ht.completed q hq
        · rw [List.mem_singleton] at hq
          exact hq ▸ hp
      obtain ⟨sorted, hsorted, hsortedS, hkeys⟩ := hS.sortPositions_eq happended
      refine ⟨sorted, by rw [if_neg hin, hsorted], hsortedS, ?_⟩
      rw [if_neg hmem, hkeys, List.map_append, List.map_singleton]
  obtain ⟨frontier, hfrontier, hfrontierS, hkey⟩ :=
    hS.advanceFrontier_eq hpending hcompletedS ht.frontier
  rw [recordCompletedTransaction]
  simp only [hcompleted, hfrontier]
  refine ⟨trivial, ⟨hcompletedS, hpending, hfrontierS⟩, ?_⟩
  simp only [keys, Tracker.complete, hkey, hkeys, hS.map_eraseP hp ht.pending]
  rfl

end CDCCheckpointFrontierTracker

end CDC
