/-
# Runs of the frontier tracker

The calls `register_pending_transaction` and `record_completed_transaction` of `cdc/sharding/frontier.py`
in any sequence, from a new tracker with or without an initial position, with all that has been
registered and completed so far kept beside the tracker.

* `OrderedOn.exists_key` : positions on which the operators are a total order have keys;
* `advances_of_inOrder` : when positions are registered in increasing order, every call returns, the
  frontier does not go back, and it is the largest completed position below all pending ones.
-/
import Akaal.CDCPositionOrder
import Akaal.TransitionRun

open ContiguousFrontier TransitionRun

namespace CDC

/-! ## Keys of a total order -/

namespace CDCSourcePosition

theorem isAfter_asymm {a b : CDCSourcePosition} (hab : a.isAfter b = .ok true)
    (hba : b.isAfter a = .ok true) : False := by
  cases a <;> cases b <;> simp only [isAfter] at hab hba <;> grind

namespace OrderedOn

variable {S : Set CDCSourcePosition} (hS : OrderedOn S)

include hS

variable {a b : CDCSourcePosition}

theorem lt_of_gt (ha : a ∈ S) (hb : b ∈ S) (h : a.gt b = .ok true) : b.lt a = .ok true := by
  rcases (hS b hb a ha b hb).trichotomy with ⟨hlt, -, -⟩ | ⟨-, heq, -⟩ | ⟨-, -, hgt⟩
  · exact hlt
  · have hafter : a.isAfter b = .ok false := ((hS.eq_iff hb ha).mp heq).2
    rw [gt, hafter] at h
    cases h
  · exact (isAfter_asymm h hgt).elim

theorem lt_or_eq_or_lt (ha : a ∈ S) (hb : b ∈ S) :
    a.lt b = .ok true ∨ a.eq b = true ∨ b.lt a = .ok true := by
  rcases (hS a ha b hb a ha).trichotomy with ⟨hlt, -, -⟩ | ⟨-, heq, -⟩ | ⟨-, -, hgt⟩
  · exact .inl hlt
  · exact .inr (.inl heq)
  · exact .inr (.inr (hS.lt_of_gt ha hb hgt))

theorem eq_eq_false_of_lt (ha : a ∈ S) (hb : b ∈ S) (h : a.lt b = .ok true) : a.eq b = false := by
  rcases (hS a ha b hb a ha).trichotomy with ⟨-, heq, -⟩ | ⟨hlt, -, -⟩ | ⟨hlt, -, -⟩
  · exact heq
  · rw [h] at hlt
    cases hlt
  · rw [h] at hlt
    cases hlt

theorem not_lt_of_lt (ha : a ∈ S) (hb : b ∈ S) (h : a.lt b = .ok true) : ¬ b.lt a = .ok true := by
  intro hba
  have hself := hS.eq_eq_false_of_lt ha ha ((hS a ha b hb a ha).trans h hba)
  rw [eq_self] at hself
  cases hself

theorem not_lt_self (ha : a ∈ S) : ¬ a.lt a = .ok true :=
  fun h => hS.not_lt_of_lt ha ha h h

omit hS in
theorem eq_trans {c : CDCSourcePosition} (hab : a.eq b = true) (hbc : b.eq c = true) :
    a.eq c = true := by
  simp only [eq, Bool.and_eq_true, decide_eq_true_eq] at hab hbc ⊢
  exact ⟨hab.1.trans hbc.1, hab.2.trans hbc.2⟩

theorem lt_of_lt_of_not_lt {c : CDCSourcePosition} (ha : a ∈ S) (hb : b ∈ S) (hc : c ∈ S)
    (hca : c.lt a = .ok true) (hba : ¬ b.lt a = .ok true) : c.lt b = .ok true := by
  rcases hS.lt_or_eq_or_lt hb ha with h | hba' | hab
  · exact absurd h hba
  · rcases hS.lt_or_eq_or_lt hc hb with h | hcb | hbc
    · exact h
    · have hne := hS.eq_eq_false_of_lt hc ha hca
      rw [eq_trans hcb hba'] at hne
      cases hne
    · exact absurd ((hS b hb c hc a ha).trans hbc hca) hba
  · exact (hS c hc a ha b hb).trans hca hab

/-- The positions of the set in the order of the operators. -/
abbrev preorder : Preorder S where
  le a b := ¬ b.1.lt a.1 = .ok true
  le_refl a := hS.not_lt_self a.2
  le_trans a b c hab hbc hca := hbc (hS.lt_of_lt_of_not_lt a.2 b.2 c.2 hca hab)

/-- **Positions on which the operators are a total order have keys** in a linear order. -/
theorem exists_key : ∃ (K : Type) (_ : LinearOrder K) (key : CDCSourcePosition → K),
    PositionOrder S key := by
  classical
  let _ : Preorder S := hS.preorder
  have htotal : @Std.Total S (· ≤ ·) := ⟨fun a b => by
    by_cases h : b.1.lt a.1 = .ok true
    · exact .inr (hS.not_lt_of_lt b.2 a.2 h)
    · exact .inl h⟩
  -- The keys are the positions up to equality; what is outside the set is below them.
  let key : CDCSourcePosition → WithBot (Antisymmetrization S (· ≤ ·)) := fun p =>
    if hp : p ∈ S then (toAntisymmetrization (· ≤ ·) (⟨p, hp⟩ : S) : WithBot _) else ⊥
  have hkey : ∀ {a b}, a ∈ S → b ∈ S → (key a < key b ↔ a.lt b = .ok true) := by
    intro a b ha hb
    simp only [key, dif_pos ha, dif_pos hb]
    rw [WithBot.coe_lt_coe, toAntisymmetrization_lt_toAntisymmetrization_iff]
    constructor
    · exact fun h => not_not.mp h.2
    · exact fun h => ⟨hS.not_lt_of_lt ha hb h, not_not.mpr h⟩
  refine ⟨_, inferInstance, key, ?_, ?_, ?_⟩
  · intro a ha b hb
    rcases (hS a ha b hb a ha).trichotomy with ⟨h, -, -⟩ | ⟨h, -, -⟩ | ⟨h, -, -⟩
    all_goals simp [hkey ha hb, h]
  · intro a ha b hb
    rcases (hS a ha b hb a ha).trichotomy with ⟨h, -, hgt⟩ | ⟨-, h, hgt⟩ | ⟨-, -, hgt⟩
    · simp [hkey hb ha, hgt, hS.not_lt_of_lt ha hb h]
    · have hnot : ¬ b.lt a = .ok true := fun hlt => by
        have hne := hS.eq_eq_false_of_lt hb ha hlt
        rw [eq_comm, h] at hne
        cases hne
      simp [hkey hb ha, hgt, hnot]
    · simp [hkey hb ha, hgt, hS.lt_of_gt ha hb hgt]
  · intro a ha b hb
    rw [Bool.eq_iff_iff, decide_eq_true_iff]
    constructor
    · intro heq
      refine le_antisymm (not_lt.mp fun h => ?_) (not_lt.mp fun h => ?_)
      · have hne := hS.eq_eq_false_of_lt hb ha ((hkey hb ha).mp h)
        rw [eq_comm, heq] at hne
        cases hne
      · have hne := hS.eq_eq_false_of_lt ha hb ((hkey ha hb).mp h)
        rw [heq] at hne
        cases hne
    · intro heq
      rcases hS.lt_or_eq_or_lt ha hb with h | h | h
      · exact absurd heq ((hkey ha hb).mpr h).ne
      · exact h
      · exact absurd heq ((hkey hb ha).mpr h).ne'

end OrderedOn

end CDCSourcePosition

/-! ## Calls -/

/-- A call of the tracker. -/
inductive TrackerCall where
  | register (commitPosition : CDCSourcePosition)
  | complete (commitPosition : CDCSourcePosition)
  deriving DecidableEq

/-- The tracker, with the positions that have been registered and completed at it; the initial
position counts as both. -/
structure TrackerRun where
  tracker : CDCCheckpointFrontierTracker
  registered : List CDCSourcePosition
  completed : List CDCSourcePosition

/-- `CDCCheckpointFrontierTracker(initial_position)`, before the first call. -/
def TrackerRun.start (initialPosition : Option CDCSourcePosition) : TrackerRun where
  tracker := ⟨[], [], initialPosition⟩
  registered := initialPosition.toList
  completed := initialPosition.toList

namespace TrackerRun

/-- What the call does to the tracker, and the exception it raises, if any. -/
def perform (s : TrackerRun) : TrackerCall → CDCCheckpointFrontierTracker × Except PyRaised Unit
  | .register p => s.tracker.registerPendingTransaction p
  | .complete p => s.tracker.recordCompletedTransaction p

/-- The state after the call. -/
def next (s : TrackerRun) (call : TrackerCall) : TrackerRun :=
  match call with
  | .register p => { s with tracker := (s.perform call).1, registered := p :: s.registered }
  | .complete p => { s with tracker := (s.perform call).1, completed := p :: s.completed }

/-- The frontier; after a completion it is what the call returns. -/
def frontier (s : TrackerRun) : Option CDCSourcePosition := s.tracker.frontierPosition

/-- A completed position before all that are registered and have not been completed. -/
def Prefixed (s : TrackerRun) (c : CDCSourcePosition) : Prop :=
  isIn c s.completed = true ∧ ∀ p ∈ s.registered, isIn p s.completed = false → c.lt p = .ok true

/-- What the frontier has to be: it reaches completed positions only, and it is the largest
completed position before all pending ones, if there is one. -/
structure FrontierRight (s : TrackerRun) : Prop where
  reached : ∀ f, s.frontier = some f → ∀ p ∈ s.registered, p.le f = .ok true →
    isIn p s.completed = true
  largest : ∀ f, s.frontier = some f →
    s.Prefixed f ∧ ∀ c ∈ s.completed, s.Prefixed c → c.le f = .ok true
  none : s.frontier = none → ∀ c ∈ s.completed, ¬ s.Prefixed c

/-- What a call does: it returns, it does not set the frontier back, and the frontier is right
after it. -/
structure Advances (s : TrackerRun) (call : TrackerCall) : Prop where
  returns : (s.perform call).2 = .ok ()
  notBack : ∀ f, s.frontier = some f → ∃ f', (s.next call).frontier = some f' ∧ f.le f' = .ok true
  right : (s.next call).FrontierRight

/-- A call in order: a position is registered after those that are before it, and completed after
it has been registered. -/
def InOrder (S : Set CDCSourcePosition) (s : TrackerRun) : TrackerCall → Prop
  | .register p => p ∈ S ∧ ∀ q ∈ s.registered, q.lt p = .ok true
  | .complete p => p ∈ S ∧ isIn p s.registered = true

end TrackerRun

/-- The tracker as a transition system; no call is refused. -/
def trackerStep (s : TrackerRun) (call : TrackerCall) : Option TrackerRun := some (s.next call)

/-! ## The invariant -/

namespace TrackerRun

variable {S : Set CDCSourcePosition} {K : Type} [LinearOrder K] {key : CDCSourcePosition → K}
  {s : TrackerRun}

/-- The keys of the positions of a list. -/
def keySet (key : CDCSourcePosition → K) (ps : List CDCSourcePosition) : Set K :=
  {k | k ∈ ps.map key}

/-- The tracker of a run, by the keys of its positions. -/
structure Tracked (S : Set CDCSourcePosition) (key : CDCSourcePosition → K) (s : TrackerRun) :
    Prop where
  within : s.tracker.Within S
  registered : ∀ p ∈ s.registered, p ∈ S
  completed : ∀ p ∈ s.completed, p ∈ S
  subset : keySet key s.completed ⊆ keySet key s.registered
  tracks : (s.tracker.keys key).Tracks (keySet key s.registered) (keySet key s.completed)

theorem tracked_start (key : CDCSourcePosition → K) {initialPosition : Option CDCSourcePosition}
    (hinitial : ∀ p ∈ initialPosition, p ∈ S) :
    (TrackerRun.start initialPosition).Tracked S key := by
  have hlist : ∀ p ∈ initialPosition.toList, p ∈ S :=
    fun p hp => hinitial p (Option.mem_toList.mp hp)
  refine ⟨⟨fun p hp => absurd hp List.not_mem_nil, fun p hp => absurd hp List.not_mem_nil,
    hinitial⟩, hlist, hlist, subset_refl _, ?_⟩
  refine ⟨⟨List.Pairwise.nil, List.nodup_nil⟩, fun k => ?_, fun k hk => ?_, fun k hk => ?_,
    fun k => ?_⟩
  · constructor
    · exact fun hk => absurd hk List.not_mem_nil
    · exact fun hk => absurd hk.1 hk.2
  · cases initialPosition with
    | none => cases hk
    | some p =>
      obtain rfl : k = key p := List.mem_singleton.mp hk
      exact .inr (le_refl _)
  · exact absurd hk List.not_mem_nil
  · cases initialPosition with
    | none =>
      simp [CDCCheckpointFrontierTracker.keys, TrackerRun.start, PositionOrder.frontierKey, keySet]
    | some p =>
      simp [CDCCheckpointFrontierTracker.keys, TrackerRun.start, PositionOrder.frontierKey, keySet]

omit [LinearOrder K] in
theorem keySet_cons (p : CDCSourcePosition) (ps : List CDCSourcePosition) :
    keySet key (p :: ps) = insert (key p) (keySet key ps) := by
  ext k
  simp [keySet]

theorem isIn_iff (hS : PositionOrder S key) {p : CDCSourcePosition} (hp : p ∈ S)
    {ps : List CDCSourcePosition} (hps : ∀ q ∈ ps, q ∈ S) :
    isIn p ps = true ↔ key p ∈ keySet key ps :=
  hS.isIn_iff hp hps

/-- **A call in order keeps the run tracked**, and returns. -/
theorem Tracked.next (hS : PositionOrder S key) (hs : s.Tracked S key) {call : TrackerCall}
    (hcall : s.InOrder S call) :
    (s.perform call).2 = .ok () ∧ (s.next call).Tracked S key := by
  cases call with
  | register p =>
    obtain ⟨hp, hbefore⟩ := hcall
    obtain ⟨hreturns, hwithin, hkeys⟩ :=
      CDCCheckpointFrontierTracker.keys_register hS hs.within hp
    refine ⟨hreturns, hwithin, List.forall_mem_cons.mpr ⟨hp, hs.registered⟩, hs.completed, ?_, ?_⟩
    · show keySet key s.completed ⊆ keySet key (p :: s.registered)
      rw [keySet_cons]
      exact hs.subset.trans (Set.subset_insert _ _)
    · show ((s.tracker.registerPendingTransaction p).1.keys key).Tracks
        (keySet key (p :: s.registered)) (keySet key s.completed)
      rw [hkeys, keySet_cons]
      refine hs.tracks.register hs.subset fun k hk => ?_
      obtain ⟨q, hq, rfl⟩ := List.mem_map.mp hk
      exact (hS.lt_eq_true_iff (hs.registered q hq) hp).mp (hbefore q hq)
  | complete p =>
    obtain ⟨hp, hregistered⟩ := hcall
    obtain ⟨hreturns, hwithin, hkeys⟩ :=
      CDCCheckpointFrontierTracker.keys_record hS hs.within hp
    refine ⟨hreturns, hwithin, hs.registered, List.forall_mem_cons.mpr ⟨hp, hs.completed⟩, ?_, ?_⟩
    · show keySet key (p :: s.completed) ⊆ keySet key s.registered
      rw [keySet_cons]
      exact Set.insert_subset ((isIn_iff hS hp hs.registered).mp hregistered) hs.subset
    · show ((s.tracker.recordCompletedTransaction p).1.keys key).Tracks
        (keySet key s.registered) (keySet key (p :: s.completed))
      rw [hkeys, keySet_cons]
      exact hs.tracks.complete (key p)

theorem le_iff_key (hO : CDCSourcePosition.OrderedOn S) (hS : PositionOrder S key)
    {a b : CDCSourcePosition} (ha : a ∈ S) (hb : b ∈ S) : a.le b = .ok true ↔ key a ≤ key b := by
  rw [(hO a ha b hb a ha).le, hS.lt_eq_true_iff ha hb, hS.eq a ha b hb, decide_eq_true_iff,
    le_iff_lt_or_eq]

/-- A position is before all pending ones when its key is. -/
theorem Tracked.prefixed_iff (hS : PositionOrder S key) (hs : s.Tracked S key)
    {c : CDCSourcePosition} (hc : c ∈ S) :
    s.Prefixed c ↔
      key c ∈ Tracker.Tracks.Prefixed (keySet key s.registered) (keySet key s.completed) := by
  have hpending : ∀ p ∈ s.registered, isIn p s.completed = false ↔
      key p ∉ keySet key s.completed := by
    intro p hp
    rw [← isIn_iff hS (hs.registered p hp) hs.completed, Bool.not_eq_true]
  rw [Prefixed, isIn_iff hS hc hs.completed]
  constructor
  · rintro ⟨hmem, hbefore⟩
    refine ⟨hmem, fun k hk hk' => ?_⟩
    obtain ⟨p, hp, rfl⟩ := List.mem_map.mp hk
    exact (hS.lt_eq_true_iff hc (hs.registered p hp)).mp (hbefore p hp ((hpending p hp).mpr hk'))
  · rintro ⟨hmem, hbefore⟩
    refine ⟨hmem, fun p hp hp' => ?_⟩
    exact (hS.lt_eq_true_iff hc (hs.registered p hp)).mpr
      (hbefore (key p) (List.mem_map_of_mem hp) ((hpending p hp).mp hp'))

/-- **The frontier of a tracked run is right.** -/
theorem Tracked.frontierRight (hO : CDCSourcePosition.OrderedOn S) (hS : PositionOrder S key)
    (hs : s.Tracked S key) : s.FrontierRight := by
  have hkey : ∀ f, s.frontier = some f →
      f ∈ S ∧ (s.tracker.keys key).frontier = (key f : WithBot K) := by
    intro f hf
    refine ⟨hs.within.frontier f hf, ?_⟩
    show PositionOrder.frontierKey key s.frontier = _
    rw [hf]
    rfl
  constructor
  · intro f hf p hp hle
    obtain ⟨hfS, hfrontier⟩ := hkey f hf
    have hpS := hs.registered p hp
    rw [isIn_iff hS hpS hs.completed]
    refine hs.tracks.completed_of_le (List.mem_map_of_mem hp) ?_
    rw [hfrontier, WithBot.coe_le_coe]
    exact (le_iff_key hO hS hpS hfS).mp hle
  · intro f hf
    obtain ⟨hfS, hfrontier⟩ := hkey f hf
    obtain ⟨hmem, hupper⟩ := hs.tracks.isGreatest hfrontier
    refine ⟨(hs.prefixed_iff hS hfS).mpr hmem, fun c hc hprefixed => ?_⟩
    have hcS := hs.completed c hc
    exact (le_iff_key hO hS hcS hfS).mpr (hupper ((hs.prefixed_iff hS hcS).mp hprefixed))
  · intro hf c hc hprefixed
    have hfrontier : (s.tracker.keys key).frontier = ⊥ := by
      show PositionOrder.frontierKey key s.frontier = ⊥
      rw [hf]
      rfl
    have hmem := (hs.prefixed_iff hS (hs.completed c hc)).mp hprefixed
    rw [hs.tracks.eq_empty hfrontier] at hmem
    exact hmem

/-- **A call in order does not set the frontier back.** -/
theorem Tracked.notBack (hO : CDCSourcePosition.OrderedOn S) (hS : PositionOrder S key)
    (hs : s.Tracked S key) {call : TrackerCall} (hcall : s.InOrder S call)
    {f : CDCSourcePosition} (hf : s.frontier = some f) :
    ∃ f', (s.next call).frontier = some f' ∧ f.le f' = .ok true := by
  have hfS := hs.within.frontier f hf
  cases call with
  | register p =>
    refine ⟨f, ?_, ?_⟩
    · show (s.tracker.registerPendingTransaction p).1.frontierPosition = some f
      rw [CDCCheckpointFrontierTracker.frontierPosition_register]
      exact hf
    · exact (le_iff_key hO hS hfS hfS).mpr (le_refl _)
  | complete p =>
    obtain ⟨hp, -⟩ := hcall
    obtain ⟨-, hwithin, hkeys⟩ := CDCCheckpointFrontierTracker.keys_record hS hs.within hp
    have hle := (s.tracker.keys key).frontier_le_complete (key p)
    rw [← hkeys] at hle
    have hle : PositionOrder.frontierKey key s.frontier ≤
        PositionOrder.frontierKey key (s.next (.complete p)).frontier := hle
    rw [hf] at hle
    cases hf' : (s.next (.complete p)).frontier with
    | none =>
      rw [hf'] at hle
      exact absurd (WithBot.le_bot_iff.mp hle) WithBot.coe_ne_bot
    | some f' =>
      rw [hf'] at hle
      exact ⟨f', rfl, (le_iff_key hO hS hfS (hwithin.frontier f' hf')).mpr
        (WithBot.coe_le_coe.mp hle)⟩

end TrackerRun

/-! ## Runs -/

open TrackerRun

/-- **The frontier over all runs.**  The positions are totally ordered, registered in increasing
order and completed in any order after their registration.  Then every call returns, the frontier
never goes back, and after every call it is the largest completed position before all pending ones. -/
theorem advances_of_inOrder {S : Set CDCSourcePosition} (hS : CDCSourcePosition.OrderedOn S)
    {initialPosition : Option CDCSourcePosition} (hinitial : ∀ p ∈ initialPosition, p ∈ S)
    {calls : List TrackerCall}
    (hcalls : MeetsAlong trackerStep (InOrder S) (TrackerRun.start initialPosition) calls) :
    (TrackerRun.start initialPosition).FrontierRight ∧
      MeetsAlong trackerStep Advances (TrackerRun.start initialPosition) calls := by
  obtain ⟨K, _, key, hkey⟩ := hS.exists_key
  have hstart := tracked_start key hinitial
  refine ⟨hstart.frontierRight hS hkey, ?_⟩
  refine meetsAlong_of_meetsAlong ?_ hstart hcalls
  intro s call s' hs hcall hstep
  obtain rfl : s.next call = s' := Option.some.inj hstep
  obtain ⟨hreturns, hnext⟩ := hs.next hkey hcall
  exact ⟨⟨hreturns, fun f hf => hs.notBack hS hkey hcall hf, hnext.frontierRight hS hkey⟩, hnext⟩

/-- Three Oracle positions, completed out of order. -/
def outOfOrder : List TrackerCall :=
  [.register (samplePosition 1), .register (samplePosition 2), .register (samplePosition 3),
    .complete (samplePosition 3), .complete (samplePosition 1), .complete (samplePosition 2)]

theorem orderedOn_oracle : CDCSourcePosition.OrderedOn (Set.range CDCSourcePosition.oracle) := by
  apply CDCSourcePosition.OrderedOn.of_positionOrder
    (CDCSourcePosition.positionOrder_oracle (subset_refl _))
  rintro _ ⟨a, rfl⟩ _ ⟨b, rfl⟩
  rfl

theorem inOrder_outOfOrder : MeetsAlong trackerStep
    (InOrder (Set.range CDCSourcePosition.oracle)) (TrackerRun.start none) outOfOrder := by
  have hsample : ∀ n, samplePosition n ∈ Set.range CDCSourcePosition.oracle := fun n => ⟨_, rfl⟩
  refine .cons rfl ⟨hsample 1, by decide⟩ (.cons rfl ⟨hsample 2, by decide⟩ ?_)
  refine .cons rfl ⟨hsample 3, by decide⟩ (.cons rfl ⟨hsample 3, by decide⟩ ?_)
  exact .cons rfl ⟨hsample 1, by decide⟩ (.cons rfl ⟨hsample 2, by decide⟩ trivial)

/-- The frontier over the three positions. -/
theorem advances_outOfOrder : (TrackerRun.start none).FrontierRight ∧
      MeetsAlong trackerStep Advances (TrackerRun.start none) outOfOrder :=
  advances_of_inOrder orderedOn_oracle (fun p hp => by cases hp) inOrder_outOfOrder

end CDC
