/-
# Searching a graph for a cycle

The invariant of a depth-first search: the visited nodes are those on the way to the current one and
those that are finished, the successors of which were finished before them.

* `Finished.not_cycle` : there is no cycle through a finished node;
* `Exploring.enter`, `Exploring.leave` : a node is entered when it is visited, and finished when all of
  its successors are.
-/
import Mathlib

open Relation

namespace CycleSearch

variable {α : Type*} (succs : α → List α)

/-- An edge of the graph. -/
def Step (a b : α) : Prop := b ∈ succs a

/-- A relation without cycles. -/
def Acyclic (r : α → α → Prop) : Prop := ∀ a, ¬ TransGen r a a

theorem Acyclic.mono {r r' : α → α → Prop} (h : Acyclic r') (hle : ∀ a b, r a b → r' a b) :
    Acyclic r :=
  fun a hcycle => h a (TransGen.mono hle a a hcycle)

/-- Nodes that are finished, the latest first: their successors come after them. -/
inductive Finished : List α → Prop
  | nil : Finished []
  | cons {v : α} {rest : List α} (hnew : v ∉ rest) (hsuccs : ∀ w ∈ succs v, w ∈ rest)
      (hrest : Finished rest) : Finished (v :: rest)

variable {succs}

theorem Finished.mem_of_reaches {l : List α} (hl : Finished succs l) {a b : α} (ha : a ∈ l)
    (hab : ReflTransGen (Step succs) a b) : b ∈ l := by
  have hstep : ∀ {l}, Finished succs l → ∀ {x y}, x ∈ l → Step succs x y → y ∈ l := by
    intro l hl
    induction hl with
    | nil => exact fun hx => absurd hx List.not_mem_nil
    | cons hnew hsuccs hrest ih =>
      intro x y hx hxy
      rcases List.mem_cons.mp hx with rfl | hx
      · exact List.mem_cons_of_mem _ (hsuccs y hxy)
      · exact List.mem_cons_of_mem _ (ih hx hxy)
  induction hab with
  | refl => exact ha
  | tail _ hlast ih => exact hstep hl ih hlast

/-- **There is no cycle through a finished node.** -/
theorem Finished.not_cycle {l : List α} (hl : Finished succs l) {a : α} (ha : a ∈ l) :
    ¬ TransGen (Step succs) a a := by
  induction hl with
  | nil => exact absurd ha List.not_mem_nil
  | cons hnew hsuccs hrest ih =>
    rcases List.mem_cons.mp ha with rfl | ha
    · -- The cycle goes on in the nodes that were finished before, and so does not come back.
      intro hcycle
      obtain ⟨b, hab, hba⟩ := TransGen.head'_iff.mp hcycle
      exact hnew (hrest.mem_of_reaches (hsuccs b hab) hba)
    · exact ih ha

variable (succs)

/-- The invariant of the search: what has been visited is on the stack or finished, not both. -/
structure Exploring (visited stack finished : List α) : Prop where
  visited_iff : ∀ x, x ∈ visited ↔ x ∈ stack ∨ x ∈ finished
  disjoint : ∀ x ∈ stack, x ∉ finished
  finished : Finished succs finished

variable {succs} {visited visited' stack stack' finished : List α} {node : α}

theorem Exploring.start : Exploring succs [] [] [] :=
  ⟨fun x => by simp, fun x hx => absurd hx List.not_mem_nil, .nil⟩

/-- **A node is entered** when it is visited for the first time. -/
theorem Exploring.enter (h : Exploring succs visited stack finished) (hnode : node ∉ visited)
    (hvisited : ∀ x, x ∈ visited' ↔ x = node ∨ x ∈ visited)
    (hstack : ∀ x, x ∈ stack' ↔ x = node ∨ x ∈ stack) :
    Exploring succs visited' stack' finished := by
  refine ⟨fun x => ?_, fun x hx => ?_, h.finished⟩
  · rw [hvisited, hstack, h.visited_iff, or_assoc]
  · rcases (hstack x).mp hx with rfl | hx
    · exact fun hmem => hnode ((h.visited_iff x).mpr (.inr hmem))
    · exact h.disjoint x hx

/-- **A node is finished** when all of its successors are. -/
theorem Exploring.leave (h : Exploring succs visited stack' finished) (hnode : node ∉ stack)
    (hstack : ∀ x, x ∈ stack' ↔ x = node ∨ x ∈ stack) (hsuccs : ∀ w ∈ succs node, w ∈ finished) :
    Exploring succs visited stack (node :: finished) := by
  have hnew : node ∉ finished := h.disjoint node ((hstack node).mpr (.inl rfl))
  refine ⟨fun x => ?_, fun x hx hmem => ?_, .cons hnew hsuccs h.finished⟩
  · rw [h.visited_iff, hstack, List.mem_cons, or_comm (a := x = node), or_assoc]
  · rcases List.mem_cons.mp hmem with rfl | hmem
    · exact hnode hx
    · exact h.disjoint x ((hstack x).mpr (.inr hx)) hmem

/-- When the stack is empty again, a cycle is not among what has been visited. -/
theorem Exploring.not_cycle (h : Exploring succs visited [] finished) {a b : α} (ha : a ∈ visited)
    (hab : ReflTransGen (Step succs) a b) : ¬ TransGen (Step succs) b b := by
  have hfinished : a ∈ finished := ((h.visited_iff a).mp ha).resolve_left List.not_mem_nil
  exact h.finished.not_cycle (h.finished.mem_of_reaches hfinished hab)

theorem cycle_of_mem_stack {w : α} (hstack : ∀ x ∈ stack, ReflTransGen (Step succs) x node)
    (hw : w ∈ stack) (hedge : w ∈ succs node) : TransGen (Step succs) w w :=
  TransGen.tail' (hstack w hw) hedge

theorem card_unvisited_lt [DecidableEq α] {nodes : Finset α} (hmem : node ∈ nodes)
    (hnode : node ∉ visited) (hvisited : ∀ x, x ∈ visited' ↔ x = node ∨ x ∈ visited) :
    (nodes.filter (· ∉ visited')).card < (nodes.filter (· ∉ visited)).card := by
  apply Finset.card_lt_card
  rw [Finset.ssubset_iff_of_subset]
  · refine ⟨node, Finset.mem_filter.mpr ⟨hmem, hnode⟩, fun h => ?_⟩
    exact (Finset.mem_filter.mp h).2 ((hvisited node).mpr (.inl rfl))
  · intro x hx
    obtain ⟨hx, hnot⟩ := Finset.mem_filter.mp hx
    exact Finset.mem_filter.mpr ⟨hx, fun h => hnot ((hvisited x).mpr (.inr h))⟩

end CycleSearch
