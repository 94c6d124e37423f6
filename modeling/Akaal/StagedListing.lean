/-
# Statements listed by stages

Items are listed stage by stage, and within a stage as they were given.  Some items create objects, and
items refer to objects: the question is whether objects are created before they are referred to.

* `throughout_append`, `throughout_flatMap`, `throughout_filterMap` : what holds at every place of a list;
* `throughout_arrange` : what holds at every place of the list by stages;
* `createdFirst_arrange_iff` : when objects are created first: earlier stages create what they create, and
  within a stage the given order decides.
-/
import Mathlib

namespace StagedListing

/-! ## Every place of a list -/

section Places

variable {α β : Type*}

/-- A relation holds between what comes before and what stands there, at every place. -/
def Throughout (P : List α → α → Prop) (l : List α) : Prop :=
  ∀ before a after, l = before ++ a :: after → P before a

variable {P Q : List α → α → Prop}

@[simp] theorem throughout_nil : Throughout P [] := by
  intro before a after h
  exact absurd h (by simp)

variable {l : List α}

/-- The places of a list that is put together. -/
theorem throughout_append {l' : List α} :
    Throughout P (l ++ l') ↔ Throughout P l ∧ Throughout (fun before => P (l ++ before)) l' := by
  constructor
  · intro h
    refine ⟨fun before a after hl => h before a (after ++ l') ?_,
      fun before a after hl' => h (l ++ before) a after ?_⟩
    · rw [hl, List.append_assoc, List.cons_append]
    · rw [hl', List.append_assoc]
  · rintro ⟨hfirst, hsecond⟩ before a after hsplit
    rcases List.append_eq_append_iff.mp hsplit with ⟨rest, rfl, hrest⟩ | ⟨rest, hrest, hafter⟩
    · exact hsecond rest a after hrest
    · cases rest with
      | nil =>
        rw [List.append_nil] at hrest
        rw [List.nil_append] at hafter
        have hplace : P (l ++ []) a := hsecond [] a after hafter.symm
        rwa [List.append_nil, hrest] at hplace
      | cons b rest =>
        obtain ⟨rfl, -⟩ := List.cons.inj hafter
        exact hfirst before a rest hrest

theorem throughout_singleton {a : α} : Throughout P [a] ↔ P [] a := by
  constructor
  · exact fun h => h [] a [] rfl
  · intro h before b after hsplit
    cases before with
    | nil =>
      obtain ⟨rfl, -⟩ := List.cons.inj hsplit
      exact h
    | cons c before => exact absurd (congrArg List.length hsplit) (by simp)

theorem throughout_cons {a : α} :
    Throughout P (a :: l) ↔ P [] a ∧ Throughout (fun before => P (a :: before)) l := by
  rw [← List.singleton_append, throughout_append, throughout_singleton]
  rfl

theorem throughout_congr
    (h : ∀ before a after, l = before ++ a :: after → (P before a ↔ Q before a)) :
    Throughout P l ↔ Throughout Q l :=
  forall₄_congr fun before a after hl => h before a after hl

/-- The places of the lists that items stand for. -/
theorem throughout_flatMap {f : β → List α} {l : List β} : Throughout P (l.flatMap f) ↔
      Throughout (fun before b => Throughout (fun inner => P (before.flatMap f ++ inner)) (f b)) l := by
  induction l generalizing P with
  | nil => simp
  | cons b l ih =>
    rw [List.flatMap_cons, throughout_append, throughout_cons, ih]
    simp only [List.flatMap_cons, List.append_assoc]
    rfl

/-- The places of the items that some give. -/
theorem throughout_filterMap {Q : List β → β → Prop} {f : α → Option β} :
    Throughout Q (l.filterMap f) ↔
      Throughout (fun before a => ∀ b, f a = some b → Q (before.filterMap f) b) l := by
  induction l generalizing Q with
  | nil => simp
  | cons a l ih =>
    rw [throughout_cons]
    cases ha : f a with
    | some b =>
      rw [List.filterMap_cons_some ha, throughout_cons, ih]
      simp [ha]
    | none =>
      rw [List.filterMap_cons_none ha, ih]
      simp [ha]

theorem throughout_filter {p : α → Bool} :
    Throughout P (l.filter p) ↔ Throughout (fun before a => p a → P (before.filter p) a) l := by
  rw [← List.filterMap_eq_filter, throughout_filterMap]
  simp [Option.guard]

theorem throughout_map {Q : List β → β → Prop} {f : α → β} :
    Throughout Q (l.map f) ↔ Throughout (fun before a => Q (before.map f) (f a)) l := by
  rw [← List.filterMap_eq_map, throughout_filterMap]
  simp

end Places

/-! ## Stages -/

section Stages

variable {α S O : Type*} [LinearOrder S] (stage : α → S)

/-- The items stage by stage. -/
def arrange (order : List S) (items : List α) : List α :=
  order.flatMap fun s => items.filter (stage · = s)

variable {stage} {order : List S} {items : List α}

theorem mem_arrange (hall : ∀ a ∈ items, stage a ∈ order) {a : α} :
    a ∈ arrange stage order items ↔ a ∈ items := by
  simp only [arrange, List.mem_flatMap, List.mem_filter, decide_eq_true_eq]
  constructor
  · rintro ⟨s, -, ha, -⟩
    exact ha
  · exact fun ha => ⟨stage a, hall a ha, ha, rfl⟩

/-- **What stands before** an item: the items of earlier stages, and those of its stage given before. -/
theorem throughout_arrange (hsorted : order.Pairwise (· < ·)) (hall : ∀ a ∈ items, stage a ∈ order)
    {R : (α → Prop) → α → Prop} :
    Throughout (fun before a => R (· ∈ before) a) (arrange stage order items) ↔
      Throughout (fun before a =>
        R (fun b => b ∈ items ∧ stage b < stage a ∨ b ∈ before ∧ stage b = stage a) a) items := by
  have hbefore : ∀ earlier s later, order = earlier ++ s :: later → ∀ (before : List α) (b : α),
      b ∈ (earlier.flatMap fun s => items.filter (stage · = s)) ++ before.filter (stage · = s) ↔
        b ∈ items ∧ stage b < s ∨ b ∈ before ∧ stage b = s := by
    rintro earlier s later rfl before b
    obtain ⟨-, hlater, hless⟩ := List.pairwise_append.mp hsorted
    rw [List.mem_append, List.mem_filter, decide_eq_true_eq]
    refine or_congr ?_ Iff.rfl
    simp only [List.mem_flatMap, List.mem_filter, decide_eq_true_eq]
    constructor
    · rintro ⟨t, ht, hb, rfl⟩
      exact ⟨hb, hless _ ht s List.mem_cons_self⟩
    · rintro ⟨hb, hlt⟩
      refine ⟨stage b, ?_, hb, rfl⟩
      rcases List.mem_append.mp (hall b hb) with ht | ht
      · exact ht
      · rcases List.mem_cons.mp ht with heq | ht
        · exact absurd heq hlt.ne
        · exact absurd ((List.pairwise_cons.mp hlater).1 _ ht) hlt.not_gt
  rw [arrange, throughout_flatMap]
  constructor
  · intro h before a after hsplit
    obtain ⟨earlier, later, horder⟩ := List.append_of_mem (hall a (by rw [hsplit]; simp))
    have hplace := throughout_filter.mp (h earlier (stage a) later horder) before a after hsplit
      (decide_eq_true rfl)
    simpa only [hbefore earlier _ later horder] using hplace
  · intro h earlier s later horder
    rw [throughout_filter]
    intro before a after hsplit hstage
    obtain rfl := of_decide_eq_true hstage
    simpa only [hbefore earlier _ later horder] using h before a after hsplit

variable (creates : α → Option O) (refers : α → List O)

/-- Whatever an item refers to, besides what it creates itself, is created before it when it is
created at all. -/
def CreatedFirst (l : List α) : Prop :=
  Throughout (fun before a => ∀ o ∈ refers a, creates a ≠ some o → (∃ b ∈ l, creates b = some o) →
    ∃ b ∈ before, creates b = some o) l

variable {creates refers}

theorem createdFirst_map {β : Type*} {f : β → α} {l : List β} :
    CreatedFirst creates refers (l.map f) ↔
      CreatedFirst (fun b => creates (f b)) (fun b => refers (f b)) l := by
  simp only [CreatedFirst, throughout_map, List.mem_map, exists_exists_and_eq_and]

/-- **Objects are created first** in the list by stages just when each reference is to an object of an
earlier stage, or to one of the same stage that is given before. -/
theorem createdFirst_arrange_iff (hsorted : order.Pairwise (· < ·))
    (hall : ∀ a ∈ items, stage a ∈ order) {stageOf : O → S}
    (hstage : ∀ a ∈ items, ∀ o, creates a = some o → stage a = stageOf o) :
    CreatedFirst creates refers (arrange stage order items) ↔
      Throughout (fun before a => ∀ o ∈ refers a, creates a ≠ some o →
        (∃ b ∈ items, creates b = some o) →
          stageOf o < stage a ∨ stageOf o = stage a ∧ ∃ b ∈ before, creates b = some o) items := by
  have harrange := throughout_arrange hsorted hall (R := fun before a => ∀ o ∈ refers a,
    creates a ≠ some o → (∃ b ∈ items, creates b = some o) → ∃ b, before b ∧ creates b = some o)
  simp only [CreatedFirst, mem_arrange hall]
  refine harrange.trans (throughout_congr fun before a after hsplit => ?_)
  have hsubset : ∀ b ∈ before, b ∈ items := fun b hb => by
    rw [hsplit]
    exact List.mem_append_left _ hb
  refine forall₄_congr fun o ho hself hcreated => ?_
  constructor
  · rintro ⟨b, ⟨hb, hlt⟩ | ⟨hb, heq⟩, hcreates⟩
    · exact Or.inl (hstage b hb o hcreates ▸ hlt)
    · exact Or.inr ⟨hstage b (hsubset b hb) o hcreates ▸ heq, b, hb, hcreates⟩
  · rintro (hlt | ⟨heq, b, hb, hcreates⟩)
    · obtain ⟨b, hb, hcreates⟩ := hcreated
      exact ⟨b, Or.inl ⟨hb, hstage b hb o hcreates ▸ hlt⟩, hcreates⟩
    · exact ⟨b, Or.inr ⟨hb, hstage b (hsubset b hb) o hcreates ▸ heq⟩, hcreates⟩

end Stages

end StagedListing
