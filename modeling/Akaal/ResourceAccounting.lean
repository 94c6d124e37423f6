/-
# Accounting for the resources of tasks

What the admission controller of `RuntimeAuthority` has allocated against what the open tasks require: a
task is open from its admission until its attempt is over or it is cancelled.

* `openSum_eq` : the requirements of the open tasks, one of them taken apart;
* `ResourceRun.Orderly` : each task has at most one open attempt, and a snapshot that is not final while
  it has one;
* `ResourceRun.accounted_iff` : the steps that keep the account.

Amounts are exact numbers.
-/
import Akaal.RuntimeAuthority

open TransitionRun

namespace EngineRuntime

/-! ## Requirements of open tasks -/

section Sums

variable {M : Type*} [AddCommGroup M] (g : TaskSpec → M)

/-- What an attempt requires, when it is open. -/
def openAt (attempts : List Attempt) (i : ℕ) : M :=
  (attempts[i]?).elim 0 fun a => if a.isOpen then g a.spec else 0

/-- What the open attempts require. -/
def openSum (attempts : List Attempt) : M := ∑ i ∈ Finset.range attempts.length, openAt g attempts i

/-- What the open attempts but one require. -/
def othersSum (attempts : List Attempt) (i : ℕ) : M :=
  ∑ j ∈ (Finset.range attempts.length).erase i, openAt g attempts j

variable {g} {attempts attempts' : List Attempt}

theorem openAt_of_open {i : ℕ} {a : Attempt} (ha : attempts[i]? = some a) (hopen : a.isOpen = true) :
    openAt g attempts i = g a.spec := by
  rw [openAt, ha, Option.elim_some, if_pos hopen]

theorem openAt_of_not_open {i : ℕ} {a : Attempt} (ha : attempts[i]? = some a)
    (hopen : a.isOpen = false) : openAt g attempts i = 0 := by
  rw [openAt, ha, Option.elim_some, hopen, if_neg Bool.false_ne_true]

/-- **One open attempt taken apart** from the others. -/
theorem openSum_eq {i : ℕ} {a : Attempt} (ha : attempts[i]? = some a) (hopen : a.isOpen = true) :
    openSum g attempts = g a.spec + othersSum g attempts i := by
  have hi : i ∈ Finset.range attempts.length :=
    Finset.mem_range.mpr (List.getElem?_eq_some_iff.mp ha).1
  rw [openSum, othersSum, ← Finset.add_sum_erase _ _ hi, openAt_of_open ha hopen]

/-- When one attempt ceases to be open, the others remain. -/
theorem openSum_of_closed {i : ℕ} (hlength : attempts'.length = attempts.length)
    (hi : openAt g attempts' i = 0)
    (hothers : ∀ j, j ≠ i → openAt g attempts' j = openAt g attempts j) :
    openSum g attempts' = othersSum g attempts i := by
  rw [openSum, othersSum, hlength]
  calc ∑ j ∈ Finset.range attempts.length, openAt g attempts' j
      = ∑ j ∈ (Finset.range attempts.length).erase i, openAt g attempts' j :=
        (Finset.sum_erase _ hi).symm
    _ = ∑ j ∈ (Finset.range attempts.length).erase i, openAt g attempts j :=
        Finset.sum_congr rfl fun j hj => hothers j (Finset.ne_of_mem_erase hj)

theorem openSum_congr (hlength : attempts'.length = attempts.length)
    (h : ∀ j, openAt g attempts' j = openAt g attempts j) : openSum g attempts' = openSum g attempts := by
  rw [openSum, openSum, hlength]
  exact Finset.sum_congr rfl fun j _ => h j

theorem openSum_concat {a : Attempt} (hopen : a.isOpen = true) :
    openSum g (attempts ++ [a]) = openSum g attempts + g a.spec := by
  rw [openSum, openSum, List.length_append, List.length_singleton, Finset.sum_range_succ]
  congr 1
  · refine Finset.sum_congr rfl fun j hj => ?_
    rw [openAt, openAt, List.getElem?_append_left (Finset.mem_range.mp hj)]
  · exact openAt_of_open (List.getElem?_concat_length ..) hopen

end Sums

namespace ResourceRun

open RuntimeRun RuntimeAuthority

/-! ## The account -/

/-- What is allocated is what the open tasks require. -/
structure Accounted (s : RuntimeAuthority) : Prop where
  cpu : s.admission.allocatedCpu = openSum TaskSpec.cpuCoresRequired s.attempts
  memory : s.admission.allocatedMemoryMb = openSum TaskSpec.memoryMbRequired s.attempts
  slots : s.admission.allocatedSlots = openSum (fun _ => (1 : ℤ)) s.attempts

/-- The open tasks but one do not require a negative amount. -/
def OthersNonneg (s : RuntimeAuthority) (i : ℕ) : Prop :=
  0 ≤ othersSum TaskSpec.cpuCoresRequired s.attempts i ∧
    0 ≤ othersSum TaskSpec.memoryMbRequired s.attempts i

/-- A task is cancelled while it waits in the pool of processes, no thread begins an attempt under a
cancelled token, and what the other open tasks require is not negative when resources are given back. -/
def Balanced (s : RuntimeAuthority) : RuntimeCall → Prop
  | .cancel taskId _ _ => ∀ snap, s.cancellable taskId = .ok (snap, true) →
      ∃ i a, s.queuedFuture s.processFutures taskId = some (i, a) ∧ OthersNonneg s i
  | .start i => ∀ a, s.attempts[i]? = some a → s.cancelReason a = none
  | .complete i _ => OthersNonneg s i
  | _ => True

/-- Each task has at most one open attempt, and it has one precisely while its snapshot is not final; the
attempts in the pools are open. -/
structure Orderly (s : RuntimeAuthority) : Prop where
  wellformed : s.Wellformed
  one : ∀ (i j : ℕ) (a b : Attempt), s.attempts[i]? = some a → s.attempts[j]? = some b →
    a.isOpen = true → b.isOpen = true → a.spec.taskId = b.spec.taskId → i = j
  live : ∀ (i : ℕ) (a : Attempt), s.attempts[i]? = some a → a.isOpen = true →
    ∃ snap, s.snapshots.get? a.spec.taskId = some snap ∧ snap.isTerminal = false
  opened : ∀ taskId snap, s.snapshots.get? taskId = some snap → snap.isTerminal = false →
    ∃ (i : ℕ) (a : Attempt), s.attempts[i]? = some a ∧ a.isOpen = true ∧ a.spec.taskId = taskId
  outstanding : ∀ (i : ℕ) (a : Attempt), s.attempts[i]? = some a → a.phase.isOutstanding = true →
    a.isOpen = true

variable {s s' : RuntimeAuthority}

/-- The attempts are the same ones, and one of them is not open any more. -/
structure Closes (i : ℕ) (s s' : RuntimeAuthority) : Prop where
  length : s'.attempts.length = s.attempts.length
  closed : ∀ b, s'.attempts[i]? = some b → b.isOpen = false
  others : ∀ (j : ℕ) (a : Attempt), s.attempts[j]? = some a → ∃ a', s'.attempts[j]? = some a' ∧
    a'.spec = a.spec ∧ (j ≠ i → a'.isOpen = a.isOpen)

theorem Closes.of_get {i j : ℕ} (h : Closes i s s') {a' : Attempt} (ha' : s'.attempts[j]? = some a') :
    ∃ a, s.attempts[j]? = some a ∧ a'.spec = a.spec ∧ (j ≠ i → a'.isOpen = a.isOpen) := by
  obtain ⟨hlt, -⟩ := List.getElem?_eq_some_iff.mp ha'
  rw [h.length] at hlt
  obtain ⟨b, hb, hspec⟩ := h.others j _ (List.getElem?_eq_getElem hlt)
  obtain rfl := Option.some.inj (ha'.symm.trans hb)
  exact ⟨_, List.getElem?_eq_getElem hlt, hspec⟩

/-- What the open tasks require after one attempt is closed. -/
theorem Closes.openSum_eq {M : Type*} [AddCommGroup M] (g : TaskSpec → M) {i : ℕ}
    (h : Closes i s s') : openSum g s'.attempts = othersSum g s.attempts i := by
  refine openSum_of_closed h.length ?_ fun j hj => ?_
  · cases hb : s'.attempts[i]? with
    | none => rw [openAt, hb, Option.elim_none]
    | some b => exact openAt_of_not_open hb (h.closed b hb)
  · cases ha : s.attempts[j]? with
    | none =>
      have hnone : s'.attempts[j]? = none := by
        rw [List.getElem?_eq_none_iff, h.length]
        exact List.getElem?_eq_none_iff.mp ha
      rw [openAt, openAt, ha, hnone]
    | some a =>
      obtain ⟨a', ha', hspec, hopen⟩ := h.others j a ha
      rw [openAt, openAt, ha, ha', Option.elim_some, Option.elim_some, hspec, hopen hj]

theorem max_sub_eq_iff {M : Type*} [AddCommGroup M] [LinearOrder M] (r o : M) :
    max 0 (r + o - r) = o ↔ 0 ≤ o := by
  rw [add_sub_cancel_left, max_eq_right_iff]

/-- **What is given back** for an attempt that is closed keeps the account when the other open tasks do
not require a negative amount, and only then. -/
theorem Closes.keeps_account_iff {i : ℕ} (hcloses : Closes i s s') (h : Accounted s) {a : Attempt}
    (ha : s.attempts[i]? = some a) (hopen : a.isOpen = true)
    (hadmission : s'.admission = s.admission.release a.spec.requirement) :
    Accounted s' ↔ OthersNonneg s i := by
  have hslots : 0 ≤ othersSum (fun _ => (1 : ℤ)) s.attempts i := by
    refine Finset.sum_nonneg fun j _ => ?_
    rw [openAt]
    cases s.attempts[j]? with
    | none => exact le_rfl
    | some b =>
      rw [Option.elim_some]
      split_ifs
      · exact zero_le_one
      · exact le_rfl
  have hcpu : s'.admission.allocatedCpu =
      max 0 (a.spec.cpuCoresRequired + othersSum TaskSpec.cpuCoresRequired s.attempts i -
        a.spec.cpuCoresRequired) := by
    rw [hadmission, ← EngineRuntime.openSum_eq ha hopen, ← h.cpu]
    rfl
  have hmemory : s'.admission.allocatedMemoryMb =
      max 0 (a.spec.memoryMbRequired + othersSum TaskSpec.memoryMbRequired s.attempts i -
        a.spec.memoryMbRequired) := by
    rw [hadmission, ← EngineRuntime.openSum_eq ha hopen, ← h.memory]
    rfl
  have hslots' : s'.admission.allocatedSlots =
      max 0 (1 + othersSum (fun _ => (1 : ℤ)) s.attempts i - 1) := by
    rw [hadmission, ← EngineRuntime.openSum_eq (g := fun _ => (1 : ℤ)) ha hopen, ← h.slots]
    rfl
  constructor
  · intro h'
    constructor
    · rw [← max_sub_eq_iff a.spec.cpuCoresRequired, ← hcpu, h'.cpu, hcloses.openSum_eq]
    · rw [← max_sub_eq_iff a.spec.memoryMbRequired, ← hmemory, h'.memory, hcloses.openSum_eq]
  · rintro ⟨hcpu', hmemory'⟩
    refine ⟨?_, ?_, ?_⟩
    · rw [hcpu, hcloses.openSum_eq]
      exact (max_sub_eq_iff _ _).mpr hcpu'
    · rw [hmemory, hcloses.openSum_eq]
      exact (max_sub_eq_iff _ _).mpr hmemory'
    · rw [hslots', hcloses.openSum_eq]
      exact (max_sub_eq_iff _ _).mpr hslots

theorem Closes.not_accounted {i : ℕ} (hcloses : Closes i s s') (h : Accounted s) {a : Attempt}
    (ha : s.attempts[i]? = some a) (hopen : a.isOpen = true)
    (hadmission : s'.admission = s.admission) : ¬ Accounted s' := by
  intro h'
  have hslots := h'.slots
  rw [hadmission, hcloses.openSum_eq, h.slots, EngineRuntime.openSum_eq ha hopen] at hslots
  omega

/-- The account is kept when the same attempts are open and nothing is allocated or given back. -/
theorem Accounted.congr (h : Accounted s) (hadmission : s'.admission = s.admission)
    (hlength : s'.attempts.length = s.attempts.length)
    (hopen : ∀ (j : ℕ) (a : Attempt), s.attempts[j]? = some a → ∃ a', s'.attempts[j]? = some a' ∧
      a'.spec = a.spec ∧ a'.isOpen = a.isOpen) : Accounted s' := by
  have hat : ∀ {M : Type} [AddCommGroup M] (g : TaskSpec → M) (j : ℕ),
      openAt g s'.attempts j = openAt g s.attempts j := by
    intro M _ g j
    cases ha : s.attempts[j]? with
    | none =>
      have hnone : s'.attempts[j]? = none := by
        rw [List.getElem?_eq_none_iff, hlength]
        exact List.getElem?_eq_none_iff.mp ha
      rw [openAt, openAt, ha, hnone]
    | some a =>
      obtain ⟨a', ha', hspec, hsame⟩ := hopen j a ha
      rw [openAt, openAt, ha, ha', Option.elim_some, Option.elim_some, hspec, hsame]
  refine ⟨?_, ?_, ?_⟩
  · rw [hadmission, h.cpu, openSum_congr hlength (hat _)]
  · rw [hadmission, h.memory, openSum_congr hlength (hat _)]
  · rw [hadmission, h.slots, openSum_congr hlength (hat _)]

/-! ## Open attempts -/

theorem Orderly.submitted (h : Orderly s) {spec : TaskSpec} (hs : Submitted spec s s') : Orderly s' := by
  obtain ⟨snap, phase, hattempts, hphase⟩ := hs.attempts
  -- no attempt of the task is open before
  have hnone : ∀ (i : ℕ) (a : Attempt), s.attempts[i]? = some a → a.isOpen = true →
      a.spec.taskId ≠ spec.taskId := by
    intro i a ha hopen htask
    obtain ⟨current, hcurrent, hlive⟩ := h.live i a ha hopen
    rw [htask] at hcurrent
    rw [hs.fresh current hcurrent] at hlive
    cases hlive
  have hopen : Attempt.isOpen ⟨spec, snap, phase, false⟩ = true := by
    rcases hphase with rfl | ⟨rfl, -⟩
    · rfl
    · rfl
  have hold : ∀ {i : ℕ} {a : Attempt}, s.attempts[i]? = some a → s'.attempts[i]? = some a := by
    intro i a ha
    rw [hattempts, List.getElem?_append_left (List.getElem?_eq_some_iff.mp ha).1, ha]
  have hnew : s'.attempts[s.attempts.length]? = some ⟨spec, snap, phase, false⟩ := by
    rw [hattempts, List.getElem?_concat_length]
  have hcases : ∀ {i : ℕ} {a : Attempt}, s'.attempts[i]? = some a →
      s.attempts[i]? = some a ∨ i = s.attempts.length ∧ a = ⟨spec, snap, phase, false⟩ := by
    intro i a ha
    rw [hattempts] at ha
    exact getElem?_concat_cases ha
  refine ⟨h.wellformed.submitted hs, ?_, ?_, ?_, ?_⟩
  · intro i j a b ha hb haopen hbopen htask
    rcases hcases ha with ha | ⟨rfl, rfl⟩
    · rcases hcases hb with hb | ⟨rfl, rfl⟩
      · exact h.one i j a b ha hb haopen hbopen htask
      · exact absurd htask (hnone i a ha haopen)
    · rcases hcases hb with hb | ⟨rfl, rfl⟩
      · exact absurd htask.symm (hnone j b hb hbopen)
      · rfl
  · intro i a ha haopen
    rcases hcases ha with ha | ⟨rfl, rfl⟩
    · rw [hs.snapshots _ (hnone i a ha haopen)]
      exact h.live i a ha haopen
    · exact hs.current
  · intro taskId current hcurrent hlive
    by_cases htask : taskId = spec.taskId
    · exact ⟨_, _, hnew, hopen, htask.symm⟩
    · rw [hs.snapshots _ htask] at hcurrent
      obtain ⟨i, a, ha, haopen⟩ := h.opened taskId current hcurrent hlive
      exact ⟨i, a, hold ha, haopen⟩
  · intro i a ha houtstanding
    rcases hcases ha with ha | ⟨rfl, rfl⟩
    · exact h.outstanding i a ha houtstanding
    · exact hopen

theorem Orderly.evolve (h : Orderly s) (he : Evolves s s') (hsnapshots : s'.snapshots = s.snapshots)
    (hopen : ∀ (j : ℕ) (a a' : Attempt), s.attempts[j]? = some a → s'.attempts[j]? = some a' →
      a'.isOpen = a.isOpen) : Orderly s' := by
  refine ⟨h.wellformed.evolve he, ?_, ?_, ?_, ?_⟩
  · intro i j a' b' ha' hb' haopen hbopen htask
    obtain ⟨a, ha, haspec, -⟩ := he.of_get ha'
    obtain ⟨b, hb, hbspec, -⟩ := he.of_get hb'
    rw [hopen i a a' ha ha'] at haopen
    rw [hopen j b b' hb hb'] at hbopen
    rw [haspec, hbspec] at htask
    exact h.one i j a b ha hb haopen hbopen htask
  · intro i a' ha' haopen
    obtain ⟨a, ha, haspec, -⟩ := he.of_get ha'
    rw [hopen i a a' ha ha'] at haopen
    rw [haspec, hsnapshots]
    exact h.live i a ha haopen
  · intro taskId current hcurrent hlive
    rw [hsnapshots] at hcurrent
    obtain ⟨i, a, ha, haopen, htask⟩ := h.opened taskId current hcurrent hlive
    obtain ⟨a', ha', haspec, -⟩ := he.attempts i a ha
    exact ⟨i, a', ha', by rw [hopen i a a' ha ha', haopen], by rw [haspec, htask]⟩
  · intro i a' ha' houtstanding
    obtain ⟨a, ha, -, -, hphase⟩ := he.of_get ha'
    rw [hopen i a a' ha ha']
    exact h.outstanding i a ha (hphase houtstanding)

/-- A step that closes the open attempt of a task that is done keeps the attempts in order. -/
theorem Orderly.closes (h : Orderly s) (he : Evolves s s') {i : ℕ} (hcloses : Closes i s s')
    {a : Attempt} (ha : s.attempts[i]? = some a) (hopen : a.isOpen = true)
    (hover : ∀ a', s'.attempts[i]? = some a' → a'.phase.isOutstanding = false)
    (hdone : ∃ snap, s'.snapshots.get? a.spec.taskId = some snap ∧ snap.isTerminal = true)
    (hsnapshots : ∀ id, id ≠ a.spec.taskId → s'.snapshots.get? id = s.snapshots.get? id) :
    Orderly s' := by
  -- an attempt that is open was open, and it is of another task
  have hstill : ∀ {j : ℕ} {b' : Attempt}, s'.attempts[j]? = some b' → b'.isOpen = true →
      ∃ b, s.attempts[j]? = some b ∧ b'.spec = b.spec ∧ b.isOpen = true ∧
        b.spec.taskId ≠ a.spec.taskId := by
    intro j b' hb' hb'open
    have hj : j ≠ i := by
      rintro rfl
      rw [hcloses.closed b' hb'] at hb'open
      cases hb'open
    obtain ⟨b, hb, hspec, hsame⟩ := hcloses.of_get hb'
    rw [hsame hj] at hb'open
    exact ⟨b, hb, hspec, hb'open, fun htask => hj (h.one j i b a hb ha hb'open hopen htask)⟩
  refine ⟨h.wellformed.evolve he, ?_, ?_, ?_, ?_⟩
  · intro j k b' c' hb' hc' hbopen hcopen htask
    obtain ⟨b, hb, hbspec, hbopen, -⟩ := hstill hb' hbopen
    obtain ⟨c, hc, hcspec, hcopen, -⟩ := hstill hc' hcopen
    rw [hbspec, hcspec] at htask
    exact h.one j k b c hb hc hbopen hcopen htask
  · intro j b' hb' hbopen
    obtain ⟨b, hb, hbspec, hbopen, htask⟩ := hstill hb' hbopen
    rw [hbspec, hsnapshots _ htask]
    exact h.live j b hb hbopen
  · intro taskId current hcurrent hlive
    have htask : taskId ≠ a.spec.taskId := by
      rintro rfl
      obtain ⟨snap, hsnap, hterminal⟩ := hdone
      rw [Option.some.inj (hcurrent.symm.trans hsnap), hterminal] at hlive
      cases hlive
    rw [hsnapshots _ htask] at hcurrent
    obtain ⟨j, b, hb, hbopen, hbtask⟩ := h.opened taskId current hcurrent hlive
    obtain ⟨b', hb', hbspec, hsame⟩ := hcloses.others j b hb
    have hj : j ≠ i := by
      rintro rfl
      rw [Option.some.inj (hb.symm.trans ha)] at hbtask
      exact htask hbtask.symm
    exact ⟨j, b', hb', by rw [hsame hj, hbopen], by rw [hbspec, hbtask]⟩
  · intro j b' hb' houtstanding
    have hj : j ≠ i := by
      rintro rfl
      rw [hover b' hb'] at houtstanding
      cases houtstanding
    obtain ⟨b, hb, -, hsame⟩ := hcloses.of_get hb'
    obtain ⟨c, hc, -, -, hphase⟩ := he.of_get hb'
    obtain rfl := Option.some.inj (hb.symm.trans hc)
    rw [hsame hj]
    exact h.outstanding j b hb (hphase houtstanding)

theorem isOpen_of_cancelled {a : Attempt} (h : a.cancelled = true) : a.isOpen = false := by
  unfold Attempt.isOpen
  rw [h]
  split <;> rfl

theorem closes_setPhase (s : RuntimeAuthority) (i : ℕ) : Closes i s (s.setPhase i .ended) := by
  refine ⟨length_setPhase _ _ _, fun b hb => ?_, fun j a ha => ?_⟩
  · rw [getElem?_setPhase] at hb
    obtain ⟨a, -, rfl⟩ := Option.map_eq_some_iff.mp hb
    rw [if_pos rfl]
    rfl
  · refine ⟨_, by rw [getElem?_setPhase, ha, Option.map_some], ?_, fun hj => ?_⟩
    · split_ifs
      · rfl
      · rfl
    · rw [if_neg (Ne.symm hj)]

theorem closes_calledBack {i : ℕ} {spec : TaskSpec} (h : CalledBack i spec s s') : Closes i s s' := by
  have hclosed := closes_setPhase s i
  refine ⟨?_, ?_, ?_⟩
  · rw [h.attempts]
    exact hclosed.length
  · rw [h.attempts]
    exact hclosed.closed
  · rw [h.attempts]
    exact hclosed.others

theorem Orderly.closes_cancelled (h : Orderly s) {taskId : String} (hs : Cancelled taskId s s') {i : ℕ}
    {a : Attempt} (ha : s.attempts[i]? = some a) (hopen : a.isOpen = true)
    (htask : a.spec.taskId = taskId) : Closes i s s' := by
  refine ⟨hs.length, fun b hb => ?_, fun j b hb => ?_⟩
  · obtain ⟨phase, ha', -⟩ := hs.attempts i a ha
    rw [Option.some.inj (hb.symm.trans ha')]
    exact isOpen_of_cancelled (if_pos htask)
  · obtain ⟨phase, hb', -, hother, -⟩ := hs.attempts j b hb
    refine ⟨_, hb', rfl, fun hj => ?_⟩
    by_cases hbtask : b.spec.taskId = taskId
    · have hclosed : b.isOpen = false := by
        rw [← Bool.not_eq_true]
        exact fun hbopen => hj (h.one j i b a hb ha hbopen hopen (hbtask.trans htask.symm))
      rw [hclosed]
      exact isOpen_of_cancelled (if_pos hbtask)
    · rw [hother hbtask, if_neg hbtask]

theorem Orderly.exists_open (h : Orderly s) {taskId : String} {snap : TaskSnapshot}
    (hlive : s.cancellable taskId = .ok (snap, true)) :
    ∃ (i : ℕ) (a : Attempt), s.attempts[i]? = some a ∧ a.isOpen = true ∧ a.spec.taskId = taskId := by
  unfold cancellable at hlive
  cases hsnap : s.snapshots.get? taskId with
  | none =>
    rw [hsnap] at hlive
    cases hlive
  | some current =>
    rw [hsnap] at hlive
    dsimp only at hlive
    split_ifs at hlive with hterminal
    · cases hlive
    · exact h.opened taskId current hsnap (by rwa [Bool.not_eq_true] at hterminal)

/-! ## One step -/

/-- **A cancellation** keeps the account when it finds the task waiting in the pool of processes. -/
theorem Orderly.cancel_iff (h : Orderly s) (haccounted : Accounted s) {taskId reason now : String}
    {snap : TaskSnapshot} (hlive : s.cancellable taskId = .ok (snap, true)) :
    (Accounted (s.cancelTask taskId reason now).2 ↔
      ∃ i a, s.queuedFuture s.processFutures taskId = some (i, a) ∧ OthersNonneg s i) ∧
    ((∃ i a, s.queuedFuture s.processFutures taskId = some (i, a)) →
      Orderly (s.cancelTask taskId reason now).2) := by
  obtain ⟨i, a, ha, hopen, htask⟩ := h.exists_open hlive
  have hs := @Wellformed.cancelled s h.wellformed taskId reason now snap hlive
  have hcloses := h.closes_cancelled hs ha hopen htask
  -- the future that waits in the pool of processes is the open attempt
  have hfuture : ∀ j b, s.queuedFuture s.processFutures taskId = some (j, b) → j = i ∧ b = a := by
    intro j b hfuture
    obtain ⟨hget, hb, hqueued⟩ := queuedFuture_eq_some.mp hfuture
    obtain ⟨c, hc, hctask, -⟩ := h.wellformed.processes taskId j hget
    obtain rfl := Option.some.inj (hb.symm.trans hc)
    have hbopen := h.outstanding j b hb (by rw [hqueued]; rfl)
    obtain rfl := h.one j i b a hb ha hbopen hopen (hctask.trans htask.symm)
    exact ⟨rfl, Option.some.inj (hb.symm.trans ha)⟩
  have hadmission := hs.admission
  constructor
  · cases hqueued : s.queuedFuture s.processFutures taskId with
    | none =>
      rw [hqueued] at hadmission
      refine iff_of_false (hcloses.not_accounted haccounted ha hopen hadmission) ?_
      rintro ⟨j, b, hnone, -⟩
      cases hnone
    | some future =>
      obtain ⟨j, b⟩ := future
      obtain ⟨rfl, rfl⟩ := hfuture j b hqueued
      rw [hqueued] at hadmission
      rw [hcloses.keeps_account_iff haccounted ha hopen hadmission]
      constructor
      · exact fun hothers => ⟨j, b, rfl, hothers⟩
      · rintro ⟨k, c, hk, hothers⟩
        obtain ⟨rfl, -⟩ := Prod.mk.inj (Option.some.inj hk)
        exact hothers
  · rintro ⟨j, b, hqueued⟩
    obtain ⟨rfl, rfl⟩ := hfuture j b hqueued
    obtain ⟨hget, -, hphase⟩ := queuedFuture_eq_some.mp hqueued
    refine h.closes hs.evolves hcloses ha hopen (fun a' ha' => ?_) ?_ ?_
    · obtain ⟨phase, hb', hover, -, hnot⟩ := hs.attempts j b ha
      rw [Option.some.inj (ha'.symm.trans hb')]
      rcases hover with rfl | rfl
      · exact absurd hphase (hnot (.inr hget))
      · rfl
    · rw [htask]
      exact hs.current
    · rw [htask]
      exact hs.snapshots

/-- An attempt that enters a phase in which it is as open as before. -/
theorem isOpen_setPhase {i : ℕ} {phase : Phase} {a : Attempt} (ha : s.attempts[i]? = some a)
    (hphase : a.phase ≠ .ended) (hnew : phase ≠ .ended) (j : ℕ) (b b' : Attempt)
    (hb : s.attempts[j]? = some b) (hb' : (s.setPhase i phase).attempts[j]? = some b') :
    b'.isOpen = b.isOpen := by
  rw [getElem?_setPhase, hb, Option.map_some] at hb'
  cases hb'
  by_cases hij : i = j
  · subst hij
    obtain rfl := Option.some.inj (ha.symm.trans hb)
    rw [if_pos rfl]
    unfold Attempt.isOpen
    dsimp only
    split
    · exact absurd rfl hnew
    · rfl
  · rw [if_neg hij]

theorem Orderly.setPhase (h : Orderly s) (haccounted : Accounted s) {i : ℕ} {phase : Phase}
    {a : Attempt} (ha : s.attempts[i]? = some a) (hphase : a.phase.isOutstanding = true)
    (hnew : phase ≠ .ended) : Accounted (s.setPhase i phase) ∧ Orderly (s.setPhase i phase) := by
  have hover : a.phase ≠ .ended := by
    intro hover
    rw [hover] at hphase
    cases hphase
  have he : Evolves s (s.setPhase i phase) := evolves_setPhase fun b hb _ => by
    rw [Option.some.inj (hb.symm.trans ha)]
    exact hphase
  have hopen := isOpen_setPhase ha hover hnew
  refine ⟨haccounted.congr rfl he.length fun j b hb => ?_, h.evolve he rfl hopen⟩
  obtain ⟨b', hb', hspec, -⟩ := he.attempts j b hb
  exact ⟨b', hb', hspec, hopen j b b' hb hb'⟩

/-- **One step** keeps the account precisely when it is balanced, and then it keeps the attempts in
order. -/
theorem Orderly.step (h : Orderly s) (haccounted : Accounted s) {c : RuntimeCall}
    (hstep : runtimeStep s c = some s') :
    (Accounted s' ↔ Balanced s c) ∧ (Balanced s c → Orderly s') := by
  cases c with
  | submit spec now clock issuedAt startedAt poolAccepts =>
    cases hstep
    rcases s.submitTask_cases spec now clock issuedAt startedAt poolAccepts with ⟨-, hsame⟩ | ⟨-, hs⟩
    · rw [hsame]
      exact ⟨iff_of_true haccounted trivial, fun _ => h⟩
    · refine ⟨iff_of_true ?_ trivial, fun _ => h.submitted hs⟩
      obtain ⟨snap, phase, hattempts, hphase⟩ := hs.attempts
      have hopen : Attempt.isOpen ⟨spec, snap, phase, false⟩ = true := by
        rcases hphase with rfl | ⟨rfl, -⟩
        · rfl
        · rfl
      refine ⟨?_, ?_, ?_⟩
      · rw [hs.admission, hattempts, openSum_concat hopen, ← haccounted.cpu]
        rfl
      · rw [hs.admission, hattempts, openSum_concat hopen, ← haccounted.memory]
        rfl
      · rw [hs.admission, hattempts, openSum_concat hopen, ← haccounted.slots]
        rfl
  | cancel taskId reason now =>
    cases hstep
    by_cases hlive : ∃ snap, s.cancellable taskId = .ok (snap, true)
    · obtain ⟨snap, hlive⟩ := hlive
      obtain ⟨hiff, horderly⟩ := @Orderly.cancel_iff s h haccounted taskId reason now snap hlive
      rw [hiff]
      refine ⟨⟨fun hqueued _ _ => hqueued, fun hb => hb snap hlive⟩, fun hb => ?_⟩
      obtain ⟨i, a, hqueued, -⟩ := hb snap hlive
      exact horderly ⟨i, a, hqueued⟩
    · rw [cancelTask_of_not_live (not_exists.mp hlive)]
      exact ⟨iff_of_true haccounted fun snap hsnap => absurd ⟨snap, hsnap⟩ hlive, fun _ => h⟩
  | start i =>
    obtain ⟨a, ha, hqueued, rfl⟩ := start_eq_some hstep
    have houtstanding : a.phase.isOutstanding = true := by rw [hqueued]; rfl
    cases hreason : s.cancelReason a with
    | none =>
      have hbalanced : Balanced s (.start i) := fun b hb => by
        rw [Option.some.inj (hb.symm.trans ha), hreason]
      obtain ⟨hkept, horderly⟩ := @Orderly.setPhase s h haccounted i .running a ha houtstanding nofun
      exact ⟨iff_of_true hkept hbalanced, fun _ => horderly⟩
    | some reason =>
      have hnot : ¬ Balanced s (.start i) := by
        intro hb
        rw [hb a ha] at hreason
        cases hreason
      refine ⟨iff_of_false ?_ hnot, fun hb => absurd hb hnot⟩
      exact (closes_setPhase s i).not_accounted haccounted ha (h.outstanding i a ha houtstanding) rfl
  | finish i outcome =>
    obtain ⟨a, ha, hrunning, rfl⟩ := finish_eq_some hstep
    obtain ⟨hkept, horderly⟩ := @Orderly.setPhase s h haccounted i
      (.returned (s.checkedOutcome a outcome)) a ha (by rw [hrunning]; rfl) nofun
    exact ⟨iff_of_true hkept trivial, fun _ => horderly⟩
  | complete i finishedAt =>
    obtain ⟨a, outcome, hreturned, rfl⟩ := complete_eq_some hstep
    obtain ⟨ha, hphase⟩ := returnedAttempt_eq_some.mp hreturned
    have houtstanding : a.phase.isOutstanding = true := by rw [hphase]; rfl
    have hopen := h.outstanding i a ha houtstanding
    have hback := s.calledBack_callBack i (h.wellformed.snaps i a ha houtstanding) outcome finishedAt
    have hcloses := closes_calledBack hback
    refine ⟨hcloses.keeps_account_iff haccounted ha hopen hback.admission, fun _ => ?_⟩
    refine h.closes hback.evolves hcloses ha hopen (fun a' ha' => ?_) hback.current hback.snapshots
    rw [hback.attempts, getElem?_setPhase, ha, Option.map_some, if_pos rfl] at ha'
    rw [← Option.some.inj ha']
    rfl
  | registerWorker spec =>
    cases hstep
    exact ⟨iff_of_true ⟨haccounted.cpu, haccounted.memory, haccounted.slots⟩ trivial,
      fun _ => ⟨⟨h.wellformed.threads, h.wellformed.processes, h.wellformed.snaps⟩, h.one, h.live,
        h.opened, h.outstanding⟩⟩
  | deregisterWorker workerId =>
    cases hstep
    exact ⟨iff_of_true ⟨haccounted.cpu, haccounted.memory, haccounted.slots⟩ trivial,
      fun _ => ⟨⟨h.wellformed.threads, h.wellformed.processes, h.wellformed.snaps⟩, h.one, h.live,
        h.opened, h.outstanding⟩⟩

/-! ## Every run -/

section Runs

variable (fencing : Option FencingManager) (budget : ResourceBudget)
  (allowOversubscription isDraining : Bool) (registry : WorkerRegistry) (leases : ExecutionLeaseManager)

end Runs

/-- An authority without workers. -/
def idleAuthority : RuntimeAuthority :=
  newAuthority none ⟨64, 16, 32768⟩ false false ⟨.empty, .empty, .empty⟩ (newLeaseManager 30 .empty)

/-- A task of one core. -/
def sampleTask : TaskSpec := ⟨"t", "load", true, [], 1, 512, 1, true, false⟩

/-- A task that waits for a worker is cancelled. -/
def cancelledPending : List RuntimeCall :=
  [.submit sampleTask "now" 0 none "now" true, .cancel "t" "stop" "later"]

end ResourceRun

end EngineRuntime
