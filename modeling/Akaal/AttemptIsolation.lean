/-
# Late callbacks

A task of `RuntimeAuthority` that was cancelled may be submitted again while the callback of the earlier
attempt is still to run; the callback knows the task only by its id.

* `IsolationRun.Current` : the attempts in the pools are the newest ones of their tasks;
* `IsolationRun.isolated_of_sole` : callbacks leave later attempts alone when a task is submitted again
  only after the callbacks of its earlier attempts;
* `IsolationRun.not_isolated_of_outstanding` : and every other submission has a run in which one does
  not.
-/
import Akaal.RuntimeAuthority

open TransitionRun

namespace EngineRuntime

namespace IsolationRun

open RuntimeRun RuntimeAuthority

/-! ## What a callback may touch -/

/-- What belongs to a later attempt of the task is as it was: its snapshot, its lease and its worker. -/
structure LeavesAlone (taskId : String) (b : Attempt) (s s' : RuntimeAuthority) : Prop where
  snapshot : s'.snapshots.get? taskId = s.snapshots.get? taskId
  lease : ∀ snap leaseId, b.snap = some snap → snap.leaseId = some leaseId →
    s'.leases.leases.get? leaseId = s.leases.leases.get? leaseId ∧
      (s.leases.taskLeases.get? taskId = some leaseId → s'.leases.taskLeases.get? taskId = some leaseId)
  worker : ∀ snap workerId, b.snap = some snap → snap.workerId = some workerId →
    (taskId ∈ s'.registry.tasksOf workerId ↔ taskId ∈ s.registry.tasksOf workerId)

/-- The callback of an attempt leaves every later attempt of its task alone. -/
def CallsBackAlone (s : RuntimeAuthority) (i : ℕ) (a : Attempt) (outcome : Except String PyValue)
    (finishedAt : String) : Prop :=
  ∀ snap, a.snap = some snap → ∀ (j : ℕ) (b : Attempt), i < j → s.attempts[j]? = some b →
    b.spec.taskId = a.spec.taskId →
      LeavesAlone a.spec.taskId b s (s.completionCallback a.spec snap outcome finishedAt)

/-- The callback that a step runs, if it runs one, leaves later attempts alone. -/
def Isolated (s : RuntimeAuthority) : RuntimeCall → Prop
  | .complete i finishedAt => ∀ a outcome, s.returnedAttempt i = some (a, outcome) →
      CallsBackAlone s i a outcome finishedAt
  | .cancel taskId reason now => ∀ snap, s.cancellable taskId = .ok (snap, true) →
      ∀ i a, (s.cancelling taskId reason snap).queuedFuture s.processFutures taskId = some (i, a) →
        CallsBackAlone (s.cancelling taskId reason snap) i a (.error "") now
  | _ => True

/-- A task that is admitted has no attempt whose callback is still to run. -/
def Sole (s : RuntimeAuthority) : RuntimeCall → Prop
  | .submit spec .. => s.admits spec = true → ∀ a ∈ s.attempts, a.spec.taskId = spec.taskId →
      a.phase.isOutstanding = false
  | _ => True

instance (s : RuntimeAuthority) : DecidablePred (Sole s)
  | .submit .. => inferInstanceAs (Decidable (_ → _))
  | .cancel .. | .start _ | .finish .. | .complete .. | .registerWorker _ | .deregisterWorker _ =>
    isTrue trivial

/-! ## The newest attempts -/

/-- An attempt in a pool is the newest one of its task; one that is queued is the future of its task, whose
snapshot is not final. -/
structure Current (s : RuntimeAuthority) : Prop where
  wellformed : s.Wellformed
  newest : ∀ (i j : ℕ) (a b : Attempt), s.attempts[i]? = some a → s.attempts[j]? = some b →
    a.phase.isOutstanding = true → i < j → b.spec.taskId ≠ a.spec.taskId
  queued : ∀ (i : ℕ) (a : Attempt), s.attempts[i]? = some a → a.phase = .queued →
    (if a.spec.processIsolated then s.processFutures else s.threadFutures).get? a.spec.taskId = some i ∧
      ∃ snap, s.snapshots.get? a.spec.taskId = some snap ∧ snap.isTerminal = false

variable {s s' : RuntimeAuthority}

theorem Current.newest_of_evolves (h : Current s) (he : Evolves s s') (i j : ℕ) (a' b' : Attempt)
    (ha' : s'.attempts[i]? = some a') (hb' : s'.attempts[j]? = some b')
    (houtstanding : a'.phase.isOutstanding = true) (hij : i < j) : b'.spec.taskId ≠ a'.spec.taskId := by
  obtain ⟨a, ha, haspec, -, hphase⟩ := he.of_get ha'
  obtain ⟨b, hb, hbspec, -⟩ := he.of_get hb'
  rw [haspec, hbspec]
  exact h.newest i j a b ha hb (hphase houtstanding) hij

variable {a : Attempt} {i : ℕ}

/-- Two attempts of a task in the pools are one. -/
theorem Current.eq_of_outstanding (h : Current s) {j : ℕ} {b : Attempt}
    (ha : s.attempts[i]? = some a) (hb : s.attempts[j]? = some b)
    (haphase : a.phase.isOutstanding = true) (hbphase : b.phase.isOutstanding = true)
    (htask : a.spec.taskId = b.spec.taskId) : i = j := by
  rcases lt_trichotomy i j with hlt | heq | hlt
  · exact absurd htask.symm (h.newest i j a b ha hb haphase hlt)
  · exact heq
  · exact absurd htask (h.newest j i b a hb ha hbphase hlt)

/-- **A submission** of a task without outstanding callbacks. -/
theorem Current.submitted (h : Current s) {spec : TaskSpec} (hs : Submitted spec s s')
    (hsole : ∀ a ∈ s.attempts, a.spec.taskId = spec.taskId → a.phase.isOutstanding = false) :
    Current s' := by
  obtain ⟨snap, phase, hattempts, hphase⟩ := hs.attempts
  have hcases : ∀ {i : ℕ} {a : Attempt}, s'.attempts[i]? = some a →
      s.attempts[i]? = some a ∨ i = s.attempts.length ∧ a = ⟨spec, snap, phase, false⟩ := by
    intro i a ha
    rw [hattempts] at ha
    exact getElem?_concat_cases ha
  have htask : ∀ {i : ℕ} {a : Attempt}, s.attempts[i]? = some a → a.phase.isOutstanding = true →
      a.spec.taskId ≠ spec.taskId := by
    intro i a ha houtstanding htask
    rw [hsole a (List.mem_of_getElem? ha) htask] at houtstanding
    cases houtstanding
  refine ⟨h.wellformed.submitted hs, ?_, ?_⟩
  · intro i j a b ha hb houtstanding hij
    rcases hcases ha with ha | ⟨rfl, rfl⟩
    · rcases hcases hb with hb | ⟨rfl, rfl⟩
      · exact h.newest i j a b ha hb houtstanding hij
      · exact (htask ha houtstanding).symm
    · have hlt := (List.getElem?_eq_some_iff.mp hb).1
      rw [hattempts, List.length_append, List.length_singleton] at hlt
      omega
  · intro i a ha hqueued
    rcases hcases ha with ha | ⟨rfl, rfl⟩
    · have hne := htask ha (by rw [hqueued]; rfl)
      obtain ⟨hfuture, hsnap⟩ := h.queued i a ha hqueued
      obtain ⟨hthreads, hprocesses⟩ := hs.futures _ hne
      rw [hs.snapshots _ hne]
      refine ⟨?_, hsnap⟩
      rw [← hfuture]
      cases a.spec.processIsolated with
      | true => exact hprocesses
      | false => exact hthreads
    · rcases hphase with rfl | ⟨-, -, hfuture⟩
      · cases hqueued
      · exact ⟨hfuture, hs.current⟩

theorem Current.setPhase (h : Current s) {phase : Phase}
    (ha : s.attempts[i]? = some a) (hphase : a.phase.isOutstanding = true) (hnew : phase ≠ .queued) :
    Current (s.setPhase i phase) := by
  have he : Evolves s (s.setPhase i phase) := evolves_setPhase fun b hb _ => by
    rw [Option.some.inj (hb.symm.trans ha)]
    exact hphase
  refine ⟨h.wellformed.evolve he, h.newest_of_evolves he, fun j b' hb' hqueued => ?_⟩
  rw [getElem?_setPhase] at hb'
  obtain ⟨b, hb, rfl⟩ := Option.map_eq_some_iff.mp hb'
  by_cases hij : i = j
  · rw [if_pos hij] at hqueued
    exact absurd hqueued hnew
  · rw [if_neg hij] at hqueued ⊢
    exact h.queued j b hb hqueued

/-- **An attempt that calls back** leaves the queued attempts of other tasks. -/
theorem Current.calledBack (h : Current s) (ha : s.attempts[i]? = some a)
    (hphase : a.phase.isOutstanding = true) (hback : CalledBack i a.spec s s') : Current s' := by
  refine ⟨h.wellformed.evolve hback.evolves, h.newest_of_evolves hback.evolves,
    fun j b' hb' hqueued => ?_⟩
  rw [hback.attempts, getElem?_setPhase] at hb'
  obtain ⟨b, hb, rfl⟩ := Option.map_eq_some_iff.mp hb'
  by_cases hij : i = j
  · rw [if_pos hij] at hqueued
    cases hqueued
  · rw [if_neg hij] at hqueued ⊢
    have htask : b.spec.taskId ≠ a.spec.taskId := fun htask =>
      hij (h.eq_of_outstanding ha hb hphase (by rw [hqueued]; rfl) htask.symm)
    obtain ⟨hfuture, hsnap⟩ := h.queued j b hb hqueued
    rw [hback.threadFutures, hback.processFutures, hback.snapshots _ htask]
    exact ⟨hfuture, hsnap⟩

/-- **A cancellation** leaves the queued attempts of other tasks. -/
theorem Current.cancelled (h : Current s) {taskId : String} (hs : Cancelled taskId s s') :
    Current s' := by
  refine ⟨h.wellformed.evolve hs.evolves, h.newest_of_evolves hs.evolves, fun j b' hb' hqueued => ?_⟩
  obtain ⟨b, hb, -⟩ := hs.evolves.of_get hb'
  obtain ⟨phase, hb'', hover, hother, hnot⟩ := hs.attempts j b hb
  obtain rfl := Option.some.inj (hb'.symm.trans hb'')
  have hphase : b.phase = .queued := by
    rcases hover with heq | heq
    · exact heq.symm.trans hqueued
    · exact absurd (heq.symm.trans hqueued) nofun
  obtain ⟨hfuture, hsnap⟩ := h.queued j b hb hphase
  have htask : b.spec.taskId ≠ taskId := by
    rintro rfl
    refine hnot ?_ hqueued
    cases hisolated : b.spec.processIsolated with
    | true =>
      rw [hisolated] at hfuture
      exact .inr hfuture
    | false =>
      rw [hisolated] at hfuture
      exact .inl hfuture
  rw [hs.threadFutures, hs.processFutures, hs.snapshots _ htask]
  exact ⟨hfuture, hsnap⟩

/-- **One step** without a second outstanding attempt keeps the newest attempts where they are. -/
theorem Current.step (h : Current s) {c : RuntimeCall} (hsole : Sole s c)
    (hstep : runtimeStep s c = some s') : Current s' := by
  cases c with
  | submit spec now clock issuedAt startedAt poolAccepts =>
    cases hstep
    rcases s.submitTask_cases spec now clock issuedAt startedAt poolAccepts with
      ⟨-, hsame⟩ | ⟨hadmits, hs⟩
    · rw [hsame]
      exact h
    · exact h.submitted hs (hsole hadmits)
  | cancel taskId reason now =>
    cases hstep
    by_cases hlive : ∃ snap, s.cancellable taskId = .ok (snap, true)
    · obtain ⟨snap, hlive⟩ := hlive
      exact h.cancelled (h.wellformed.cancelled hlive)
    · rw [cancelTask_of_not_live (not_exists.mp hlive)]
      exact h
  | start i =>
    obtain ⟨a, ha, hqueued, rfl⟩ := start_eq_some hstep
    refine h.setPhase ha (by rw [hqueued]; rfl) ?_
    split_ifs
    · exact nofun
    · exact nofun
  | finish i outcome =>
    obtain ⟨a, ha, hrunning, rfl⟩ := finish_eq_some hstep
    exact h.setPhase ha (by rw [hrunning]; rfl) nofun
  | complete i finishedAt =>
    obtain ⟨a, outcome, hreturned, rfl⟩ := complete_eq_some hstep
    obtain ⟨ha, hphase⟩ := returnedAttempt_eq_some.mp hreturned
    have houtstanding : a.phase.isOutstanding = true := by rw [hphase]; rfl
    exact h.calledBack ha houtstanding
      (s.calledBack_callBack i (h.wellformed.snaps i a ha houtstanding) outcome finishedAt)
  | registerWorker spec =>
    cases hstep
    exact ⟨⟨h.wellformed.threads, h.wellformed.processes, h.wellformed.snaps⟩, h.newest, h.queued⟩
  | deregisterWorker workerId =>
    cases hstep
    exact ⟨⟨h.wellformed.threads, h.wellformed.processes, h.wellformed.snaps⟩, h.newest, h.queued⟩

theorem evolves_giveUp (s : RuntimeAuthority) (futures : PyDict ℕ) (taskId : String) :
    Evolves s (s.giveUp futures taskId) := by
  obtain ⟨-, -, hthreads, hprocesses⟩ := s.giveUp_spec futures taskId
  refine ⟨hthreads, hprocesses, length_giveUp _ _ _, fun j a ha => ?_⟩
  obtain ⟨phase, ha', hover, -⟩ := getElem?_giveUp futures taskId ha
  refine ⟨_, ha', rfl, rfl, ?_⟩
  rcases hover with rfl | rfl
  · exact id
  · exact nofun

/-- **A step that finds the newest attempts in the pools** runs a callback only where there is no later
attempt. -/
theorem Current.isolated (h : Current s) (c : RuntimeCall) : Isolated s c := by
  cases c with
  | complete i finishedAt =>
    intro a outcome hreturned snap _ j b hij hb htask
    obtain ⟨ha, hphase⟩ := returnedAttempt_eq_some.mp hreturned
    exact absurd htask (h.newest i j a b ha hb (by rw [hphase]; rfl) hij)
  | cancel taskId reason now =>
    intro snap hlive i a hfuture snap' _ j b' hij hb' htask
    obtain ⟨-, -, -, -, hattempts, hqueue⟩ := h.wellformed.cancelling taskId reason snap
    rw [hqueue] at hfuture
    obtain ⟨-, ha, hqueued⟩ := queuedFuture_eq_some.mp hfuture
    rw [hattempts] at hb'
    obtain ⟨b, hb, hspec, -⟩ := (evolves_giveUp s _ _).of_get hb'
    rw [hspec] at htask
    exact absurd htask (h.newest i j a b ha hb (by rw [hqueued]; rfl) hij)
  | _ => trivial

/-! ## Every run -/

/-- A new authority has no attempts. -/
theorem current_newAuthority (fencing : Option FencingManager) (budget : ResourceBudget)
    (allowOversubscription isDraining : Bool) (registry : WorkerRegistry)
    (leases : ExecutionLeaseManager) :
    Current (newAuthority fencing budget allowOversubscription isDraining registry leases) := by
  refine ⟨wellformed_newAuthority _ _ _ _ _ _, fun i j a b ha => ?_, fun i a ha => ?_⟩
  · cases ha
  · cases ha

/-- **Callbacks leave later attempts alone**, in every step of a run in which a task is submitted again
only after the callbacks of its earlier attempts. -/
theorem isolated_of_sole {calls : List RuntimeCall} (h : Current s)
    (hsole : MeetsAlong runtimeStep Sole s calls) : MeetsAlong runtimeStep Isolated s calls := by
  induction calls generalizing s with
  | nil => trivial
  | cons c calls ih =>
    intro s' hstep
    obtain ⟨hc, hrest⟩ := hsole s' hstep
    exact ⟨h.isolated c, ih (h.step hc hstep) hrest⟩

theorem current_of_sole {calls : List RuntimeCall} (h : Current s)
    (hsole : MeetsAlong runtimeStep Sole s calls) (hrun : run runtimeStep s calls = some s') :
    Current s' :=
  (holdsAlong_of_meetsAlong (fun _ _ _ hs hc hstep => hs.step hc hstep) h hsole).finish hrun

/-- The callback of an attempt changes the snapshot of a task that is not done, also when it belongs to a
later attempt. -/
theorem not_isolated_complete {j : ℕ} {b : Attempt} {outcome : Except String PyValue}
    {finishedAt : String} {snap current : TaskSnapshot} (hreturned : s.returnedAttempt i = some (a, outcome))
    (hsnap : a.snap = some snap) (hij : i < j) (hb : s.attempts[j]? = some b)
    (htask : b.spec.taskId = a.spec.taskId) (hcurrent : s.snapshots.get? a.spec.taskId = some current)
    (hlive : current.isTerminal = false) : ¬ Isolated s (.complete i finishedAt) := by
  intro h
  have hsame := (h a outcome hreturned snap hsnap j b hij hb htask).snapshot
  obtain ⟨done, hdone, hterminal⟩ :=
    (s.calledBack_callBack i (a := a) (by rw [hsnap]; rfl) outcome finishedAt).current
  rw [callBack, hsnap] at hdone
  have heq := Option.some.inj (hdone.symm.trans (hsame.trans hcurrent))
  rw [heq, hlive] at hterminal
  cases hterminal

theorem exists_complete {outcome : Except String PyValue}
    (hreturned : s.returnedAttempt i = some (a, outcome)) (finishedAt : String) :
    ∃ s', runtimeStep s (.complete i finishedAt) = some s' :=
  ⟨_, by rw [runtimeStep, complete, hreturned, Option.map_some]⟩

/-- **A submission beside an outstanding callback** has a run in which that callback changes the snapshot
of the new attempt. -/
theorem not_isolated_of_outstanding (h : Current s) {spec : TaskSpec} {now : String} {clock : ℚ}
    {issuedAt : Option String} {startedAt : String} {poolAccepts : Bool}
    (hnot : ¬ Sole s (.submit spec now clock issuedAt startedAt poolAccepts)) :
    ∃ calls, ¬ MeetsAlong runtimeStep Isolated s
      (.submit spec now clock issuedAt startedAt poolAccepts :: calls) := by
  rw [Sole, Classical.not_imp] at hnot
  obtain ⟨hadmits, hnot⟩ := hnot
  push Not at hnot
  obtain ⟨a, hmem, htask, houtstanding⟩ := hnot
  rw [ne_eq, Bool.not_eq_false] at houtstanding
  obtain ⟨i, ha⟩ := List.getElem?_of_mem hmem
  have hs : Submitted spec s (s.submitTask spec now clock issuedAt startedAt poolAccepts).2 := by
    rcases s.submitTask_cases spec now clock issuedAt startedAt poolAccepts with ⟨hrefused, -⟩ | ⟨-, hs⟩
    · rw [hadmits] at hrefused
      cases hrefused
    · exact hs
  obtain ⟨snap, hsnap⟩ := Option.isSome_iff_exists.mp (h.wellformed.snaps i a ha houtstanding)
  obtain ⟨newSnap, phase, hattempts, -⟩ := hs.attempts
  obtain ⟨current, hcurrent, hlive⟩ := hs.current
  set t := (s.submitTask spec now clock issuedAt startedAt poolAccepts).2 with ht
  have hi := (List.getElem?_eq_some_iff.mp ha).1
  have hta : t.attempts[i]? = some a := by rw [hattempts, List.getElem?_append_left hi, ha]
  have htb : t.attempts[s.attempts.length]? = some ⟨spec, newSnap, phase, false⟩ := by
    rw [hattempts, List.getElem?_concat_length]
  rw [← htask] at hcurrent
  cases hphase : a.phase with
  | waiting =>
    rw [hphase] at houtstanding
    cases houtstanding
  | ended =>
    rw [hphase] at houtstanding
    cases houtstanding
  | queued =>
    -- the snapshot of a queued attempt is not final, so the task is not admitted
    obtain ⟨-, old, hold, hterminal⟩ := h.queued i a ha hphase
    rw [htask] at hold
    rw [hs.fresh old hold] at hterminal
    cases hterminal
  | returned outcome =>
    have hreturned := returnedAttempt_eq_some.mpr ⟨hta, hphase⟩
    obtain ⟨u, hu⟩ := exists_complete hreturned "later"
    refine ⟨[.complete i "later"], fun hmeets => ?_⟩
    obtain ⟨hisolated, -⟩ := (hmeets t rfl).2 u hu
    exact not_isolated_complete hreturned hsnap hi htb htask.symm hcurrent hlive hisolated
  | running =>
    -- the function ends, and then the callback runs
    have hfinish : runtimeStep t (.finish i (.ok .none)) =
        some (t.setPhase i (.returned (t.checkedOutcome a (.ok .none)))) := by
      rw [runtimeStep, finish, hta, Option.bind_some, hphase]
    set v := t.setPhase i (.returned (t.checkedOutcome a (.ok .none))) with hv
    have hva : v.attempts[i]? = some { a with phase := .returned (t.checkedOutcome a (.ok .none)) } := by
      rw [hv, getElem?_setPhase, hta, Option.map_some, if_pos rfl]
    have hvb : v.attempts[s.attempts.length]? = some ⟨spec, newSnap, phase, false⟩ := by
      rw [hv, getElem?_setPhase, htb, Option.map_some, if_neg hi.ne]
    have hreturned := returnedAttempt_eq_some.mpr ⟨hva, rfl⟩
    obtain ⟨u, hu⟩ := exists_complete hreturned "later"
    refine ⟨[.finish i (.ok .none), .complete i "later"], fun hmeets => ?_⟩
    obtain ⟨-, hrest⟩ := (hmeets t rfl).2 v hfinish
    obtain ⟨hisolated, -⟩ := hrest u hu
    exact not_isolated_complete hreturned hsnap hi hvb htask.symm hcurrent hlive hisolated

section Runs

variable (fencing : Option FencingManager) (budget : ResourceBudget)
  (allowOversubscription isDraining : Bool) (registry : WorkerRegistry) (leases : ExecutionLeaseManager)

/-- **Callbacks leave later attempts alone** in every run whose tasks are submitted again only after the
callbacks of their earlier attempts, and each such run that goes on with another submission has a
continuation in which a callback does not. -/
theorem callbacks_isolated (calls : List RuntimeCall) (hsole : MeetsAlong runtimeStep Sole
      (newAuthority fencing budget allowOversubscription isDraining registry leases) calls) :
    MeetsAlong runtimeStep Isolated
        (newAuthority fencing budget allowOversubscription isDraining registry leases) calls ∧
      ∀ s c, run runtimeStep
          (newAuthority fencing budget allowOversubscription isDraining registry leases) calls = some s →
        ¬ Sole s c → ∃ more, ¬ MeetsAlong runtimeStep Isolated s (c :: more) := by
  have hnew := current_newAuthority fencing budget allowOversubscription isDraining registry leases
  refine ⟨isolated_of_sole hnew hsole, fun s c hrun hnot => ?_⟩
  cases c with
  | submit spec now clock issuedAt startedAt poolAccepts =>
    exact not_isolated_of_outstanding (current_of_sole hnew hsole hrun) hnot
  | _ => exact absurd trivial hnot

end Runs

/-- An authority with a worker of two slots. -/
def oneWorker : RuntimeAuthority :=
  newAuthority none ⟨64, 16, 32768⟩ false false
    (WorkerRegistry.registerWorker ⟨.empty, .empty, .empty⟩ ⟨"w", "node", [], 2⟩)
    (newLeaseManager 30 .empty)

/-- A task that is run by a thread. -/
def threadTask : TaskSpec := ⟨"t", "load", true, [], 1, 512, 1, true, false⟩

/-- A task is submitted again after its callback. -/
def rerun : List RuntimeCall :=
  [.submit threadTask "now" 0 none "now" true, .start 0, .finish 0 (.ok .none), .complete 0 "later",
    .submit threadTask "later" 1 none "later" true]

/-- No callback touches a later attempt of the task that runs twice. -/
theorem callbacks_isolated_rerun : MeetsAlong runtimeStep Isolated oneWorker rerun :=
  (callbacks_isolated none ⟨64, 16, 32768⟩ false false
    (WorkerRegistry.registerWorker ⟨.empty, .empty, .empty⟩ ⟨"w", "node", [], 2⟩)
    (newLeaseManager 30 .empty) rerun (by decide +kernel)).1

/-- A task is cancelled while it runs and submitted again, and then its function ends. -/
def resubmitted : List RuntimeCall :=
  [.submit threadTask "now" 0 none "now" true, .start 0, .cancel "t" "stop" "later",
    .submit threadTask "later" 1 none "later" true, .finish 0 (.ok .none)]

/-- The first attempt has ended, the second one is of the same task, and the task is not done. -/
def endsLate (s : RuntimeAuthority) : Bool :=
  match s.returnedAttempt 0, s.attempts[1]? with
  | some (a, _), some b =>
    a.snap.isSome && b.spec.taskId = a.spec.taskId &&
      (s.snapshots.get? a.spec.taskId).any fun snap => !snap.isTerminal
  | _, _ => false

/-- The callback of an attempt that was cancelled overwrites the snapshot of the next one. -/
theorem not_isolated_resubmitted :
    ¬ MeetsAlong runtimeStep Isolated oneWorker (resubmitted ++ [.complete 0 "later"]) := by
  have hany : (run runtimeStep oneWorker resubmitted).any endsLate = true := by decide +kernel
  obtain ⟨t, hrun, hlate⟩ := (Option.any_eq_true _ _).mp hany
  intro h
  unfold endsLate at hlate
  split at hlate
  · next a outcome b hreturned hb =>
      simp only [Bool.and_eq_true, decide_eq_true_iff] at hlate
      obtain ⟨⟨hsnap, htask⟩, hlive⟩ := hlate
      obtain ⟨snap, hsnap⟩ := Option.isSome_iff_exists.mp hsnap
      obtain ⟨current, hcurrent, hterminal⟩ := (Option.any_eq_true _ _).mp hlive
      obtain ⟨u, hu⟩ := exists_complete hreturned "later"
      exact not_isolated_complete hreturned hsnap Nat.zero_lt_one hb htask hcurrent
        ((Bool.not_eq_true' _).mp hterminal) ((h.of_append hrun) u hu).1
  · cases hlate

end IsolationRun

end EngineRuntime
