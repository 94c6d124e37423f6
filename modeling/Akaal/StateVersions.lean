/-
# Lost updates

Clients read the state of a key with its version and swap it under that version, while others put
and delete states.  The version of a key that was deleted starts at 1 again.

* `StateRun.version_final` : without a deletion the version counts the writes;
* `StateRun.lostUpdateFree_iff` : the histories in which a swap that succeeds finds the state its
  client read;
* `StateRun.lostUpdate_of_delete` : a state that is deleted and created again between the two.
-/
import Akaal.EventTrace
import Akaal.StateRecords

open CDC EventTrace JsonText

namespace Durability

namespace StateRun

/-! ## Histories -/

/-- A call of a client. -/
inductive StateCall where
  | get (client : ℕ) (key space : String)
  | put (record : StateRecord) (now : String) (fits : Bool)
  | delete (key space : String)
  | swap (client : ℕ) (key space : String) (expectedVersion : ℤ) (newPayload : StatePayload)
      (now : String) (fits : Bool)

/-- What a call has done.  A key without a row is read at version 0, the version under which
`compare_and_swap` creates it. -/
inductive StateEvent where
  | read (client : ℕ) (key space : String) (version : ℤ)
  | wrote (key space : String)
  | deleted (key space : String)
  | swapped (client : ℕ) (key space : String) (expectedVersion : ℤ)
  | unchanged
  deriving DecidableEq

variable (rt : DigestRuntime)

/-- One call. -/
def stateStep (t : StateTable) : StateCall → StateEvent × StateTable
  | .get client key space =>
    match getState rt t key space with
    | .ok read => (.read client key space (read.elim 0 ReadState.version), t)
    | .error _ => (.unchanged, t)
  | .put record now fits =>
    match putState rt t record now fits with
    | .ok (_, t') => (.wrote record.key record.space, t')
    | .error _ => (.unchanged, t)
  | .delete key space =>
    (if (deleteState t key space).1 then .deleted key space else .unchanged,
      (deleteState t key space).2)
  | .swap client key space expectedVersion newPayload now fits =>
    match compareAndSwap rt t key space expectedVersion newPayload now fits with
    | .ok (_, t') => (.swapped client key space expectedVersion, t')
    | .error _ => (.unchanged, t)

/-- The history of the calls on a table. -/
def history (t : StateTable) (calls : List StateCall) : List StateEvent := trace (stateStep rt) t calls

/-! ## The property and the condition -/

/-- The event is a write or a deletion of the key. -/
def StateEvent.changes (key space : String) : StateEvent → Bool
  | .wrote key' space' | .deleted key' space' | .swapped _ key' space' _ =>
    key' = key ∧ space' = space
  | _ => false

/-- What a client does between its read of a key and its swap under the version it read. -/
def Between (events : List StateEvent) (key space : String) (between : List StateEvent) : Prop :=
  ∃ before after client version, events = before ++ .read client key space version ::
      (between ++ .swapped client key space version :: after)

/-- Between a read and a swap that succeeds under its version the key is neither written nor
deleted. -/
def LostUpdateFree (events : List StateEvent) : Prop :=
  ∀ key space between, Between events key space between → ∀ e ∈ between, e.changes key space = false

/-- The condition: between a read and a swap that succeeds under its version the key is not
deleted. -/
def KeptBetween (events : List StateEvent) : Prop :=
  ∀ key space between, Between events key space between → .deleted key space ∉ between

/-! ## Versions -/

variable {rt} {t : StateTable}

theorem version_of_getState {key space : String} {read : Option ReadState}
    (h : getState rt t key space = .ok read) : t.version space key = read.elim 0 ReadState.version := by
  unfold getState at h
  unfold StateTable.version
  split at h
  · next hrow =>
      cases h
      rw [hrow]
      rfl
  · next row hrow =>
      split_ifs at h
      split at h
      · cases h
      · split at h
        · cases h
        · cases h
          rw [hrow]
          rfl

theorem version_of_read {call : StateCall} {client : ℕ} {key space : String} {version : ℤ}
    (h : (stateStep rt t call).1 = .read client key space version) :
    t.version space key = version ∧ (stateStep rt t call).2 = t := by
  cases call with
  | get client' key' space' =>
    unfold stateStep at h ⊢
    dsimp only at h ⊢
    cases hread : getState rt t key' space' with
    | error e =>
      rw [hread] at h
      cases h
    | ok read =>
      rw [hread] at h
      obtain ⟨rfl, rfl, rfl, rfl⟩ := StateEvent.read.inj h
      exact ⟨version_of_getState hread, rfl⟩
  | put record now fits =>
    unfold stateStep at h
    dsimp only at h
    split at h <;> cases h
  | delete key' space' =>
    unfold stateStep at h
    dsimp only at h
    split_ifs at h
  | swap client' key' space' expectedVersion newPayload now fits =>
    unfold stateStep at h
    dsimp only at h
    split at h <;> cases h

theorem version_of_swapped {call : StateCall} {client : ℕ} {key space : String} {version : ℤ}
    (h : (stateStep rt t call).1 = .swapped client key space version) :
    t.version space key = version := by
  cases call with
  | get client' key' space' =>
    unfold stateStep at h
    dsimp only at h
    split at h <;> cases h
  | put record now fits =>
    unfold stateStep at h
    dsimp only at h
    split at h <;> cases h
  | delete key' space' =>
    unfold stateStep at h
    dsimp only at h
    split_ifs at h
  | swap client' key' space' expectedVersion newPayload now fits =>
    unfold stateStep at h
    dsimp only at h
    split at h
    · next n t' hswap =>
        obtain ⟨rfl, rfl, rfl, rfl⟩ := StateEvent.swapped.inj h
        exact (compareAndSwap_writes hswap).1
    · cases h

theorem version_congr {t' : StateTable} {space key : String} (h : t' space key = t space key) :
    t'.version space key = t.version space key := by
  rw [StateTable.version, h, StateTable.version]

/-- What one event adds to the version of a key. -/
def StateEvent.gain (key space : String) (e : StateEvent) : ℤ := if e.changes key space then 1 else 0

/-- A write of one key adds 1 to its version and nothing to those of the others. -/
theorem version_gain {t' : StateTable} {key' space' : String} {payload : StatePayload}
    (h : Writes rt t t' space' key' payload) (key space : String) {e : StateEvent}
    (he : e.changes key space = decide (key' = key ∧ space' = space)) :
    t'.version space key = t.version space key + e.gain key space := by
  rw [StateEvent.gain, he]
  by_cases hkey : key' = key ∧ space' = space
  · obtain ⟨rfl, rfl⟩ := hkey
    rw [h.version_eq]
    simp
  · rw [version_congr (h.of_ne fun hsame => hkey ⟨hsame.2.symm, hsame.1.symm⟩)]
    simp [hkey]

/-- **What a call makes of a version**: a write or a swap of the key adds 1, and without a deletion
it stays otherwise. -/
theorem version_stateStep {call : StateCall} {key space : String}
    (h : (stateStep rt t call).1 ≠ .deleted key space) :
    (stateStep rt t call).2.version space key =
      t.version space key + (stateStep rt t call).1.gain key space := by
  cases call with
  | get client key' space' =>
    unfold stateStep
    dsimp only
    cases getState rt t key' space' with
    | error e => exact (add_zero _).symm
    | ok read => exact (add_zero _).symm
  | put record now fits =>
    unfold stateStep
    dsimp only
    cases hput : putState rt t record now fits with
    | error e => exact (add_zero _).symm
    | ok written => exact version_gain (putState_writes hput).2 key space rfl
  | delete key' space' =>
    unfold stateStep at h ⊢
    dsimp only at h ⊢
    by_cases hkey : space = space' ∧ key = key'
    · obtain ⟨rfl, rfl⟩ := hkey
      cases hrow : t space key with
      | some row =>
        refine absurd (if_pos ?_) h
        rw [deleteState, hrow, Option.isSome_some]
      | none =>
        have hversion : t.version space key = 0 := by
          rw [StateTable.version, hrow, Option.elim_none]
        have hnone : (deleteState t key space).1 = false := by
          rw [deleteState, hrow, Option.isSome_none]
        rw [hversion, StateTable.version, deleteState_self, Option.elim_none, hnone]
        rfl
    · rw [version_congr (deleteState_of_ne hkey), left_eq_add, StateEvent.gain]
      apply if_neg
      split_ifs
      · rw [StateEvent.changes, decide_eq_true_eq]
        exact fun hsame => hkey ⟨hsame.2.symm, hsame.1.symm⟩
      · exact Bool.false_ne_true
  | swap client key' space' expectedVersion newPayload now fits =>
    unfold stateStep
    dsimp only
    cases hswap : compareAndSwap rt t key' space' expectedVersion newPayload now fits with
    | error e => exact (add_zero _).symm
    | ok written => exact version_gain (compareAndSwap_writes hswap).2.2 key space rfl

/-- **Without a deletion the version counts the writes.** -/
theorem version_final {calls : List StateCall} {key space : String}
    (h : .deleted key space ∉ history rt t calls) :
    (final (stateStep rt) t calls).version space key =
      t.version space key + (history rt t calls).countP (StateEvent.changes key space) := by
  unfold history at h ⊢
  induction calls generalizing t with
  | nil => exact (add_zero _).symm
  | cons call calls ih =>
    rw [trace_cons, List.mem_cons, not_or] at h
    rw [final_cons, ih h.2, version_stateStep (Ne.symm h.1), trace_cons, List.countP_cons]
    push_cast
    rw [StateEvent.gain]
    ring

/-! ## The theorem -/

/-- What stands between a read and a swap is the history of calls from one version to the same. -/
theorem exists_calls_between {calls : List StateCall} {key space : String} {between : List StateEvent}
    (h : Between (history rt t calls) key space between) :
    ∃ u calls', history rt u calls' = between ∧
      (final (stateStep rt) u calls').version space key = u.version space key := by
  obtain ⟨before, after, client, version, hhistory⟩ := h
  obtain ⟨bs, call, bs', -, -, hread, hrest⟩ := trace_eq_append_cons hhistory
  obtain ⟨cs, call', cs', -, hbetween, hswap, -⟩ := trace_eq_append_cons hrest
  obtain ⟨hversion, hsame⟩ := version_of_read hread
  rw [hsame] at hbetween hswap
  exact ⟨_, cs, hbetween, (version_of_swapped hswap).trans hversion.symm⟩

/-- **No update is lost** in exactly the histories in which no key is deleted between the read of a
client and its swap. -/
theorem lostUpdateFree_iff (rt : DigestRuntime) (t : StateTable) (calls : List StateCall) :
    LostUpdateFree (history rt t calls) ↔ KeptBetween (history rt t calls) := by
  constructor
  · intro h key space between hbetween hdeleted
    have hunchanged := h key space between hbetween _ hdeleted
    simp [StateEvent.changes] at hunchanged
  · intro h key space between hbetween e he
    have hkept := h key space between hbetween
    obtain ⟨u, calls', rfl, hversion⟩ := exists_calls_between hbetween
    rw [version_final hkept, add_eq_left, Nat.cast_eq_zero, List.countP_eq_zero] at hversion
    exact Bool.eq_false_iff.mpr (hversion e he)

/-! ## A state that is deleted and created again -/

/-- A payload with a single number. -/
def samplePayload (n : ℤ) : StatePayload where
  items := [(.str "v", .int n)]
  isInput := by simp [IsInput, AreInputItems]

/-- The record of a key with a single number. -/
def sampleRecord (n : ℤ) : StateRecord := ⟨"k", "s", samplePayload n, 1⟩

/-- A digest that is the text itself. -/
def stateRuntime : DigestRuntime where
  sha256Hex := id
  hmacHex := fun _ text => text
  str := fun _ => ""

/-- A client reads a state, another one deletes it and puts a new one, and the swap of the first
succeeds. -/
def deletedBetween : List StateCall :=
  [.put (sampleRecord 1) "2026-01-01" true, .get 1 "k" "s", .delete "k" "s",
    .put (sampleRecord 2) "2026-01-01" true, .swap 1 "k" "s" 1 (samplePayload 3) "2026-01-01" true]

theorem history_deletedBetween : history stateRuntime StateTable.empty deletedBetween =
    [.wrote "k" "s", .read 1 "k" "s" 1, .deleted "k" "s", .wrote "k" "s", .swapped 1 "k" "s" 1] := by
  decide +kernel

/-- **An update is lost** when the state is deleted and created again. -/
theorem lostUpdate_of_delete :
    ¬ LostUpdateFree (history stateRuntime StateTable.empty deletedBetween) := by
  rw [history_deletedBetween]
  intro h
  have hbetween := h "k" "s" [.deleted "k" "s", .wrote "k" "s"]
    ⟨[.wrote "k" "s"], [], 1, 1, rfl⟩ (.deleted "k" "s") List.mem_cons_self
  exact absurd hbetween (by decide)

end StateRun

end Durability
