/-
# The XOR of a list of digests

Combining digests by XOR does not depend on their order, and equal digests cancel in pairs:
what is left of a list is the XOR over the elements that occur an odd number of times.

* `xorSum_perm` : rearranging a list does not change its XOR;
* `xorSum_oddPart` : only the elements occurring an odd number of times contribute;
* `xorSum_eq_iff_oddPart` : two lists have one XOR precisely when the digests of the elements
  that occur an odd number of times in the two together cancel.
-/
import Mathlib

namespace XorParity

variable {α : Type*}

/-! ## The XOR of a list -/

/-- The XOR of the digests of a list. -/
def xorSum (f : α → ℕ) (l : List α) : ℕ := l.foldr (fun a acc => f a ^^^ acc) 0

@[simp] theorem xorSum_nil (f : α → ℕ) : xorSum f [] = 0 := rfl

@[simp] theorem xorSum_cons (f : α → ℕ) (a : α) (l : List α) :
    xorSum f (a :: l) = f a ^^^ xorSum f l := rfl

theorem xorSum_append (f : α → ℕ) (l m : List α) :
    xorSum f (l ++ m) = xorSum f l ^^^ xorSum f m := by
  induction l with
  | nil => simp
  | cons a l ih => rw [List.cons_append, xorSum_cons, ih, xorSum_cons, Nat.xor_assoc]

variable {a : α} {l : List α}

/-- Rearranging a list does not change its XOR. -/
theorem xorSum_perm (f : α → ℕ) {m : List α} (h : l.Perm m) : xorSum f l = xorSum f m := by
  induction h with
  | nil => rfl
  | cons a _ ih => rw [xorSum_cons, xorSum_cons, ih]
  | swap a b l =>
    rw [xorSum_cons, xorSum_cons, xorSum_cons, xorSum_cons, ← Nat.xor_assoc,
      Nat.xor_comm (f b), Nat.xor_assoc]
  | trans _ _ ih₁ ih₂ => exact ih₁.trans ih₂

/-! ## What does not cancel -/

variable [DecidableEq α]

/-- The elements that occur an odd number of times, each once. -/
def oddPart (l : List α) : List α := l.dedup.filter fun a => l.count a % 2 = 1

theorem nodup_oddPart (l : List α) : (oddPart l).Nodup := (List.nodup_dedup l).filter _

theorem mem_oddPart : a ∈ oddPart l ↔ l.count a % 2 = 1 := by
  have hmem : l.count a % 2 = 1 → a ∈ l := fun h => List.count_pos_iff.mp (by omega)
  simpa [oddPart] using hmem

theorem oddPart_cons_of_even (h : a ∉ oddPart l) : (oddPart (a :: l)).Perm (a :: oddPart l) := by
  refine (List.perm_ext_iff_of_nodup (nodup_oddPart _)
    (List.nodup_cons.mpr ⟨h, nodup_oddPart l⟩)).mpr fun b => ?_
  rw [mem_oddPart] at h
  rw [List.mem_cons, mem_oddPart, mem_oddPart, List.count_cons]
  by_cases hab : b = a
  · subst hab
    simp
    omega
  · have hba : (a == b) = false := by simpa using Ne.symm hab
    simp [hab, hba]

theorem oddPart_cons_of_odd (h : a ∈ oddPart l) :
    (oddPart (a :: l)).Perm ((oddPart l).erase a) := by
  refine (List.perm_ext_iff_of_nodup (nodup_oddPart _)
    ((nodup_oddPart l).erase a)).mpr fun b => ?_
  rw [(nodup_oddPart l).mem_erase_iff, mem_oddPart, mem_oddPart, List.count_cons]
  rw [mem_oddPart] at h
  by_cases hab : b = a
  · subst hab
    simp
    omega
  · have hba : (a == b) = false := by simpa using Ne.symm hab
    simp [hab, hba]

/-- **Cancellation.**  Only the elements that occur an odd number of times contribute to the
XOR of a list. -/
theorem xorSum_oddPart (f : α → ℕ) (l : List α) : xorSum f (oddPart l) = xorSum f l := by
  induction l with
  | nil => rfl
  | cons a l ih =>
    rw [xorSum_cons, ← ih]
    by_cases h : a ∈ oddPart l
    · have hsplit : xorSum f (oddPart l) = f a ^^^ xorSum f ((oddPart l).erase a) :=
        xorSum_perm f (List.perm_cons_erase h)
      rw [xorSum_perm f (oddPart_cons_of_odd h), hsplit, ← Nat.xor_assoc, Nat.xor_self,
        Nat.zero_xor]
    · exact xorSum_perm f (oddPart_cons_of_even h)

/-- **Equality of XORs.**  Two lists have one XOR precisely when the digests of the elements
that occur an odd number of times in the two together cancel. -/
theorem xorSum_eq_iff_oddPart (f : α → ℕ) (l m : List α) :
    xorSum f l = xorSum f m ↔ xorSum f (oddPart (l ++ m)) = 0 := by
  rw [xorSum_oddPart, xorSum_append, Nat.xor_eq_zero_iff]

theorem oddPart_append_of_perm {m : List α} (h : l.Perm m) : oddPart (l ++ m) = [] := by
  refine List.eq_nil_iff_forall_not_mem.mpr fun a ha => ?_
  rw [mem_oddPart, List.count_append, h.count_eq] at ha
  omega

end XorParity
