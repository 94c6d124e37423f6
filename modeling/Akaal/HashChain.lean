/-
# Hash chains

Links with consecutive numbers, each of which names the checksum of the one before it and carries a
digest of its own number, of that checksum and of its body.

* `valid_append_iff` : a chain splits at every link;
* `Valid.rest` : what is left without the first links is a chain from its own first link;
* `Valid.commit` : the last checksum determines the chain, when the digest tells links apart;
* `valid_take_filter_iff` : when a chain from which links are removed still is one, as far as it is read;
* `valid_map_body_iff` : when one with other bodies is.
-/
import Mathlib

namespace HashChain

variable {B H : Type*}

/-- A link of a chain. -/
structure Link (B H : Type*) where
  seq : ℤ
  parent : H
  checksum : H
  body : B

variable (digest : ℤ → H → B → H)

/-- Links that follow one another, from a number and a checksum. -/
def Valid : ℤ → H → List (Link B H) → Prop
  | _, _, [] => True
  | n, p, l :: ls =>
    l.seq = n ∧ l.parent = p ∧ l.checksum = digest l.seq l.parent l.body ∧
      Valid (n + 1) l.checksum ls

/-- The checksum at the end of a chain. -/
def endHash (p : H) : List (Link B H) → H
  | [] => p
  | l :: ls => endHash l.checksum ls

variable {digest} {n : ℤ} {p : H} {xs ys ls : List (Link B H)} {l : Link B H}

theorem endHash_append (p : H) (xs ys : List (Link B H)) :
    endHash p (xs ++ ys) = endHash (endHash p xs) ys := by
  induction xs generalizing p with
  | nil => rfl
  | cons x xs ih => exact ih x.checksum

/-- **A chain splits** at every link. -/
theorem valid_append_iff : Valid digest n p (xs ++ ys) ↔
      Valid digest n p xs ∧ Valid digest (n + xs.length) (endHash p xs) ys := by
  induction xs generalizing n p with
  | nil => simp [Valid, endHash]
  | cons x xs ih =>
    rw [List.cons_append, Valid, Valid, ih, endHash, List.length_cons, and_assoc, and_assoc,
      and_assoc]
    push_cast
    rw [show n + 1 + (xs.length : ℤ) = n + (xs.length + 1) by omega]

theorem valid_concat_iff :
    Valid digest n p (ls ++ [l]) ↔ Valid digest n p ls ∧ l.seq = n + ls.length ∧
      l.parent = endHash p ls ∧ l.checksum = digest l.seq l.parent l.body := by
  rw [valid_append_iff, Valid]
  simp [Valid]

theorem Valid.start (h : Valid digest n p (l :: ls)) : l.seq = n ∧ l.parent = p := ⟨h.1, h.2.1⟩

/-- **What is left without the first links** is a chain from its own first link. -/
theorem Valid.rest (h : Valid digest n p (xs ++ l :: ls)) :
    Valid digest l.seq l.parent (l :: ls) := by
  have hrest := (valid_append_iff.mp h).2
  obtain ⟨hseq, hparent⟩ := hrest.start
  rw [hseq, hparent]
  exact hrest

theorem Valid.le_seq (h : Valid digest n p ls) : ∀ l ∈ ls, n ≤ l.seq := by
  induction ls generalizing n p with
  | nil => exact List.forall_mem_nil _
  | cons l ls ih =>
    obtain ⟨hseq, -, -, hrest⟩ := h
    refine List.forall_mem_cons.mpr ⟨hseq.ge, fun m hm => ?_⟩
    have hle := ih hrest m hm
    omega

theorem Valid.seq_lt (h : Valid digest n p ls) : ∀ l ∈ ls, l.seq < n + ls.length := by
  induction ls generalizing n p with
  | nil => exact List.forall_mem_nil _
  | cons l ls ih =>
    obtain ⟨hseq, -, -, hrest⟩ := h
    rw [List.length_cons]
    push_cast
    refine List.forall_mem_cons.mpr ⟨by omega, fun m hm => ?_⟩
    have hlt := ih hrest m hm
    omega

theorem Valid.exists_seq (h : Valid digest n p ls) {k : ℤ} (hle : n ≤ k) (hlt : k < n + ls.length) :
    ∃ l ∈ ls, l.seq = k := by
  induction ls generalizing n p with
  | nil =>
    rw [List.length_nil] at hlt
    omega
  | cons l ls ih =>
    obtain ⟨hseq, -, -, hrest⟩ := h
    rcases hle.eq_or_lt with rfl | hnext
    · exact ⟨l, List.mem_cons_self, hseq⟩
    · rw [List.length_cons] at hlt
      push_cast at hlt
      obtain ⟨m, hm, hmk⟩ := ih hrest (by omega) (by omega)
      exact ⟨m, List.mem_cons_of_mem l hm, hmk⟩

theorem Valid.checksum_eq (h : Valid digest n p ls) (hl : l ∈ ls) :
    l.checksum = digest l.seq l.parent l.body := by
  induction ls generalizing n p with
  | nil => cases hl
  | cons m ls ih =>
    obtain ⟨-, -, hchecksum, hrest⟩ := h
    rcases List.mem_cons.mp hl with rfl | hl
    · exact hchecksum
    · exact ih hrest hl

theorem Valid.pairwise_seq (h : Valid digest n p ls) : ls.Pairwise fun l m => l.seq < m.seq := by
  induction ls generalizing n p with
  | nil => exact List.Pairwise.nil
  | cons l ls ih =>
    obtain ⟨hseq, -, -, hrest⟩ := h
    refine List.pairwise_cons.mpr ⟨fun m hm => ?_, ih hrest⟩
    have hle := hrest.le_seq m hm
    omega

theorem Valid.take (h : Valid digest n p ls) (limit : ℕ) : Valid digest n p (ls.take limit) := by
  rw [← List.take_append_drop limit ls] at h
  exact (valid_append_iff.mp h).1

/-- **Links are removed.**  What is kept of a chain is one, up to a limit, precisely when no link is kept
after one that is removed within the limit. -/
theorem valid_take_filter_iff {α : Type*} {link : α → Link B H} {as : List α} (keep : α → Bool)
    (limit : ℕ) (h : Valid digest n p (as.map link)) :
    Valid digest n p (((as.filter keep).take limit).map link) ↔
      ∀ d ∈ as, keep d = false → (link d).seq < n + limit →
        ∀ k ∈ as, keep k → (link k).seq ≤ (link d).seq := by
  induction as generalizing n p limit with
  | nil => simp [Valid]
  | cons a as ih =>
    obtain ⟨hseq, hparent, hchecksum, hrest⟩ := h
    have hle : ∀ b ∈ as, n + 1 ≤ (link b).seq := fun b hb =>
      hrest.le_seq (link b) (List.mem_map_of_mem hb)
    cases limit with
    | zero =>
      refine iff_of_true (by rw [List.take_zero]; trivial) fun d hd _ hlt => ?_
      rcases List.mem_cons.mp hd with rfl | hd
      · exact absurd hlt (by simp [hseq])
      · have hdle := hle d hd
        push_cast at hlt
        omega
    | succ limit =>
      cases hkeep : keep a with
      | true =>
        rw [List.filter_cons_of_pos hkeep, List.take_succ_cons, List.map_cons, Valid,
          ih limit hrest]
        constructor
        · rintro ⟨-, -, -, hkept⟩ d hd hremoved hlt k hk hkeepk
          rcases List.mem_cons.mp hd with rfl | hrestd
          · rw [hkeep] at hremoved
            cases hremoved
          · rcases List.mem_cons.mp hk with rfl | hrestk
            · have hdle := hle d hrestd
              omega
            · exact hkept d hrestd hremoved (by push_cast at hlt; omega) k hrestk hkeepk
        · intro hkept
          refine ⟨hseq, hparent, hchecksum, fun d hd hremoved hlt k hk => ?_⟩
          exact hkept d (List.mem_cons_of_mem a hd) hremoved (by push_cast; omega) k
            (List.mem_cons_of_mem a hk)
      | false =>
        rw [List.filter_cons_of_neg (by simp [hkeep])]
        -- the first number is missing, and what is kept starts with a later one
        cases hfilter : as.filter keep with
        | nil =>
          refine iff_of_true trivial fun d _ _ _ k hk hkeepk => ?_
          rcases List.mem_cons.mp hk with rfl | hk
          · rw [hkeep] at hkeepk
            cases hkeepk
          · have hmem : k ∈ as.filter keep := List.mem_filter.mpr ⟨hk, hkeepk⟩
            rw [hfilter] at hmem
            cases hmem
        | cons k ks =>
          have hmem : k ∈ as.filter keep := by
            rw [hfilter]
            exact List.mem_cons_self
          obtain ⟨hk, hkeepk⟩ := List.mem_filter.mp hmem
          have hkle := hle k hk
          rw [List.take_succ_cons, List.map_cons]
          refine iff_of_false (fun hvalid => ?_) fun hkept => ?_
          · have hkseq := hvalid.1
            omega
          · have hlt := hkept a List.mem_cons_self hkeep (by push_cast; omega) k
              (List.mem_cons_of_mem a hk) hkeepk
            omega

/-- **Bodies are changed.**  A chain with other bodies is one precisely when the digests are the same. -/
theorem valid_map_body_iff {α : Type*} {link : α → Link B H} {as : List α} (f : α → B)
    (h : Valid digest n p (as.map link)) :
    Valid digest n p (as.map fun a => { link a with body := f a }) ↔
      ∀ a ∈ as, digest (link a).seq (link a).parent (f a) =
        digest (link a).seq (link a).parent (link a).body := by
  induction as generalizing n p with
  | nil => simp [Valid]
  | cons a as ih =>
    obtain ⟨hseq, hparent, hchecksum, hrest⟩ := h
    rw [List.map_cons, Valid, ih hrest, List.forall_mem_cons]
    refine ⟨fun hvalid => ⟨?_, hvalid.2.2.2⟩, fun hsame => ⟨hseq, hparent, ?_, hsame.2⟩⟩
    · rw [← hchecksum]
      exact hvalid.2.2.1.symm
    · rw [hchecksum]
      exact hsame.1.symm

/-- **Commitment.**  Two chains with the same checksum at their ends have the same links and the same
start, when the digest tells the links apart that stand at the same place. -/
theorem Valid.commit {n' : ℤ} {p' : H} {ls' : List (Link B H)} (h : Valid digest n p ls)
    (h' : Valid digest n' p' ls')
    (hpairs : ls.Forall₂ (fun l l' => digest l.seq l.parent l.body = digest l'.seq l'.parent l'.body →
      l.seq = l'.seq ∧ l.parent = l'.parent ∧ l.body = l'.body) ls')
    (hend : endHash p ls = endHash p' ls') : ls = ls' ∧ p = p' := by
  induction hpairs generalizing n n' p p' with
  | nil => exact ⟨rfl, hend⟩
  | @cons l l' ls ls' hpair _ ih =>
    obtain ⟨-, hparent, hchecksum, hrest⟩ := h
    obtain ⟨-, hparent', hchecksum', hrest'⟩ := h'
    -- the rest determines the checksums of the first links
    obtain ⟨hls, hsame⟩ := ih hrest hrest' hend
    obtain ⟨hs, hp, hb⟩ := hpair (by rw [← hchecksum, ← hchecksum', hsame])
    have hfirst : l = l' := by
      cases l
      cases l'
      simp only [Link.mk.injEq]
      exact ⟨hs, hp, hsame, hb⟩
    refine ⟨by rw [hfirst, hls], ?_⟩
    rw [← hparent, ← hparent', hp]

end HashChain
