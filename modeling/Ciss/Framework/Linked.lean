import Mathlib.Data.List.Forall2
import Mathlib.Data.List.Induction

/-!
# Hash-linked lists

A hash-linked list holds entries of which each names the hash of the entry before it and its own
position; the first one names a fixed genesis.  `LinkedFrom` is the check a reader makes, one entry
after the other, with the hash and the position it expects next.

The last hash of such a list commits to the list (`forall₂_of_getLast?_hash_eq`) as soon as a hash
determines what its entry names as predecessor and position: read backwards, the two lists keep
naming the same predecessors, and the positions make them reach genesis together, so that no
assumption on the genesis hash is needed.
-/

namespace Ciss

section

variable {ε η : Type*} (hash prev : ε → η) (position : ε → ℕ)

/-- Every entry names the hash and the position the reader expects, beginning with these. -/
def LinkedFrom : η → ℕ → List ε → Prop
  | _, _, [] => True
  | h, n, e :: es => prev e = h ∧ position e = n ∧ LinkedFrom (hash e) (n + 1) es

/-- The hash the next entry has to name. -/
def nextHash (genesis : η) (es : List ε) : η := (es.getLast?.map hash).getD genesis

lemma nextHash_cons (h : η) (e : ε) (es : List ε) :
    nextHash hash h (e :: es) = nextHash hash (hash e) es := by
  unfold nextHash
  rw [List.getLast?_cons]
  cases es.getLast? <;> rfl

variable {hash prev position}

lemma linkedFrom_cons {h : η} {n : ℕ} {e : ε} {es : List ε} :
    LinkedFrom hash prev position h n (e :: es) ↔
      prev e = h ∧ position e = n ∧ LinkedFrom hash prev position (hash e) (n + 1) es :=
  Iff.rfl

/-- One more entry. -/
lemma linkedFrom_concat {h : η} {n : ℕ} {es : List ε} {e : ε} :
    LinkedFrom hash prev position h n (es ++ [e]) ↔ LinkedFrom hash prev position h n es ∧
      prev e = nextHash hash h es ∧ position e = n + es.length := by
  induction es generalizing h n with
  | nil => simp [LinkedFrom, nextHash]
  | cons a es ih =>
      have hlength : n + 1 + es.length = n + (a :: es).length := by
        rw [List.length_cons]
        omega
      rw [List.cons_append, linkedFrom_cons, linkedFrom_cons, ih, nextHash_cons, hlength, and_assoc,
        and_assoc]

/-- **The last hash commits to the list.**  By induction from the last entry backwards. -/
theorem forall₂_of_getLast?_hash_eq {agree : ε → ε → Prop} {genesis : η} {l l' : List ε}
    (hbind : ∀ a ∈ l, ∀ b ∈ l', hash a = hash b →
      prev a = prev b ∧ position a = position b ∧ agree a b)
    (hl : LinkedFrom hash prev position genesis 0 l)
    (hl' : LinkedFrom hash prev position genesis 0 l')
    (hlast : l.getLast?.map hash = l'.getLast?.map hash) : List.Forall₂ agree l l' := by
  induction l using List.reverseRecOn generalizing l' with
  | nil =>
      cases l' using List.reverseRecOn with
      | nil => exact .nil
      | append_singleton es b => simp at hlast
  | append_singleton es a ih =>
      cases l' using List.reverseRecOn with
      | nil => simp at hlast
      | append_singleton es' b =>
          obtain ⟨hes, hprev, hpos⟩ := linkedFrom_concat.mp hl
          obtain ⟨hes', hprev', hpos'⟩ := linkedFrom_concat.mp hl'
          have hab : hash a = hash b := by simpa using hlast
          obtain ⟨hprevs, hpositions, hagree⟩ := hbind a (by simp) b (by simp) hab
          -- The positions say that both rests are equally long, so both are empty or neither is.
          have hlength : es.length = es'.length := by omega
          have hnext : es.getLast?.map hash = es'.getLast?.map hash := by
            rw [hprev, hprev'] at hprevs
            unfold nextHash at hprevs
            cases es using List.reverseRecOn with
            | nil => rw [List.length_eq_zero_iff.mp hlength.symm]
            | append_singleton ds d =>
                cases es' using List.reverseRecOn with
                | nil => simp at hlength
                | append_singleton ds' d' => simpa using hprevs
          refine List.rel_append (ih ?_ hes hes' hnext) (.cons hagree .nil)
          exact fun x hx y hy => hbind x (by simp [hx]) y (by simp [hy])

end

end Ciss
