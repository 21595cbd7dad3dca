import Mathlib.Algebra.BigOperators.Finprod

/-!
# Totals of finitely supported functions

Accounting over an unbounded key space: a function from keys to amounts of which all but finitely
many are zero, its total `∑ᶠ x, f x`, and what an update at one key does to it
(`finsum_update_add`).  The amounts are natural numbers, so the update is stated with the old
amount on the other side.

Nothing here mentions a particular program.
-/

namespace Ciss

variable {α : Type*} [DecidableEq α]

/-- An update touches the support at its key only. -/
lemma support_update_subset (f : α → ℕ) (a : α) (v : ℕ) :
    (Function.update f a v).support ⊆ insert a f.support := by
  intro x hx
  by_cases hxa : x = a
  · exact Or.inl hxa
  · rw [Function.mem_support, Function.update_of_ne hxa] at hx
    exact Or.inr hx

/-- **One amount replaced.**  The total changes by what the one amount changes by. -/
theorem finsum_update_add {f : α → ℕ} (hf : f.support.Finite) (a : α) (v : ℕ) :
    (∑ᶠ x, Function.update f a v x) + f a = (∑ᶠ x, f x) + v := by
  have hkeys : ((insert a hf.toFinset : Finset α) : Set α) = insert a f.support := by
    rw [Finset.coe_insert, Set.Finite.coe_toFinset]
  have hsub : f.support ⊆ (insert a hf.toFinset : Finset α) := by
    rw [hkeys]
    exact Set.subset_insert a _
  have hsub' : (Function.update f a v).support ⊆ (insert a hf.toFinset : Finset α) := by
    rw [hkeys]
    exact support_update_subset f a v
  have hmem : a ∈ insert a hf.toFinset := Finset.mem_insert_self _ _
  rw [finsum_eq_sum_of_support_subset _ hsub', finsum_eq_sum_of_support_subset _ hsub,
    Finset.sum_update_of_mem hmem, Finset.sdiff_singleton_eq_erase,
    ← Finset.add_sum_erase _ f hmem]
  omega

/-- The total over the keys that hold something. -/
lemma finsum_eq_sum_of_mem {f : α → ℕ} {keys : Finset α} (h : ∀ x, x ∉ keys → f x = 0) :
    ∑ᶠ x, f x = ∑ x ∈ keys, f x := by
  refine finsum_eq_sum_of_support_subset f ?_
  intro x hx
  by_contra hne
  exact hx (h x hne)

end Ciss
