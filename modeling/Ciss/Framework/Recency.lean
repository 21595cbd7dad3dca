import Mathlib.Data.Finset.Card
import Ciss.Framework.Firsts
import Ciss.Framework.Machine

/-!
# What was used most recently

A table with room for `n` keys gives up, when it needs a place, the key whose last use lies furthest
back.  Kept as a list of its keys, the one used last in front, a use moves its key to the front and
cuts the list off at `n` (`touch`).  After any uses such a table holds the `n` distinct keys that
were used last (`run_touch`), whatever it has given up and taken in again on the way.

A table that may give up a key at any time counts, under a key, the uses since it took the key in:
`value_since` says so of every table whose step changes what it keeps under the used key alone.

Nothing here mentions a particular program.
-/

namespace Ciss

/-! ## The order of last uses -/

section

variable {α : Type*} [DecidableEq α] {n : Nat} {l as : List α} {a : α}

/-- A use of `a` in a table with room for `n` keys. -/
def touch (n : Nat) (l : List α) (a : α) : List α := (a :: l.erase a).take n

lemma take_erase_take : ((l.take (n + 1)).erase a).take n = (l.erase a).take n := by
  induction l generalizing n with
  | nil => simp
  | cons b l ih =>
      by_cases hb : b = a
      · subst hb
        rw [List.take_succ_cons, List.erase_cons_head, List.erase_cons_head, List.take_take,
          min_self]
      · have hb' : ¬ (b == a) = true := by simpa using hb
        rw [List.take_succ_cons, List.erase_cons_tail hb', List.erase_cons_tail hb']
        cases n with
        | zero => rfl
        | succ n => rw [List.take_succ_cons, List.take_succ_cons, ih]

/-- The first appearances in a list that is extended in front. -/
lemma distinct_cons : distinct (a :: l) = a :: (distinct l).erase a := by
  induction l using List.reverseRecOn with
  | nil => simp [distinct, firsts, keepFirst]
  | append_singleton l x ih =>
      rw [← List.cons_append, distinct_concat, distinct_concat, ih]
      by_cases hx : x ∈ l
      · rw [if_pos (List.mem_cons_of_mem a hx), if_pos hx]
      · rw [if_neg hx]
        by_cases hxa : x = a
        · subst hxa
          have hd : x ∉ distinct l := mt mem_distinct.mp hx
          rw [if_pos List.mem_cons_self, List.erase_append_right _ hd, List.erase_of_not_mem hd,
            List.erase_cons_head, List.append_nil]
        · rw [if_neg (by simpa using ⟨hxa, hx⟩), List.cons_append]
          by_cases ha : a ∈ distinct l
          · rw [List.erase_append_left _ ha]
          · rw [List.erase_append_right _ ha, List.erase_of_not_mem ha,
              List.erase_of_not_mem (by simpa using Ne.symm hxa)]

lemma nodup_distinct : (distinct l).Nodup :=
  distinct_pairwise_idxOf.imp fun hlt heq => absurd hlt (by rw [heq]; exact lt_irrefl _)

lemma length_distinct : (distinct l).length = l.toFinset.card := by
  rw [← List.toFinset_card_of_nodup nodup_distinct]
  congr 1
  ext x
  rw [List.mem_toFinset, List.mem_toFinset, mem_distinct]

lemma distinct_prefix (l l' : List α) : distinct l <+: distinct (l ++ l') := by
  induction l' using List.reverseRecOn with
  | nil => rw [List.append_nil]
  | append_singleton l' x ih =>
      rw [← List.append_assoc, distinct_concat]
      split_ifs
      · exact ih
      · exact ih.trans (List.prefix_append _ _)

/-- A member is among the first `n` distinct ones when fewer than `n` others appear before it. -/
lemma mem_take_distinct :
    a ∈ (distinct l).take n ↔
      ∃ pre post, l = pre ++ a :: post ∧ a ∉ pre ∧ pre.toFinset.card < n := by
  have hsplit : ∀ pre post, a ∉ pre →
      (a ∈ (distinct (pre ++ a :: post)).take n ↔ pre.toFinset.card < n) := by
    intro pre post hpre
    obtain ⟨rest, hrest⟩ := distinct_prefix (pre ++ [a]) post
    rw [distinct_concat, if_neg hpre] at hrest
    have hl : distinct (pre ++ a :: post) = distinct pre ++ a :: rest := by
      rw [List.append_cons, ← hrest, List.append_assoc, List.singleton_append]
    have hnot : a ∉ distinct pre := mt mem_distinct.mp hpre
    rw [hl, ← length_distinct, List.mem_take_iff_idxOf_lt (by simp),
      List.idxOf_append_of_notMem hnot, List.idxOf_cons_self, Nat.add_zero]
  constructor
  · intro h
    have ha : a ∈ l := mem_distinct.mp (List.mem_of_mem_take h)
    obtain ⟨pre, post, rfl, hpre⟩ := List.eq_append_cons_of_mem ha
    exact ⟨pre, post, rfl, hpre, (hsplit pre post hpre).mp h⟩
  · rintro ⟨pre, post, rfl, hpre, hcard⟩
    exact (hsplit pre post hpre).mpr hcard

/-- **What a bounded table holds.**  After any uses: the distinct keys used last, the latest first,
as many as there is room for. -/
theorem run_touch : run (touch (n + 1)) [] as = (distinct as.reverse).take (n + 1) := by
  induction as using List.reverseRecOn with
  | nil => simp [distinct, firsts]
  | append_singleton as a ih =>
      rw [run_append, run_cons, run_nil, ih, touch, List.reverse_append, List.reverse_singleton,
        List.singleton_append, distinct_cons, List.take_succ_cons, List.take_succ_cons,
        take_erase_take]

end

/-! ## A table that forgets -/

section

variable {σ α β γ : Type*} [DecidableEq α] {update : Option β → γ → β} {s : σ}
  {uses : List (α × γ)} {a : α}

/-- The value that uses of one key build up, from none. -/
def valueOf (update : Option β → γ → β) (cs : List γ) : Option β :=
  cs.foldl (fun v c => some (update v c)) none

/-- What the uses of `a` brought, in order. -/
def usesOf (a : α) (uses : List (α × γ)) : List γ :=
  (uses.filter fun u => u.1 = a).map Prod.snd

lemma usesOf_concat (a : α) (uses : List (α × γ)) (u : α × γ) :
    usesOf a (uses ++ [u]) = if u.1 = a then usesOf a uses ++ [u.2] else usesOf a uses := by
  rw [usesOf, usesOf, List.filter_append, List.map_append]
  by_cases hu : u.1 = a <;> simp [hu]

lemma valueOf_concat (cs : List γ) (c : γ) :
    valueOf update (cs ++ [c]) = some (update (valueOf update cs) c) := by
  rw [valueOf, List.foldl_append]
  rfl

/-- **Values since the last admission.**  A table that keeps `a` throughout `uses`, before which it
did not have it, keeps under `a` what the uses of `a` among them build up. -/
theorem value_since (step : σ → α × γ → σ) (table : σ → α → Option β) (update : Option β → γ → β)
    (hown : ∀ p u, p ++ [u] <+: uses → u.1 = a →
      table (run step s (p ++ [u])) a = some (update (table (run step s p) a) u.2))
    (hother : ∀ p u, p ++ [u] <+: uses → u.1 ≠ a →
      table (run step s (p ++ [u])) a = table (run step s p) a ∨
        table (run step s (p ++ [u])) a = none)
    (hnew : table s a = none)
    (hkept : ∀ p, p ≠ [] → p <+: uses → table (run step s p) a ≠ none) :
    table (run step s uses) a = valueOf update (usesOf a uses) := by
  induction uses using List.reverseRecOn with
  | nil => exact hnew
  | append_singleton uses u ih =>
      have hprefix : uses <+: uses ++ [u] := List.prefix_append _ _
      have hbefore := ih (fun p v hp => hown p v (hp.trans hprefix))
        (fun p v hp => hother p v (hp.trans hprefix)) fun p hne hp => hkept p hne (hp.trans hprefix)
      rw [usesOf_concat]
      by_cases hu : u.1 = a
      · rw [if_pos hu, valueOf_concat, hown uses u (List.prefix_refl _) hu, hbefore]
      · rw [if_neg hu, ← hbefore]
        rcases hother uses u (List.prefix_refl _) hu with h | h
        · exact h
        · exact absurd h (hkept _ (by simp) (List.prefix_refl _))

end

end Ciss
