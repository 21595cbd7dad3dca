import Mathlib.Algebra.BigOperators.Group.List.Basic
import Mathlib.Data.List.GetD
import Mathlib.Data.List.Induction
import Mathlib.Data.List.Nodup
import Mathlib.Data.List.Perm.Subperm
import Mathlib.Data.Nat.Factorial.Basic
import Mathlib.Tactic.Ring

/-!
# Drawing without replacement

The first `k` steps of a Fisher-Yates shuffle: each step exchanges the first of what is left with
the entry at the drawn offset, and takes it.  `drawAll l ds` is what the offsets `ds` take from `l`,
and `allDraws n k` are the offsets that can be drawn `k` times from `n` entries.  `shuffleFrom` is
the loop in place, over any source of offsets, and fails when an offset leads out of the list;
`shuffleFrom_eq` says that it succeeds on offsets that can be drawn, and that its front is then what
they take.

`countP_allDraws` counts the draws that take only entries with a given property, by the number `c`
of entries that have it: `c (c - 1) ⋯ (c - k + 1)`.  With the property of being one of `k` given
entries this is `k!`, whatever the entries, so that every choice of `k` entries is drawn equally
often.

Nothing here mentions a particular program.
-/

namespace Ciss

variable {α : Type*} {l : List α} {a : α} {n k d : Nat} {ds : List Nat} {p : α → Bool}

/-! ## One draw after the other -/

/-- Take the entry at offset `d`, after the first entry has been put in its place. -/
def pick (a : α) (l : List α) : Nat → α × List α
  | 0 => (a, l)
  | d + 1 => (l.getD d a, l.set d a)

/-- What the draws take, in order. -/
def drawAll : List α → List Nat → List α
  | a :: l, d :: ds => (pick a l d).1 :: drawAll (pick a l d).2 ds
  | _, _ => []

/-- The draws that can be made `k` times from `n` entries. -/
def allDraws : Nat → Nat → List (List Nat)
  | _, 0 => [[]]
  | 0, _ + 1 => []
  | n + 1, k + 1 => (List.range (n + 1)).flatMap fun d => (allDraws n k).map (d :: ·)

@[simp] lemma drawAll_nil (ds : List Nat) : drawAll ([] : List α) ds = [] := by
  cases ds <;> rfl

@[simp] lemma drawAll_no_draws (l : List α) : drawAll l [] = [] := by
  cases l <;> rfl

@[simp] lemma drawAll_cons (a : α) (l : List α) (d : Nat) (ds : List Nat) :
    drawAll (a :: l) (d :: ds) = (pick a l d).1 :: drawAll (pick a l d).2 ds := rfl

/-- What is taken and what is left are what there was. -/
lemma pick_perm (a : α) (l : List α) (d : Nat) :
    ((pick a l d).1 :: (pick a l d).2).Perm (a :: l) := by
  cases d with
  | zero => exact List.Perm.refl _
  | succ d => exact List.getD_set_perm_cons l d a

@[simp] lemma length_pick (a : α) (l : List α) (d : Nat) : (pick a l d).2.length = l.length := by
  cases d with
  | zero => rfl
  | succ d => exact List.length_set

/-- The entry taken is the one at the offset. -/
lemma pick_fst (hd : d < (a :: l).length) : (pick a l d).1 = (a :: l)[d] := by
  cases d with
  | zero => rfl
  | succ d =>
      rw [pick, List.getD_eq_getElem _ _ (by simpa using hd)]
      rfl

/-- What the draws take is part of what there is, each entry at most once. -/
lemma drawAll_subperm (l : List α) (ds : List Nat) : (drawAll l ds).Subperm l := by
  induction ds generalizing l with
  | nil =>
      rw [drawAll_no_draws]
      exact List.nil_subperm
  | cons d ds ih =>
      cases l with
      | nil => exact List.Subperm.refl _
      | cons a l =>
          rw [drawAll_cons]
          exact ((List.subperm_cons _).mpr (ih _)).trans (pick_perm a l d).subperm

lemma length_drawAll (l : List α) (ds : List Nat) :
    (drawAll l ds).length = min l.length ds.length := by
  induction ds generalizing l with
  | nil => simp
  | cons d ds ih =>
      cases l with
      | nil => simp
      | cons a l => rw [drawAll_cons, List.length_cons, ih, length_pick]; simp

/-! ## The draws there are -/

/-- The draws are those whose offsets stay among what is left. -/
lemma mem_allDraws : ds ∈ allDraws n k ↔
    ds.length = k ∧ ∀ i d, ds[i]? = some d → d + i < n := by
  induction k generalizing n ds with
  | zero => simp +contextual [allDraws, List.length_eq_zero_iff]
  | succ k ih =>
      cases n with
      | zero =>
          simp only [allDraws, List.not_mem_nil, false_iff]
          rintro ⟨hlen, h⟩
          cases ds with
          | nil => cases hlen
          | cons d ds => exact absurd (h 0 d rfl) (Nat.not_lt_zero _)
      | succ n =>
          simp only [allDraws, List.mem_flatMap, List.mem_range, List.mem_map, ih]
          constructor
          · rintro ⟨d, hd, ds, ⟨hlen, h⟩, rfl⟩
            refine ⟨by rw [List.length_cons, hlen], ?_⟩
            rintro (_ | i) e he
            · obtain rfl := Option.some.inj he
              omega
            · have := h i e he
              omega
          · rintro ⟨hlen, h⟩
            cases ds with
            | nil => cases hlen
            | cons d ds =>
                refine ⟨d, by simpa using h 0 d rfl, ds, ⟨by simpa using hlen, ?_⟩, rfl⟩
                intro i e he
                have := h (i + 1) e he
                omega

/-- The first offset of a draw is any of those left, and the others are a draw from the rest. -/
lemma cons_mem_allDraws : d :: ds ∈ allDraws (n + 1) (k + 1) ↔ d < n + 1 ∧ ds ∈ allDraws n k := by
  simp [allDraws]

/-! ## The loop in place -/

/-- Exchange two entries; `none` when one of them does not exist. -/
def exchange (l : List α) (i j : Nat) : Option (List α) :=
  if i < l.length ∧ j < l.length then some (l.swap i j) else none

lemma swap_front (front : List α) (a : α) (d : Nat) (rest : List α) :
    (front ++ a :: rest).swap front.length (front.length + d) =
      front ++ (pick a rest d).1 :: (pick a rest d).2 := by
  induction front with
  | nil =>
      cases d with
      | zero => rfl
      | succ d =>
          rw [List.nil_append, List.length_nil, Nat.zero_add, List.swap_cons_zero_left,
            ← List.getD_eq_getElem?_getD]
          rfl
  | cons b front ih =>
      rw [List.cons_append, List.length_cons, Nat.add_right_comm, List.swap_cons, ih,
        List.cons_append]

/-- An offset among what is left leads to an entry. -/
lemma exchange_front (front : List α) (a : α) (rest : List α) (hd : d < rest.length + 1) :
    exchange (front ++ a :: rest) front.length (front.length + d) =
      some (front ++ (pick a rest d).1 :: (pick a rest d).2) := by
  have hlen : (front ++ a :: rest).length = front.length + (rest.length + 1) := List.length_append
  rw [exchange, if_pos ⟨by omega, by omega⟩, swap_front]

section

variable {σ : Type*} (int : σ → Nat → Nat × σ)

/-- The steps of the shuffle from position `i` on; `int s n` is the next offset below `n`. -/
def shuffleFrom : Nat → Nat → List α → σ → Option (List α × σ)
  | 0, _, pool, s => some (pool, s)
  | steps + 1, i, pool, s =>
      let offset := int s (pool.length - i)
      (exchange pool i (i + offset.1)).bind fun pool => shuffleFrom steps (i + 1) pool offset.2

/-- The offsets that the source yields when `n` entries are left. -/
def draws : Nat → Nat → σ → List Nat
  | 0, _, _ => []
  | steps + 1, n, s => (int s n).1 :: draws steps (n - 1) (int s n).2

/-- The source behind these offsets. -/
def drawn : Nat → Nat → σ → σ
  | 0, _, s => s
  | steps + 1, n, s => drawn steps (n - 1) (int s n).2

variable {steps : Nat}

/-- Offsets that stay in range can be drawn. -/
lemma draws_mem_allDraws {s : σ} (hint : ∀ s n, 0 < n → (int s n).1 < n) (h : steps ≤ n) :
    draws int steps n s ∈ allDraws n steps := by
  induction steps generalizing n s with
  | zero => simp [draws, allDraws]
  | succ steps ih =>
      cases n with
      | zero => cases h
      | succ n =>
          rw [draws, Nat.add_sub_cancel, cons_mem_allDraws]
          exact ⟨hint s (n + 1) n.succ_pos, ih (Nat.le_of_succ_le_succ h)⟩

/-- **The shuffle puts in front what its offsets take**, if they can be drawn. -/
theorem shuffleFrom_eq (s : σ) (front rest : List α)
    (h : draws int steps rest.length s ∈ allDraws rest.length steps) :
    ∃ left, shuffleFrom int steps front.length (front ++ rest) s =
      some (front ++ drawAll rest (draws int steps rest.length s) ++ left,
        drawn int steps rest.length s) := by
  induction steps generalizing front rest s with
  | zero => exact ⟨rest, by simp [shuffleFrom, draws, drawn]⟩
  | succ steps ih =>
      cases rest with
      | nil => cases h
      | cons a rest =>
          rw [List.length_cons, draws, Nat.add_sub_cancel, cons_mem_allDraws] at h
          obtain ⟨hd, hds⟩ := h
          have hleft : (front ++ a :: rest).length - front.length = rest.length + 1 := by
            rw [List.length_append, List.length_cons, Nat.add_sub_cancel_left]
          obtain ⟨left, hrun⟩ := ih (int s (rest.length + 1)).2
            (front ++ [(pick a rest (int s (rest.length + 1)).1).1])
            (pick a rest (int s (rest.length + 1)).1).2 (by rwa [length_pick])
          refine ⟨left, ?_⟩
          rw [length_pick, List.length_append, List.length_singleton] at hrun
          simp only [shuffleFrom, hleft]
          rw [exchange_front front a rest hd, Option.bind_some, List.append_cons, hrun,
            List.length_cons, draws, drawAll_cons, Nat.add_sub_cancel, drawn, Nat.add_sub_cancel,
            List.append_assoc front [_], List.singleton_append]

end

/-- The source of the given offsets. -/
def yields (ds : List Nat) (_ : Nat) : Nat × List Nat := (ds.headD 0, ds.tail)

lemma draws_yields : draws yields ds.length n ds = ds := by
  induction ds generalizing n with
  | nil => rfl
  | cons d ds ih => exact congrArg (d :: ·) ih

lemma drawn_yields : drawn yields ds.length n ds = [] := by
  induction ds generalizing n with
  | nil => rfl
  | cons d ds ih => exact ih

/-! ## Counting draws -/

lemma length_allDraws : (allDraws n k).length = n.descFactorial k := by
  induction k generalizing n with
  | zero => simp [allDraws]
  | succ k ih =>
      cases n with
      | zero => simp [allDraws]
      | succ n =>
          rw [Nat.succ_descFactorial_succ, allDraws, List.length_flatMap]
          simp [ih]

lemma sum_map_ite_range (l : List α) (p : α → Bool) (m : Nat) :
    ((List.range l.length).map fun d => if (l[d]?).any p then m else 0).sum = l.countP p * m := by
  induction l using List.reverseRecOn with
  | nil => simp
  | append_singleton l a ih =>
      rw [List.length_append, List.length_singleton, List.range_succ, List.map_append,
        List.sum_append, List.countP_append, Nat.add_mul, ← ih]
      congr 1
      · refine congrArg List.sum (List.map_congr_left fun d hd => ?_)
        rw [List.getElem?_append_left (List.mem_range.mp hd)]
      · by_cases hp : p a <;> simp [hp]

/-- **How many draws take only entries with a property.** -/
theorem countP_allDraws (l : List α) (p : α → Bool) (hk : k ≤ l.length) :
    (allDraws l.length k).countP (fun ds => (drawAll l ds).all p) = (l.countP p).descFactorial k := by
  induction k generalizing l with
  | zero => simp [allDraws]
  | succ k ih =>
      cases l with
      | nil => cases hk
      | cons a l =>
          rw [List.length_cons, allDraws, List.countP_flatMap]
          have hone : ∀ d ∈ List.range (l.length + 1),
              ((allDraws l.length k).map (d :: ·)).countP (fun ds => (drawAll (a :: l) ds).all p) =
                if ((a :: l)[d]?).any p then ((a :: l).countP p - 1).descFactorial k else 0 := by
            intro d hd
            have hlt : d < (a :: l).length := List.mem_range.mp hd
            have hcount := (pick_perm a l d).countP_eq p
            rw [List.countP_cons, pick_fst hlt] at hcount
            rw [List.countP_map, List.getElem?_eq_getElem hlt, Option.any_some]
            by_cases hp : p (a :: l)[d] = true
            · rw [if_pos hp] at hcount ⊢
              rw [← hcount, Nat.add_sub_cancel, ← ih _ (by rw [length_pick]; exact Nat.le_of_succ_le_succ hk),
                length_pick]
              refine List.countP_congr fun ds _ => ?_
              simp [pick_fst hlt, hp]
            · rw [if_neg hp, List.countP_eq_zero]
              intro ds _
              simp [pick_fst hlt, hp]
          rw [Function.comp_def, List.map_congr_left hone, ← List.length_cons, sum_map_ite_range]
          cases hc : (a :: l).countP p with
          | zero => simp
          | succ c => rw [Nat.add_sub_cancel, Nat.succ_descFactorial_succ]

/-- Taking from a part of the entries at every draw is no likelier than it would be with
replacement. -/
lemma descFactorial_mul_pow_le {m n : Nat} (h : m ≤ n) :
    m.descFactorial k * n ^ k ≤ n.descFactorial k * m ^ k := by
  induction k with
  | zero => simp
  | succ k ih =>
      have hstep : (m - k) * n ≤ (n - k) * m := by
        rw [Nat.sub_mul, Nat.sub_mul, Nat.mul_comm n m]
        exact Nat.sub_le_sub_left (Nat.mul_le_mul_left k h) _
      calc m.descFactorial (k + 1) * n ^ (k + 1)
          = ((m - k) * n) * (m.descFactorial k * n ^ k) := by
            rw [Nat.descFactorial_succ, pow_succ]; ring
        _ ≤ ((n - k) * m) * (n.descFactorial k * m ^ k) := Nat.mul_le_mul hstep ih
        _ = n.descFactorial (k + 1) * m ^ (k + 1) := by
            rw [Nat.descFactorial_succ, pow_succ]; ring

end Ciss
