import Mathlib.Algebra.GroupWithZero.Nat
import Mathlib.Data.List.Basic
import Mathlib.Data.List.Induction
import Mathlib.Data.List.Nodup
import Mathlib.Data.List.Sort
import Mathlib.Order.Lattice

/-!
# First representatives and last writes

List computations that sequential code performs one element at a time.

`firsts r l` keeps a member of `l` unless an equivalent one is kept already: a loop that pushes
into a vector after asking whether the vector holds "the same" value.  For an equivalence `r`
the result has one member of every class, the earliest one; when the list is sorted by a key,
that is the one with the smallest key (`mem_firsts_iff_of_sorted`).  `distinct` is the case of
equality.

`lastWrite k ws` is the value a map holds at `k` once the writes `ws` were made in order.
`lastWrite_flatMap` computes it for writes that are made in stages.

A list that is sorted by one key after it was sorted by another is ordered by both
(`pairwise_insertionSort_of_pairwise`), and a search through it finds the first hit in that order.

Nothing here mentions a particular program.
-/

namespace Ciss

variable {α β κ ι : Type*}

/-! ## First representatives -/

/-- Keep `x` unless an equivalent value is kept already. -/
def keepFirst (r : α → α → Bool) (kept : List α) (x : α) : List α :=
  if kept.any (r · x) then kept else kept ++ [x]

/-- The first member of every class of `r`, in order of appearance. -/
def firsts (r : α → α → Bool) (l : List α) : List α :=
  l.foldl (keepFirst r) []

section

variable {r : α → α → Bool} {l : List α} {x y : α}

@[simp] lemma firsts_nil : firsts r [] = [] := rfl

lemma firsts_concat : firsts r (l ++ [x]) = keepFirst r (firsts r l) x := by
  simp [firsts]

/-- The equivalence whose classes `firsts` represents. -/
structure IsEquiv (r : α → α → Bool) : Prop where
  refl : ∀ x, r x x = true
  symm : ∀ {x y}, r x y = true → r y x = true
  trans : ∀ {x y z}, r x y = true → r y z = true → r x z = true

/-- Every member of the list is represented. -/
lemma exists_mem_firsts (hr : IsEquiv r) (hx : x ∈ l) : ∃ y ∈ firsts r l, r y x = true := by
  induction l using List.reverseRecOn with
  | nil => simp at hx
  | append_singleton l a ih =>
      rw [firsts_concat, keepFirst]
      rcases List.mem_append.mp hx with hx | hx
      · obtain ⟨y, hy, hyx⟩ := ih hx
        refine ⟨y, ?_, hyx⟩
        split
        · exact hy
        · exact List.mem_append_left _ hy
      · obtain rfl := List.mem_singleton.mp hx
        split
        · rename_i h
          obtain ⟨y, hy, hyx⟩ := List.any_eq_true.mp h
          exact ⟨y, hy, hyx⟩
        · exact ⟨x, by simp, hr.refl x⟩

lemma firsts_sublist : (firsts r l).Sublist l := by
  induction l using List.reverseRecOn with
  | nil => simp
  | append_singleton l a ih =>
      rw [firsts_concat, keepFirst]
      split
      · exact ih.trans (List.sublist_append_left _ _)
      · exact ih.append (List.Sublist.refl _)

/-- In a list sorted by a key, a member is kept when its key is the smallest of its class. -/
lemma mem_firsts_iff_of_sorted [LinearOrder κ] {key : α → κ} (hr : IsEquiv r)
    (hl : l.Pairwise fun x y => key x < key y) :
    x ∈ firsts r l ↔ x ∈ l ∧ ∀ y ∈ l, r y x = true → key x ≤ key y := by
  induction l using List.reverseRecOn with
  | nil => simp
  | append_singleton l a ih =>
      obtain ⟨hl, -, hla⟩ := List.pairwise_append.mp hl
      have hlt : ∀ y ∈ l, key y < key a := fun y hy => hla y hy a (by simp)
      rw [firsts_concat, keepFirst]
      constructor
      · intro hx
        split at hx
        · obtain ⟨hxl, hmin⟩ := (ih hl).mp hx
          refine ⟨List.mem_append_left _ hxl, ?_⟩
          intro y hy hyx
          rcases List.mem_append.mp hy with hy | hy
          · exact hmin y hy hyx
          · rw [List.mem_singleton.mp hy]
            exact (hlt x hxl).le
        · rename_i h
          rcases List.mem_append.mp hx with hx | hx
          · obtain ⟨hxl, hmin⟩ := (ih hl).mp hx
            refine ⟨List.mem_append_left _ hxl, ?_⟩
            intro y hy hyx
            rcases List.mem_append.mp hy with hy | hy
            · exact hmin y hy hyx
            · rw [List.mem_singleton.mp hy]
              exact (hlt x hxl).le
          · obtain rfl := List.mem_singleton.mp hx
            refine ⟨by simp, ?_⟩
            intro y hy hyx
            rcases List.mem_append.mp hy with hy | hy
            · obtain ⟨z, hz, hzy⟩ := exists_mem_firsts hr hy
              have hzx : (firsts r l).any (r · x) = true :=
                List.any_eq_true.mpr ⟨z, hz, hr.trans hzy hyx⟩
              exact absurd hzx h
            · rw [List.mem_singleton.mp hy]
      · rintro ⟨hx, hmin⟩
        rcases List.mem_append.mp hx with hx | hx
        · have hxf : x ∈ firsts r l :=
            (ih hl).mpr ⟨hx, fun y hy => hmin y (List.mem_append_left _ hy)⟩
          split
          · exact hxf
          · exact List.mem_append_left _ hxf
        · obtain rfl := List.mem_singleton.mp hx
          split
          · rename_i h
            obtain ⟨z, hz, hzx⟩ := List.any_eq_true.mp h
            have hzl : z ∈ l := firsts_sublist.mem hz
            exact absurd (hmin z (List.mem_append_left _ hzl) hzx) (not_le.mpr (hlt z hzl))
          · simp

end

/-! ## Without repetition -/

/-- The members of a list, in the order in which they first appear. -/
def distinct [DecidableEq α] (l : List α) : List α := firsts (fun x y => decide (x = y)) l

section

variable [DecidableEq α] {l : List α} {x : α}

lemma mem_distinct : x ∈ distinct l ↔ x ∈ l := by
  constructor
  · intro h
    exact firsts_sublist.mem h
  · intro h
    have hr : IsEquiv fun x y : α => decide (x = y) :=
      ⟨by simp, by simp_all, by simp_all⟩
    obtain ⟨y, hy, hyx⟩ := exists_mem_firsts hr h
    rwa [of_decide_eq_true hyx] at hy

lemma distinct_concat : distinct (l ++ [x]) = if x ∈ l then distinct l else distinct l ++ [x] := by
  rw [distinct, firsts_concat, keepFirst]
  have hany : (firsts (fun x y : α => decide (x = y)) l).any (fun y => decide (y = x)) = true ↔
      x ∈ l := by
    rw [← mem_distinct, distinct, List.any_eq_true]
    simp
  by_cases hx : x ∈ l
  · rw [if_pos hx, if_pos (hany.mpr hx), distinct]
  · rw [if_neg hx, if_neg (mt hany.mp hx), distinct]

/-- First representatives of the classes of a map, seen through the map. -/
lemma map_firsts_eq_distinct {g : β → α} {l : List β} :
    (firsts (fun x y => decide (g x = g y)) l).map g = distinct (l.map g) := by
  induction l using List.reverseRecOn with
  | nil => rfl
  | append_singleton l a ih =>
      have hany : (firsts (fun x y => decide (g x = g y)) l).any (fun y => decide (g y = g a)) =
          true ↔ g a ∈ l.map g := by
        rw [← mem_distinct, ← ih, List.any_eq_true]
        simp
      rw [firsts_concat, keepFirst, List.map_append, List.map_singleton, distinct_concat, ← ih]
      by_cases ha : g a ∈ l.map g
      · rw [if_pos ha, if_pos (hany.mpr ha)]
      · rw [if_neg ha, if_neg (mt hany.mp ha), List.map_append, List.map_singleton]

lemma filter_distinct {p : α → Bool} : (distinct l).filter p = distinct (l.filter p) := by
  induction l using List.reverseRecOn with
  | nil => rfl
  | append_singleton l a ih =>
      rw [distinct_concat, List.filter_append]
      by_cases hp : p a = true
      · have hmem : a ∈ l.filter p ↔ a ∈ l := by simp [hp]
        rw [List.filter_singleton, hp, Bool.cond_true, distinct_concat, ← ih]
        by_cases ha : a ∈ l
        · rw [if_pos ha, if_pos (hmem.mpr ha)]
        · rw [if_neg ha, if_neg (mt hmem.mp ha), List.filter_append, List.filter_singleton, hp,
            Bool.cond_true]
      · have hp' : p a = false := by simpa using hp
        rw [List.filter_singleton, hp', Bool.cond_false, List.append_nil, ← ih]
        split
        · rfl
        · rw [List.filter_append, List.filter_singleton, hp', Bool.cond_false, List.append_nil]

/-- **Counting each member once.**  Positive weights add up to the same over the distinct members
of a list exactly when no member is repeated. -/
lemma sum_map_distinct {f : α → Nat} (hf : ∀ x ∈ l, 0 < f x) :
    ((distinct l).map f).sum ≤ (l.map f).sum ∧
      (((distinct l).map f).sum = (l.map f).sum ↔ l.Nodup) := by
  induction l using List.reverseRecOn with
  | nil => simp [distinct]
  | append_singleton l a ih =>
      obtain ⟨hle, hiff⟩ := ih fun x hx => hf x (List.mem_append_left _ hx)
      have ha : 0 < f a := hf a (by simp)
      have hnodup : (l ++ [a]).Nodup ↔ l.Nodup ∧ a ∉ l := by
        rw [← List.concat_eq_append, List.nodup_concat, and_comm]
      rw [distinct_concat, hnodup, List.map_append, List.sum_append, List.map_singleton,
        List.sum_singleton]
      by_cases hmem : a ∈ l
      · rw [if_pos hmem]
        refine ⟨by omega, ?_⟩
        constructor
        · intro h
          omega
        · rintro ⟨-, hnot⟩
          exact absurd hmem hnot
      · rw [if_neg hmem, List.map_append, List.sum_append, List.map_singleton, List.sum_singleton,
          ← hiff]
        refine ⟨by omega, ?_⟩
        rw [Nat.add_right_cancel_iff]
        exact (and_iff_left hmem).symm

/-- The order of a list without repetition is that of the first positions. -/
lemma distinct_pairwise_idxOf : (distinct l).Pairwise fun x y => l.idxOf x < l.idxOf y := by
  induction l using List.reverseRecOn with
  | nil => simp [distinct]
  | append_singleton l a ih =>
      have hkept : ∀ x ∈ distinct l, (l ++ [a]).idxOf x = l.idxOf x := fun x hx =>
        List.idxOf_append_of_mem (mem_distinct.mp hx)
      have hlift : (distinct l).Pairwise fun x y => (l ++ [a]).idxOf x < (l ++ [a]).idxOf y := by
        refine ih.imp_of_mem ?_
        intro x y hx hy hlt
        rw [hkept x hx, hkept y hy]
        exact hlt
      rw [distinct, firsts_concat, keepFirst]
      split
      · exact hlift
      · rename_i hnew
        have ha : a ∉ l := by
          intro ha
          exact hnew (List.any_eq_true.mpr ⟨a, mem_distinct.mpr ha, by simp⟩)
        refine List.pairwise_append.mpr ⟨hlift, by simp, ?_⟩
        intro x hx y hy
        rw [List.mem_singleton.mp hy, hkept x hx, List.idxOf_append_of_notMem ha]
        have hlen := List.idxOf_lt_length_iff.mpr (mem_distinct.mp hx)
        omega

end

/-! ## Last writes -/

/-- What a map holds at `k` after the writes `ws`, if any of them was to `k`. -/
def lastWrite [DecidableEq κ] (k : κ) (ws : List (κ × β)) : Option β :=
  ws.findSomeRev? fun w => if w.1 = k then some w.2 else none

section

variable [DecidableEq κ] {k : κ} {v : β} {w : κ × β} {ws ws' : List (κ × β)}

@[simp] lemma lastWrite_nil : lastWrite k ([] : List (κ × β)) = none := rfl

lemma lastWrite_append : lastWrite k (ws ++ ws') = (lastWrite k ws').or (lastWrite k ws) := by
  simp [lastWrite, List.findSome?_append]

lemma lastWrite_cons :
    lastWrite k (w :: ws) = (lastWrite k ws).or (if w.1 = k then some w.2 else none) := by
  rw [show w :: ws = [w] ++ ws from rfl, lastWrite_append]
  congr 1

lemma lastWrite_eq_none_iff : lastWrite k ws = none ↔ ∀ w ∈ ws, w.1 ≠ k := by
  simp [lastWrite]

/-- Writes to pairwise different keys keep what each of them wrote. -/
lemma lastWrite_eq_some_iff_of_nodup (h : ws.Pairwise fun w w' => w.1 ≠ w'.1) :
    lastWrite k ws = some v ↔ (k, v) ∈ ws := by
  induction ws with
  | nil => simp
  | cons w ws ih =>
      obtain ⟨hw, hws⟩ := List.pairwise_cons.mp h
      rw [lastWrite_cons, Option.or_eq_some_iff, ih hws, List.mem_cons, or_comm]
      refine or_congr ?_ Iff.rfl
      constructor
      · rintro ⟨-, hk⟩
        split at hk
        · rename_i hwk
          rw [← hwk, ← Option.some.inj hk]
        · simp at hk
      · rintro rfl
        exact ⟨lastWrite_eq_none_iff.mpr fun w' hw' => (hw w' hw').symm, by simp⟩

/-- Writes made in stages, the stages in strictly increasing order: the last stage that writes
`k` decides. -/
lemma lastWrite_flatMap_eq_some_iff [LinearOrder ι] {stages : List ι} {f : ι → List (κ × β)}
    (h : stages.Pairwise (· < ·)) :
    lastWrite k (stages.flatMap f) = some v ↔
      ∃ i ∈ stages, lastWrite k (f i) = some v ∧
        ∀ j ∈ stages, i < j → lastWrite k (f j) = none := by
  induction stages with
  | nil => simp
  | cons i stages ih =>
      obtain ⟨hi, hs⟩ := List.pairwise_cons.mp h
      rw [List.flatMap_cons, lastWrite_append, Option.or_eq_some_iff, ih hs]
      constructor
      · rintro (⟨j, hj, hv, hlast⟩ | ⟨hnone, hv⟩)
        · refine ⟨j, List.mem_cons_of_mem _ hj, hv, ?_⟩
          intro j' hj' hlt
          rcases List.mem_cons.mp hj' with rfl | hj'
          · exact absurd (hi j hj) (not_lt.mpr hlt.le)
          · exact hlast j' hj' hlt
        · refine ⟨i, by simp, hv, ?_⟩
          intro j hj hlt
          have hj : j ∈ stages := (List.mem_cons.mp hj).resolve_left hlt.ne'
          rw [lastWrite_eq_none_iff] at hnone ⊢
          exact fun w hw => hnone w (List.mem_flatMap.mpr ⟨j, hj, hw⟩)
      · rintro ⟨j, hj, hv, hlast⟩
        rcases List.mem_cons.mp hj with rfl | hj
        · refine Or.inr ⟨?_, hv⟩
          rw [lastWrite_eq_none_iff]
          intro w hw
          obtain ⟨j', hj', hw⟩ := List.mem_flatMap.mp hw
          exact lastWrite_eq_none_iff.mp
            (hlast j' (List.mem_cons_of_mem _ hj') (hi j' hj')) w hw
        · exact Or.inl ⟨j, hj, hv, fun j' hj' => hlast j' (List.mem_cons_of_mem _ hj')⟩

end

/-! ## The last member of a sorted list -/

/-- In a list sorted by a key, a search from the back finds what the member with the largest key
gives. -/
lemma findSomeRev?_eq_some_iff_of_sorted [LinearOrder κ] {key : α → κ} {f : α → Option β}
    {l : List α} {v : β} (hl : l.Pairwise fun x y => key x < key y) :
    l.findSomeRev? f = some v ↔
      ∃ x ∈ l, f x = some v ∧ ∀ y ∈ l, key x < key y → f y = none := by
  induction l with
  | nil => simp
  | cons a l ih =>
      obtain ⟨ha, hl⟩ := List.pairwise_cons.mp hl
      have hcons : (a :: l).findSomeRev? f = (l.findSomeRev? f).or (f a) := by simp
      rw [hcons, Option.or_eq_some_iff, ih hl]
      constructor
      · rintro (⟨x, hx, hv, hlast⟩ | ⟨hnone, hv⟩)
        · refine ⟨x, List.mem_cons_of_mem _ hx, hv, ?_⟩
          intro y hy hlt
          rcases List.mem_cons.mp hy with rfl | hy
          · exact absurd (ha x hx) hlt.not_gt
          · exact hlast y hy hlt
        · refine ⟨a, by simp, hv, ?_⟩
          intro y hy hlt
          have hy : y ∈ l := (List.mem_cons.mp hy).resolve_left (by rintro rfl; exact lt_irrefl _ hlt)
          have hnone' : ∀ y ∈ l, f y = none := by simpa using hnone
          exact hnone' y hy
      · rintro ⟨x, hx, hv, hlast⟩
        rcases List.mem_cons.mp hx with rfl | hx
        · refine Or.inr ⟨?_, hv⟩
          have hnone : ∀ y ∈ l, f y = none := fun y hy =>
            hlast y (List.mem_cons_of_mem _ hy) (ha y hy)
          simpa using hnone
        · exact Or.inl ⟨x, hx, hv, fun y hy => hlast y (List.mem_cons_of_mem _ hy)⟩

/-! ## Sorting by one key what is sorted by another -/

/-- In a list whose members come one before the other, a search from the front finds the member
that no other hit comes before. -/
lemma find?_eq_some_iff_of_pairwise {before : α → α → Prop} {p : α → Bool} {l : List α} {x : α}
    (hasymm : ∀ {x y}, before x y → ¬before y x) (hl : l.Pairwise before) :
    l.find? p = some x ↔ x ∈ l ∧ p x = true ∧ ∀ y ∈ l, p y = true → ¬before y x := by
  induction l with
  | nil => simp
  | cons a l ih =>
      obtain ⟨ha, hl⟩ := List.pairwise_cons.mp hl
      rw [List.find?_cons]
      rcases hp : p a with _ | _
      · dsimp only
        rw [ih hl]
        constructor
        · rintro ⟨hx, hpx, hfirst⟩
          refine ⟨List.mem_cons_of_mem _ hx, hpx, ?_⟩
          intro y hy hpy
          rcases List.mem_cons.mp hy with rfl | hy
          · exact absurd hpy (by simp [hp])
          · exact hfirst y hy hpy
        · rintro ⟨hx, hpx, hfirst⟩
          rcases List.mem_cons.mp hx with rfl | hx
          · exact absurd hpx (by simp [hp])
          · exact ⟨hx, hpx, fun y hy => hfirst y (List.mem_cons_of_mem _ hy)⟩
      · dsimp only
        constructor
        · intro h
          obtain rfl := Option.some.inj h
          refine ⟨by simp, hp, ?_⟩
          intro y hy _
          rcases List.mem_cons.mp hy with rfl | hy
          · exact fun h => hasymm h h
          · exact hasymm (ha y hy)
        · rintro ⟨hx, -, hfirst⟩
          rcases List.mem_cons.mp hx with rfl | hx
          · rfl
          · exact absurd (ha x hx) (hfirst a (by simp) hp)

section

variable [LinearOrder κ] {key : α → κ} {r : α → α → Prop} {l : List α} {a : α}

lemma pairwise_orderedInsert (ha : ∀ x ∈ l, r a x)
    (hl : l.Pairwise fun x y => key x < key y ∨ key x = key y ∧ r x y) :
    (l.orderedInsert (fun x y => key x ≤ key y) a).Pairwise
      fun x y => key x < key y ∨ key x = key y ∧ r x y := by
  induction l with
  | nil => simp
  | cons b l ih =>
      obtain ⟨hb, hl'⟩ := List.pairwise_cons.mp hl
      unfold List.orderedInsert
      split
      · rename_i hle
        refine List.pairwise_cons.mpr ⟨?_, hl⟩
        intro x hx
        have hbx : key b ≤ key x := by
          rcases List.mem_cons.mp hx with rfl | hx
          · exact le_rfl
          · exact (hb x hx).elim le_of_lt fun h => h.1.le
        rcases (hle.trans hbx).lt_or_eq with hlt | heq
        · exact Or.inl hlt
        · exact Or.inr ⟨heq, ha x hx⟩
      · rename_i hle
        refine List.pairwise_cons.mpr ⟨?_, ih (fun x hx => ha x (List.mem_cons_of_mem _ hx)) hl'⟩
        intro x hx
        rcases (List.mem_orderedInsert _).mp hx with rfl | hx
        · exact Or.inl (not_le.mp hle)
        · exact hb x hx

/-- **Sorting is stable.**  Members with the same key stay in the order they had. -/
lemma pairwise_insertionSort_of_pairwise (hl : l.Pairwise r) :
    (l.insertionSort fun x y => key x ≤ key y).Pairwise
      fun x y => key x < key y ∨ key x = key y ∧ r x y := by
  induction l with
  | nil => simp
  | cons a l ih =>
      obtain ⟨ha, hl⟩ := List.pairwise_cons.mp hl
      rw [List.insertionSort_cons]
      apply pairwise_orderedInsert
      · intro x hx
        exact ha x ((List.mem_insertionSort _).mp hx)
      · exact ih hl

end

end Ciss
