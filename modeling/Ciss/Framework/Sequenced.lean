import Mathlib.Order.Lattice
import Mathlib.Data.List.Basic
import Mathlib.Data.List.Induction

/-!
# Streams whose members carry a counter

Two uses of a counter that a single writer counts up.

A reader that holds the *newest* value takes a value unless the one it holds is at least as new
(`takeNewer`); `newestOf` is what it holds after a whole stream.  The counter it holds is the
largest (`newestOf_greatest`).  Which value it holds is determined by the set of values, whatever
their order and repetition, as soon as no two values share a counter (`newestOf_congr`), and only
then (`newestOf_swap`).

A writer that publishes a *linked log* puts into each entry a counter and the name of the entry
before.  `Linked` is what a log of such entries should satisfy, `AtEnd` what the writer must
know to extend it, and `Linked.extend` that it does.

Nothing here mentions a particular program.
-/

namespace Ciss

variable {τ α κ ν : Type*}

/-! ## The newest of a stream -/

section

variable [LinearOrder τ]

/-- Take a value unless the one that is held is at least as new. -/
def takeNewer (held : Option (τ × α)) (x : τ × α) : Option (τ × α) :=
  match held with
  | none => some x
  | some y => if x.1 ≤ y.1 then some y else some x

/-- What is held after a stream. -/
def newestOf (l : List (τ × α)) : Option (τ × α) := l.foldl takeNewer none

variable {l l' : List (τ × α)} {x y : τ × α}

@[simp] lemma newestOf_nil : newestOf ([] : List (τ × α)) = none := rfl

lemma newestOf_concat : newestOf (l ++ [x]) = takeNewer (newestOf l) x := by
  simp [newestOf]

lemma takeNewer_ne_none (held : Option (τ × α)) : takeNewer held x ≠ none := by
  unfold takeNewer
  split
  · simp
  · split
    · simp
    · simp

lemma newestOf_eq_none_iff : newestOf l = none ↔ l = [] := by
  induction l using List.reverseRecOn with
  | nil => simp
  | append_singleton l a _ =>
      rw [newestOf_concat]
      simp [takeNewer_ne_none]

/-- **What is held**: a member of the stream, and none has a larger counter. -/
lemma newestOf_greatest (h : newestOf l = some x) : x ∈ l ∧ ∀ y ∈ l, y.1 ≤ x.1 := by
  induction l using List.reverseRecOn generalizing x with
  | nil => simp at h
  | append_singleton l a ih =>
      rw [newestOf_concat] at h
      rcases hl : newestOf l with _ | z
      · rw [hl] at h
        obtain rfl := Option.some.inj h
        simp [newestOf_eq_none_iff.mp hl]
      · obtain ⟨hz, hmax⟩ := ih hl
        rw [hl, takeNewer] at h
        split at h
        · rename_i hle
          obtain rfl := Option.some.inj h
          refine ⟨List.mem_append_left _ hz, ?_⟩
          intro y hy
          rcases List.mem_append.mp hy with hy | hy
          · exact hmax y hy
          · rw [List.mem_singleton.mp hy]
            exact hle
        · rename_i hle
          obtain rfl := Option.some.inj h
          refine ⟨by simp, ?_⟩
          intro y hy
          rcases List.mem_append.mp hy with hy | hy
          · exact (hmax y hy).trans (le_of_not_ge hle)
          · rw [List.mem_singleton.mp hy]

/-- **Order and repetition do not matter** for values no two of which share a counter. -/
lemma newestOf_congr (hl : ∀ x ∈ l, ∀ y ∈ l, x.1 = y.1 → x = y) (h : ∀ x, x ∈ l ↔ x ∈ l') :
    newestOf l = newestOf l' := by
  rcases hx : newestOf l with _ | x
  · have hnil := newestOf_eq_none_iff.mp hx
    have hnil' : l' = [] := by
      rw [List.eq_nil_iff_forall_not_mem]
      intro y hy
      rw [hnil] at h
      simpa using (h y).mpr hy
    rw [hnil']
    rfl
  · rcases hy : newestOf l' with _ | y
    · rw [newestOf_eq_none_iff.mp hy] at h
      simpa using (h x).mp (newestOf_greatest hx).1
    · obtain ⟨hxl, hxmax⟩ := newestOf_greatest hx
      obtain ⟨hyl', hymax⟩ := newestOf_greatest hy
      have hyl := (h y).mpr hyl'
      rw [hl x hxl y hyl (le_antisymm (hymax x ((h x).mp hxl)) (hxmax y hyl))]

/-- Of two values with one counter the first to come is held. -/
lemma newestOf_swap (h : x.1 = y.1) : newestOf [x, y] = some x ∧ newestOf [y, x] = some y := by
  simp [newestOf, takeNewer, h]

end

/-! ## Linked logs -/

/-- The counters increase, and every entry names the one before it. -/
structure Linked (counter : ν → Nat) (parent : ν → Option κ) (log : List (κ × ν)) : Prop where
  increasing : log.Pairwise fun x y => counter x.2 < counter y.2
  linked : ∀ older x newer, log = older ++ x :: newer →
    parent x.2 = older.getLast?.map Prod.fst

/-- What the writer of a log has to know: the name of the last entry, and a number that no counter
exceeds. -/
structure AtEnd (counter : ν → Nat) (log : List (κ × ν)) (n : Nat) (last : Option κ) :
    Prop where
  last_eq : last = log.getLast?.map Prod.fst
  le : ∀ x ∈ log, counter x.2 ≤ n

section

variable {counter : ν → Nat} {parent : ν → Option κ} {log : List (κ × ν)} {n : Nat}
  {last : Option κ} {x : κ × ν}

lemma Linked.nil : Linked counter parent ([] : List (κ × ν)) where
  increasing := List.Pairwise.nil
  linked older x newer h := by simp at h

lemma AtEnd.nil : AtEnd counter ([] : List (κ × ν)) 0 none where
  last_eq := rfl
  le x hx := by simp at hx

/-- **A writer that remembers its log extends it** by the next counter and the last name. -/
lemma Linked.extend (h : Linked counter parent log) (hr : AtEnd counter log n last)
    (hcounter : counter x.2 = n + 1) (hparent : parent x.2 = last) :
    Linked counter parent (log ++ [x]) ∧ AtEnd counter (log ++ [x]) (n + 1) (some x.1) := by
  refine ⟨⟨?_, ?_⟩, ⟨by simp, ?_⟩⟩
  · refine List.pairwise_append.mpr ⟨h.increasing, by simp, ?_⟩
    intro y hy z hz
    rw [List.mem_singleton.mp hz, hcounter]
    exact Nat.lt_succ_of_le (hr.le y hy)
  · intro older y newer hsplit
    rcases List.eq_nil_or_concat newer with rfl | ⟨newer, z, rfl⟩
    · obtain ⟨rfl, hx⟩ := List.append_inj' hsplit rfl
      obtain rfl : x = y := by simpa using hx
      rw [hparent, hr.last_eq]
    · have hsplit' : log ++ [x] = (older ++ y :: newer) ++ [z] := by
        rw [hsplit]
        simp
      exact h.linked older y newer (List.append_inj' hsplit' rfl).1
  · intro y hy
    rcases List.mem_append.mp hy with hy | hy
    · exact (hr.le y hy).trans (Nat.le_succ n)
    · rw [List.mem_singleton.mp hy, hcounter]

end

end Ciss
