import Mathlib.Data.List.Basic
import Mathlib.Data.List.Flatten

/-!
# Words that are read off a text

A format that writes words one after the other can be read back when no word, continued by what may
follow a word, is also another word continued that way.  `Unmistakable stop u v` says so of two
words: `stop` is the predicate of the symbols that may follow a word, and a text that `Ends` may
follow one, being empty or beginning with such a symbol.

The words of a format are put together in few ways.  A word is a run of symbols that are no stops
(`unmistakable_of_not_stop`), or it is told from another by its first symbol
(`unmistakable_of_head_ne`); symbols are written with escapes up to a terminator that no escape
begins with (`flatMap_append_inj`); and a list of words is joined by a separator and closed by a
terminator that no word begins with (`intercalate_append_inj`).
-/

namespace Ciss

section

variable {α : Type*} {stop : α → Prop} {s t u v : List α}

/-- What may follow a word: nothing, or a text that begins with a stop. -/
def Ends (stop : α → Prop) (s : List α) : Prop := ∀ x ∈ s.head?, stop x

lemma Ends.nil : Ends stop ([] : List α) := by simp [Ends]

lemma Ends.cons {x : α} (h : stop x) : Ends stop (x :: s) := by simpa [Ends] using h

/-- Where a word may end, one of the two words cannot be read for the other. -/
def Unmistakable (stop : α → Prop) (u v : List α) : Prop :=
  ∀ s t, Ends stop s → Ends stop t → u ++ s = v ++ t → u = v

/-- Reading a word off the left leaves the rest. -/
lemma Unmistakable.append_inj (h : Unmistakable stop u v) (hs : Ends stop s) (ht : Ends stop t)
    (heq : u ++ s = v ++ t) : u = v ∧ s = t := by
  have huv : u = v := h s t hs ht heq
  exact ⟨huv, by simpa [huv] using heq⟩

/-- Words that begin differently. -/
lemma unmistakable_of_head_ne {x y : α} (h : x ≠ y) : Unmistakable stop (x :: u) (y :: v) := by
  intro s t _ _ heq
  rw [List.cons_append, List.cons_append, List.cons.injEq] at heq
  exact absurd heq.1 h

/-- Words in which no stop occurs. -/
lemma unmistakable_of_not_stop (hu : ∀ x ∈ u, ¬ stop x) (hv : ∀ x ∈ v, ¬ stop x) :
    Unmistakable stop u v := by
  intro s t hs ht heq
  induction u generalizing v with
  | nil =>
      cases v with
      | nil => rfl
      | cons y v =>
          have hy : stop y := hs y (by simp [show s = y :: v ++ t from heq])
          exact absurd hy (hv y (by simp))
  | cons x u ih =>
      cases v with
      | nil =>
          have hx : stop x := ht x (by simp [← show x :: u ++ s = t from heq])
          exact absurd hx (hu x (by simp))
      | cons y v =>
          rw [List.cons_append, List.cons_append, List.cons.injEq] at heq
          have huv := ih (fun z hz => hu z (by simp [hz])) (fun z hz => hv z (by simp [hz])) heq.2
          rw [heq.1, huv]

/-- No text that begins with the word begins with `q`. -/
def Avoids (q : α) (u : List α) : Prop := ∀ s t, u ++ s ≠ q :: t

lemma avoids_cons {x q : α} (h : x ≠ q) : Avoids q (x :: u) := by
  intro s t heq
  rw [List.cons_append, List.cons.injEq] at heq
  exact h heq.1

/-- **Reading escaped symbols** up to a terminator. -/
theorem flatMap_append_inj {β : Type*} {escape : β → List α} {q : α}
    (hescape : ∀ a b s t, escape a ++ s = escape b ++ t → a = b ∧ s = t)
    (hq : ∀ a, Avoids q (escape a)) {l l' : List β}
    (h : l.flatMap escape ++ q :: s = l'.flatMap escape ++ q :: t) : l = l' ∧ s = t := by
  induction l generalizing l' with
  | nil =>
      cases l' with
      | nil => simpa using h
      | cons b l' =>
          rw [List.flatMap_cons, List.append_assoc] at h
          exact absurd h.symm (hq b _ _)
  | cons a l ih =>
      cases l' with
      | nil =>
          rw [List.flatMap_cons, List.append_assoc] at h
          exact absurd h (hq a _ _)
      | cons b l' =>
          rw [List.flatMap_cons, List.flatMap_cons, List.append_assoc, List.append_assoc] at h
          obtain ⟨hab, hrest⟩ := hescape a b _ _ h
          obtain ⟨hl, hst⟩ := ih hrest
          exact ⟨by rw [hab, hl], hst⟩

/-- What stands behind the first word of a joined list. -/
lemma intercalate_cons_append (sep close : α) (u : List α) (l : List (List α)) (s : List α) :
    [sep].intercalate (u :: l) ++ close :: s =
      u ++ if l = [] then close :: s else sep :: ([sep].intercalate l ++ close :: s) := by
  by_cases hl : l = []
  · rw [if_pos hl, hl]
    simp
  · rw [if_neg hl, List.intercalate_cons_of_ne_nil hl]
    simp

/-- **Reading a joined list** up to its terminator. -/
theorem intercalate_append_inj {sep close : α} (hsep : stop sep) (hclose : stop close)
    (hne : sep ≠ close) {l l' : List (List α)} (hread : ∀ u ∈ l, ∀ v ∈ l', Unmistakable stop u v)
    (hl : ∀ u ∈ l, Avoids close u) (hl' : ∀ v ∈ l', Avoids close v)
    (h : [sep].intercalate l ++ close :: s = [sep].intercalate l' ++ close :: t) :
    l = l' ∧ s = t := by
  have hends : ∀ (m : List (List α)) (r : List α),
      Ends stop (if m = [] then close :: r else sep :: ([sep].intercalate m ++ close :: r)) := by
    intro m r
    split
    · exact Ends.cons hclose
    · exact Ends.cons hsep
  induction l generalizing l' with
  | nil =>
      cases l' with
      | nil => simpa using h
      | cons v l' =>
          rw [intercalate_cons_append] at h
          exact absurd h.symm (hl' v (by simp) _ _)
  | cons u l ih =>
      cases l' with
      | nil =>
          rw [intercalate_cons_append] at h
          exact absurd h (hl u (by simp) _ _)
      | cons v l' =>
          rw [intercalate_cons_append, intercalate_cons_append] at h
          obtain ⟨huv, hrest⟩ :=
            (hread u (by simp) v (by simp)).append_inj (hends l s) (hends l' t) h
          by_cases hnil : l = [] <;> by_cases hnil' : l' = []
          · rw [if_pos hnil, if_pos hnil', List.cons.injEq] at hrest
            exact ⟨by rw [huv, hnil, hnil'], hrest.2⟩
          · rw [if_pos hnil, if_neg hnil', List.cons.injEq] at hrest
            exact absurd hrest.1.symm hne
          · rw [if_neg hnil, if_pos hnil', List.cons.injEq] at hrest
            exact absurd hrest.1 hne
          · rw [if_neg hnil, if_neg hnil', List.cons.injEq] at hrest
            obtain ⟨hll, hst⟩ := ih (fun a ha b hb => hread a (by simp [ha]) b (by simp [hb]))
              (fun a ha => hl a (by simp [ha])) (fun b hb => hl' b (by simp [hb])) hrest.2
            exact ⟨by rw [huv, hll], hst⟩

end

end Ciss
