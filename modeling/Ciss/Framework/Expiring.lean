import Mathlib.Data.Set.Basic
import Std.Data.ExtTreeMap.Lemmas

/-!
# A set whose members expire

An *expiring set* holds keys, each with the time up to which it counts.  A key is admitted unless
it is in the set and its time is still ahead; every attempt first drops what has expired, so the
set stays as small as the number of keys alive.

The set forgets, the log of admissions does not.  `Expiring.Logs` relates the two at a time: an
entry that is alive then is in the set exactly when it was admitted.  Attempts made in the order of
the clock keep the relation (`Logs.enter`), and under it a key is admitted exactly when no logged
entry of it is alive (`Logs.enters_iff`).

Nothing here mentions a particular program.
-/

namespace Ciss

/-- Keys and the times up to which they count. -/
abbrev Expiring (κ : Type*) (cmp : κ → κ → Ordering) := Std.ExtTreeMap κ Nat cmp

namespace Expiring

variable {κ : Type*} {cmp : κ → κ → Ordering} [Std.TransCmp cmp]

/-- Drop what has expired at `now`. -/
def prune (s : Expiring κ cmp) (now : Nat) : Expiring κ cmp :=
  s.filter fun _ exp => decide (now < exp)

/-- Admit `key` until `exp`, unless it is in the set and alive at `now`. -/
def enter (s : Expiring κ cmp) (key : κ) (exp now : Nat) : Expiring κ cmp × Bool :=
  if key ∈ s.prune now then (s.prune now, false) else ((s.prune now).insert key exp, true)

/-- The entries alive at `now` are those of the log. -/
def Logs (s : Expiring κ cmp) (log : Set (κ × Nat)) (now : Nat) : Prop :=
  ∀ key exp, now < exp → (s[key]? = some exp ↔ (key, exp) ∈ log)

variable {s : Expiring κ cmp} {log : Set (κ × Nat)} {t now exp : Nat} {key : κ}

lemma logs_empty : Logs (∅ : Expiring κ cmp) ∅ t := by
  intro key exp _
  simp

/-- The clock only takes entries out of what the relation speaks about. -/
lemma Logs.mono (h : Logs s log t) (ht : t ≤ now) : Logs s log now := by
  intro key exp hexp
  exact h key exp (Nat.lt_of_le_of_lt ht hexp)

variable [Std.LawfulEqCmp cmp]

lemma getElem?_prune : (s.prune now)[key]? = s[key]?.filter fun exp => decide (now < exp) := by
  rw [prune, Std.ExtTreeMap.getElem?_filter']

/-- What stays after a pruning is alive. -/
lemma getElem?_prune_eq_some_iff : (s.prune now)[key]? = some exp ↔ s[key]? = some exp ∧ now < exp := by
  rw [getElem?_prune, Option.filter_eq_some_iff, decide_eq_true_iff]

lemma mem_prune_iff : key ∈ s.prune now ↔ ∃ exp, s[key]? = some exp ∧ now < exp := by
  rw [Std.ExtTreeMap.mem_iff_isSome_getElem?, Option.isSome_iff_exists]
  simp only [getElem?_prune_eq_some_iff]

lemma Logs.prune (h : Logs s log t) (ht : t ≤ now) : Logs (s.prune now) log now := by
  intro key exp hexp
  rw [getElem?_prune_eq_some_iff]
  exact ⟨fun hin => (h.mono ht key exp hexp).1 hin.1,
    fun hin => ⟨(h.mono ht key exp hexp).2 hin, hexp⟩⟩

/-- A key is admitted exactly when no admission of it is alive. -/
theorem Logs.enters_iff (h : Logs s log t) (ht : t ≤ now) :
    (s.enter key exp now).2 = true ↔ ∀ e, (key, e) ∈ log → e ≤ now := by
  have hmem : key ∈ s.prune now ↔ ∃ e, (key, e) ∈ log ∧ now < e := by
    rw [mem_prune_iff]
    exact exists_congr fun e => and_congr_left fun he => h.mono ht key e he
  rw [enter]
  split
  · rename_i hin
    obtain ⟨e, he, hlt⟩ := hmem.1 hin
    exact iff_of_false (by simp) fun hall => absurd (hall e he) (by omega)
  · rename_i hin
    exact iff_of_true rfl fun e he => by
      by_contra hlt
      exact hin (hmem.2 ⟨e, he, by omega⟩)

/-- **One attempt.**  Made no earlier than the last one, it keeps the set in step with the log. -/
theorem Logs.enter (h : Logs s log t) (ht : t ≤ now) :
    Logs (s.enter key exp now).1
      (log ∪ {entry | (s.enter key exp now).2 = true ∧ entry = (key, exp)}) now := by
  have hadmits : (s.enter key exp now).2 = true ↔ _ := h.enters_iff ht
  have hpruned := h.prune ht
  by_cases hin : key ∈ s.prune now
  · rw [Expiring.enter, if_pos hin]
    simpa using hpruned
  · rw [Expiring.enter, if_neg hin] at hadmits ⊢
    have hdead : ∀ e, (key, e) ∈ log → e ≤ now := hadmits.1 rfl
    intro k e he
    rw [Std.ExtTreeMap.getElem?_insert, Set.mem_union, Set.mem_ofPred_eq, Prod.mk.injEq]
    by_cases hk : cmp key k = .eq
    · obtain rfl := Std.LawfulEqCmp.eq_of_compare hk
      rw [if_pos hk, Option.some.injEq]
      constructor
      · rintro rfl
        exact Or.inr ⟨rfl, rfl, rfl⟩
      · rintro (hin | ⟨-, -, rfl⟩)
        · exact absurd (hdead e hin) (by omega)
        · rfl
    · have hne : k ≠ key := fun heq => hk (by rw [heq]; exact Std.ReflCmp.compare_self)
      rw [if_neg hk, hpruned k e he]
      simp [hne]

/-! ## Without an order of the clock -/

/-- What is alive stays, whatever else is attempted. -/
lemma getElem?_enter_of_alive {key' : κ} {exp' : Nat} (h : s[key]? = some exp) (hlive : now < exp) :
    (s.enter key' exp' now).1[key]? = some exp := by
  have hpruned : (s.prune now)[key]? = some exp := getElem?_prune_eq_some_iff.mpr ⟨h, hlive⟩
  rw [enter]
  split_ifs with hin
  · exact hpruned
  · rw [Std.ExtTreeMap.getElem?_insert, if_neg, hpruned]
    intro hkey
    obtain rfl := Std.LawfulEqCmp.eq_of_compare hkey
    exact hin (mem_prune_iff.mpr ⟨exp, h, hlive⟩)

/-- What is alive is not admitted again. -/
lemma enter_refused_of_alive {exp' : Nat} (h : s[key]? = some exp) (hlive : now < exp) :
    (s.enter key exp' now).2 = false := by
  rw [enter, if_pos (mem_prune_iff.mpr ⟨exp, h, hlive⟩)]

omit [Std.LawfulEqCmp cmp] in
/-- What is admitted is in the set. -/
lemma getElem?_enter_of_admitted (h : (s.enter key exp now).2 = true) :
    (s.enter key exp now).1[key]? = some exp := by
  rw [enter] at h ⊢
  split_ifs at h ⊢
  exact Std.ExtTreeMap.getElem?_insert_self

end Expiring

end Ciss
