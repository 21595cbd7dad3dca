import Mathlib.Data.List.Basic

/-!
# Labelled machines and their runs

A *machine* is a total step function `step : σ → α → σ`: the action carries every choice the
environment makes (which client moves, what it submits), so that one list of actions is one
run, and "every interleaving" is "every list of actions".  An action that is not enabled in a
state leaves the state alone; the model that instantiates the machine says so in its own step
function.

Three rules carry the developments built on it.  `run_invariant` is the invariant rule: a
predicate that one step preserves, under a condition on the state before the step and the
action, holds after every run whose steps all meet the condition (`Along`).
`run_relation` is the same rule for two runs at once, the second machine answering each action
of the first by a list of its own.  `answersTo_eq_of_unwinding` is the rule for machines that
answer: two states that no single action tells apart are not told apart by any run.

Nothing here mentions a particular program.
-/

namespace Ciss

variable {σ τ α β : Type*}

/-- The state a machine reaches from `s` by the actions `acts`, in order. -/
def run (step : σ → α → σ) (s : σ) (acts : List α) : σ :=
  acts.foldl step s

/-- `P` holds of the state before each step of the run and the action taken there. -/
def Along (step : σ → α → σ) (P : σ → α → Prop) : σ → List α → Prop
  | _, [] => True
  | s, a :: acts => P s a ∧ Along step P (step s a) acts

instance decidableAlong (step : σ → α → σ) (P : σ → α → Prop) [∀ s a, Decidable (P s a)] :
    (s : σ) → (acts : List α) → Decidable (Along step P s acts)
  | _, [] => isTrue trivial
  | s, a :: acts =>
      have := decidableAlong step P (step s a) acts
      inferInstanceAs (Decidable (P s a ∧ Along step P (step s a) acts))

section

variable {step : σ → α → σ} {P Q : σ → α → Prop} {s : σ} {a : α} {acts acts' : List α}

@[simp] lemma run_nil : run step s [] = s := rfl

@[simp] lemma run_cons : run step s (a :: acts) = run step (step s a) acts := rfl

@[simp] lemma run_append : run step s (acts ++ acts') = run step (run step s acts) acts' :=
  List.foldl_append

@[simp] lemma along_nil : Along step P s [] := trivial

@[simp] lemma along_cons : Along step P s (a :: acts) ↔ P s a ∧ Along step P (step s a) acts :=
  Iff.rfl

lemma along_append :
    Along step P s (acts ++ acts') ↔ Along step P s acts ∧ Along step P (run step s acts) acts' := by
  induction acts generalizing s with
  | nil => simp
  | cons a acts ih => simp [ih, and_assoc]

/-- A condition on every step, by the position of the step in the run. -/
lemma along_of_take (h : ∀ k a, acts[k]? = some a → P (run step s (acts.take k)) a) :
    Along step P s acts := by
  induction acts generalizing s with
  | nil => trivial
  | cons a acts ih => exact ⟨h 0 a rfl, ih fun k b hk => h (k + 1) b hk⟩

lemma Along.mono (h : Along step P s acts) (hPQ : ∀ s a, P s a → Q s a) : Along step Q s acts := by
  induction acts generalizing s with
  | nil => trivial
  | cons a acts ih => exact ⟨hPQ s a h.1, ih h.2⟩

/-- **The invariant rule.**  What every step meeting `P` preserves, every run whose steps all
meet `P` preserves. -/
theorem run_invariant {I : σ → Prop} (hstep : ∀ s a, I s → P s a → I (step s a))
    (hs : I s) (h : Along step P s acts) : I (run step s acts) := by
  induction acts generalizing s with
  | nil => exact hs
  | cons a acts ih => exact ih (hstep s a hs h.1) h.2

/-- The invariant rule without a condition on the steps. -/
theorem run_invariant' {I : σ → Prop} (hstep : ∀ s a, I s → I (step s a)) (hs : I s) :
    I (run step s acts) := by
  induction acts generalizing s with
  | nil => exact hs
  | cons a acts ih => exact ih (hstep s a hs)

end

/-- **The relational rule.**  Machine `step'` answers each action `a` of `step` by the actions
`answer a`; a relation that every such pair of moves preserves holds after the whole run. -/
theorem run_relation {step : σ → α → σ} {step' : τ → β → τ} {answer : α → List β}
    {P : τ → β → Prop} {R : σ → τ → Prop}
    (hstep : ∀ s t a, R s t → Along step' P t (answer a) →
      R (step s a) (run step' t (answer a)))
    {s : σ} {t : τ} (hst : R s t) {acts : List α}
    (h : Along step' P t (acts.flatMap answer)) :
    R (run step s acts) (run step' t (acts.flatMap answer)) := by
  induction acts generalizing s t with
  | nil => exact hst
  | cons a acts ih =>
      rw [List.flatMap_cons, along_append] at h
      rw [List.flatMap_cons, run_append, run_cons]
      exact ih (hstep s t a hst h.1) h.2

/-! ## Answers -/

/-- The answers a machine gives to the actions `acts`, in order. -/
def answersTo (step : σ → α → σ × β) : σ → List α → List β
  | _, [] => []
  | s, a :: acts => (step s a).2 :: answersTo step (step s a).1 acts

/-- The state behind the answers of `acts`. -/
def afterAnswers (step : σ → α → σ × β) (s : σ) (acts : List α) : σ :=
  run (fun s a => (step s a).1) s acts

lemma answersTo_append (step : σ → α → σ × β) (s : σ) (acts acts' : List α) :
    answersTo step s (acts ++ acts') =
      answersTo step s acts ++ answersTo step (afterAnswers step s acts) acts' := by
  induction acts generalizing s with
  | nil => rfl
  | cons a acts ih =>
      rw [List.cons_append, answersTo, answersTo, ih, List.cons_append]
      rfl

@[simp] lemma length_answersTo (step : σ → α → σ × β) (s : σ) (acts : List α) :
    (answersTo step s acts).length = acts.length := by
  induction acts generalizing s with
  | nil => rfl
  | cons a acts ih => rw [answersTo, List.length_cons, ih, List.length_cons]

/-- **The unwinding rule.**  Where related states answer every action alike and stay related, they
answer every run alike. -/
theorem answersTo_eq_of_unwinding {step : σ → α → σ × β} {R : σ → σ → Prop}
    (hstep : ∀ s t a, R s t → R (step s a).1 (step t a).1 ∧ (step s a).2 = (step t a).2)
    {s t : σ} (hst : R s t) (acts : List α) : answersTo step s acts = answersTo step t acts := by
  induction acts generalizing s t with
  | nil => rfl
  | cons a acts ih =>
      obtain ⟨hnext, hanswer⟩ := hstep s t a hst
      rw [answersTo, answersTo, hanswer, ih hnext]

end Ciss
