import Mathlib.Data.List.Infix

/-!
# Where a path leads

A path is a list of components: back to the root, into a name, up to the parent.  Taken one after
the other, without following a link, they lead to a `Location`: from the root, or from the working
directory, so many directories up and then down through some names.

`Within l m` says that `m` is the place `l` or lies below it, `Below l m` that it lies below.  A
component that is not a name may lead anywhere; a name leads down (`within_locate_names`), and
whether a file lies below a place is a question about the directory it is in (`below_snoc_iff`).
-/

namespace Ciss

variable {α : Type*}

/-- A component of a path. -/
inductive Component (α : Type*) where
  | root
  | stay
  | up
  | into (name : α)
  deriving DecidableEq, Repr

/-- A place: from the root, or from the working directory and so many directories up, down through
the names. -/
@[ext] structure Location (α : Type*) where
  absolute : Bool
  ups : Nat
  names : List α
  deriving DecidableEq, Repr

namespace Location

/-- One component further; the root is its own parent. -/
def enter (l : Location α) : Component α → Location α
  | .root => ⟨true, 0, []⟩
  | .stay => l
  | .up =>
      if l.names ≠ [] then { l with names := l.names.dropLast }
      else if l.absolute then l
      else { l with ups := l.ups + 1 }
  | .into name => { l with names := l.names ++ [name] }

/-- Where the path leads from the working directory. -/
def locate (path : List (Component α)) : Location α := path.foldl enter ⟨false, 0, []⟩

/-- `m` is `l`, or lies below it. -/
def Within (l m : Location α) : Prop :=
  m.absolute = l.absolute ∧ (m.ups < l.ups ∧ l.names = [] ∨ m.ups = l.ups ∧ l.names <+: m.names)

/-- `m` lies below `l`. -/
def Below (l m : Location α) : Prop := Within l m ∧ m ≠ l

instance [DecidableEq α] (l m : Location α) : Decidable (Within l m) :=
  inferInstanceAs (Decidable (m.absolute = l.absolute ∧
    (m.ups < l.ups ∧ l.names = [] ∨ m.ups = l.ups ∧ l.names <+: m.names)))

instance [DecidableEq α] (l m : Location α) : Decidable (Below l m) :=
  inferInstanceAs (Decidable (Within l m ∧ m ≠ l))

section

variable {l m : Location α} {path rest : List (Component α)} {names : List α} {name : α}

lemma Within.refl (l : Location α) : Within l l := ⟨rfl, Or.inr ⟨rfl, List.prefix_rfl⟩⟩

lemma locate_append : locate (path ++ rest) = rest.foldl enter (locate path) :=
  List.foldl_append

lemma locate_snoc_into : locate (path ++ [.into name]) =
    { locate path with names := (locate path).names ++ [name] } := by
  rw [locate_append]
  rfl

lemma foldl_enter_names (l : Location α) (names : List α) :
    (names.map Component.into).foldl enter l = { l with names := l.names ++ names } := by
  induction names generalizing l with
  | nil =>
      rw [List.append_nil]
      rfl
  | cons name names ih =>
      rw [List.map_cons, List.foldl_cons, ih]
      simp [enter]

/-- Names lead down. -/
lemma within_locate_names : Within (locate path) (locate (path ++ names.map Component.into)) := by
  rw [locate_append, foldl_enter_names]
  exact ⟨rfl, Or.inr ⟨rfl, List.prefix_append _ _⟩⟩

/-- A file lies below a place when the directory that it is in is that place or lies below it. -/
lemma below_snoc_iff :
    Below l (locate (path ++ [.into name])) ↔ Within l (locate path) := by
  rw [locate_snoc_into, Below, Within, Within]
  constructor
  · rintro ⟨⟨habs, hups | ⟨hups, hpre⟩⟩, hne⟩
    · exact ⟨habs, Or.inl hups⟩
    · refine ⟨habs, Or.inr ⟨hups, ?_⟩⟩
      rcases List.prefix_concat_iff.1 hpre with hsame | hpre
      · exact absurd (Location.ext habs hups hsame.symm) hne
      · exact hpre
  · rintro ⟨habs, hups | ⟨hups, hpre⟩⟩
    · refine ⟨⟨habs, Or.inl hups⟩, ?_⟩
      rintro rfl
      exact lt_irrefl _ hups.1
    · refine ⟨⟨habs, Or.inr ⟨hups, hpre.trans (List.prefix_append _ _)⟩⟩, ?_⟩
      rintro rfl
      have hlen := hpre.length_le
      rw [List.length_append, List.length_singleton] at hlen
      omega

end

end Location

end Ciss
