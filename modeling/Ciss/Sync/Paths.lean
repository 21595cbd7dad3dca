import Ciss.Framework.Delimited
import Mathlib.Data.List.Infix
import Mathlib.Data.String.Basic

/-!
# Paths that share a tree

The paths of a manifest are relative, their components joined by `/`.  A tree on disk cannot have a
file and, below it, another one: `DirPrefix a b` says that `b` would have to lie below `a`, and
`ancestors b` lists the directories that have to be there for `b`.

A walk of a directory makes its keys from the names it meets, so they are `NormalPath`s; a path
that comes out of a manifest may be any string.
-/

namespace Ciss

/-- The path `a` is a directory prefix of `b`: a file at `b` lies below a directory `a`. -/
def DirPrefix (a b : String) : Prop := a.toList ++ ['/'] <+: b.toList

instance (a b : String) : Decidable (DirPrefix a b) :=
  inferInstanceAs (Decidable (a.toList ++ ['/'] <+: b.toList))

/-- The names between the slashes. -/
def components (p : String) : List (List Char) := p.toList.splitOn '/'

/-- Every component is the name of a file or a directory. -/
def NormalPath (p : String) : Prop :=
  ∀ c ∈ components p, c ≠ [] ∧ c ≠ ['.'] ∧ c ≠ ['.', '.'] ∧ '\x00' ∉ c

instance (p : String) : Decidable (NormalPath p) :=
  inferInstanceAs (Decidable (∀ c ∈ components p, c ≠ [] ∧ c ≠ ['.'] ∧ c ≠ ['.', '.'] ∧ '\x00' ∉ c))

/-- The directories a path lies in, the outermost first. -/
def ancestors (p : String) : List String :=
  (p.toList.inits.filter fun a => a ++ ['/'] <+: p.toList).map String.ofList

variable {a b c s t : String}

lemma mem_ancestors : a ∈ ancestors b ↔ DirPrefix a b := by
  simp only [ancestors, List.mem_map, List.mem_filter, List.mem_inits, decide_eq_true_eq]
  constructor
  · rintro ⟨l, ⟨-, h⟩, rfl⟩
    rwa [DirPrefix, String.toList_ofList]
  · intro h
    exact ⟨a.toList, ⟨(List.prefix_append _ _).trans h, h⟩, String.ofList_toList⟩

lemma dirPrefix_iff : DirPrefix a b ↔ ∃ rest, b.toList = a.toList ++ '/' :: rest := by
  constructor
  · rintro ⟨rest, h⟩
    exact ⟨rest, by rw [← h, List.append_assoc, List.singleton_append]⟩
  · rintro ⟨rest, h⟩
    exact ⟨rest, by rw [h, List.append_assoc, List.singleton_append]⟩

lemma dirPrefix_append (a rest : String) : DirPrefix a (a ++ ("/" ++ rest)) := by
  rw [dirPrefix_iff]
  exact ⟨rest.toList, by rw [String.toList_append, String.toList_append]; rfl⟩

lemma DirPrefix.trans (hab : DirPrefix a b) (hbc : DirPrefix b c) : DirPrefix a c := by
  obtain ⟨r, hr⟩ := dirPrefix_iff.1 hab
  obtain ⟨r', hr'⟩ := dirPrefix_iff.1 hbc
  exact dirPrefix_iff.2 ⟨r ++ '/' :: r', by rw [hr', hr, List.append_assoc, List.cons_append]⟩

lemma DirPrefix.length_lt (h : DirPrefix a b) : a.toList.length < b.toList.length := by
  obtain ⟨r, hr⟩ := dirPrefix_iff.1 h
  rw [hr, List.length_append, List.length_cons]
  omega

lemma DirPrefix.ne (h : DirPrefix a b) : a ≠ b := by
  rintro rfl
  exact lt_irrefl _ h.length_lt

lemma DirPrefix.count_lt (h : DirPrefix a b) : a.toList.count '/' < b.toList.count '/' := by
  obtain ⟨r, hr⟩ := dirPrefix_iff.1 h
  rw [hr, List.count_append, List.count_cons_self]
  omega

/-- A directory comes after those that it lies in. -/
lemma ancestors_split {l l' : List String} (h : ancestors c = l ++ a :: l') (hb : DirPrefix b a) :
    b ∈ l := by
  have hlen : (ancestors c).Pairwise fun x y => x.toList.length < y.toList.length := by
    have hinits : ∀ s : List Char, s.inits.Pairwise fun x y => x.length < y.length := by
      intro s
      induction s with
      | nil => exact List.pairwise_singleton _ _
      | cons x s ih =>
          rw [List.inits_cons, List.pairwise_cons, List.pairwise_map]
          refine ⟨?_, ih.imp (by simp)⟩
          intro y hy
          obtain ⟨z, -, rfl⟩ := List.mem_map.1 hy
          simp
    rw [ancestors, List.pairwise_map]
    exact ((hinits c.toList).filter _).imp (by simp)
  have ha : DirPrefix a c := mem_ancestors.1 (h ▸ List.mem_append_right _ List.mem_cons_self)
  have hbc : b ∈ ancestors c := mem_ancestors.2 (hb.trans ha)
  rw [h] at hbc hlen
  rcases List.mem_append.1 hbc with hbl | hbl
  · exact hbl
  · have hlt := hb.length_lt
    rcases List.mem_cons.1 hbl with rfl | hbl
    · exact absurd hlt (lt_irrefl _)
    · have := List.rel_of_pairwise_cons (List.pairwise_append.1 hlen).2.1 hbl
      omega

lemma DirPrefix.append (h : DirPrefix a b) (s : String) : DirPrefix a (b ++ s) := by
  obtain ⟨r, hr⟩ := dirPrefix_iff.1 h
  exact dirPrefix_iff.2 ⟨r ++ s.toList, by rw [String.toList_append, hr, List.append_assoc]; rfl⟩

/-- Where a name without a slash follows, a directory of the whole is one of the first part, or
ends behind that name. -/
lemma dirPrefix_append_of_free (hs : free '/' s) :
    DirPrefix a (b ++ (s ++ t)) ↔
      DirPrefix a b ∨ ∃ u v : String, t = u ++ ("/" ++ v) ∧ a = b ++ (s ++ u) := by
  have hstr : ∀ {y r : List Char}, t.toList = y ++ '/' :: r →
      t = String.ofList y ++ ("/" ++ String.ofList r) := by
    intro y r h
    rw [← String.toList_inj, h]
    simp
  constructor
  · intro h
    obtain ⟨r, hr⟩ := dirPrefix_iff.1 h
    rw [String.toList_append, String.toList_append] at hr
    rcases List.append_eq_append_iff.1 hr with ⟨z, hz, hz'⟩ | ⟨z, hz, hz'⟩
    · -- `a` ends behind `b`
      rcases List.append_eq_append_iff.1 hz' with ⟨y, hy, hy'⟩ | ⟨y, hy, hy'⟩
      · refine Or.inr ⟨String.ofList y, String.ofList r, hstr hy', ?_⟩
        rw [← String.toList_inj, hz, hy]
        simp
      · rcases y with _ | ⟨x, y⟩
        · refine Or.inr ⟨"", String.ofList r, hstr (y := []) hy'.symm, ?_⟩
          rw [← String.toList_inj, hz]
          simpa using hy.symm
        · obtain rfl : '/' = x := (List.cons.inj hy').1
          exact absurd (by rw [hy]; simp) hs
    · -- `a` ends within `b`
      rcases z with _ | ⟨x, z⟩
      · rcases hsl : s.toList with _ | ⟨x, s'⟩
        · rw [hsl] at hz'
          refine Or.inr ⟨"", String.ofList r, hstr (y := []) hz'.symm, ?_⟩
          rw [← String.toList_inj, String.toList_append, String.toList_append, hsl, hz]
          simp
        · rw [hsl] at hz'
          obtain rfl : '/' = x := (List.cons.inj hz').1
          exact absurd (by rw [hsl]; exact List.mem_cons_self ..) hs
      · obtain rfl : '/' = x := (List.cons.inj hz').1
        exact Or.inl (dirPrefix_iff.2 ⟨z, hz⟩)
  · rintro (h | ⟨u, v, rfl, rfl⟩)
    · exact h.append _
    · have hsplit : b ++ (s ++ (u ++ ("/" ++ v))) = b ++ (s ++ u) ++ ("/" ++ v) := by
        simp only [String.append_assoc]
      rw [hsplit]
      exact dirPrefix_append _ _

end Ciss
