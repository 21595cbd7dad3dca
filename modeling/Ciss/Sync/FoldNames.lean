import Ciss.Sync.FoldContent
import Ciss.Sync.Paths

/-!
# When the folded tree can stand on disk

The fold decides each path on its own.  A file on one device and a directory of the same name on
another are two paths, and both are kept; a copy of a losing content takes a name that may be a
directory elsewhere.  `CanStand` lists what keeps the folded tree free of a file below a file, for
heads that are free of it: no two brought paths meet that way, no copy stands above a surviving
path, and no copy's device name, which the copy's path ends in, reaches below another name of the
tree.  `fold_can_stand_iff` says that the list is complete.
-/

namespace Ciss

/-- No path of the tree is a directory prefix of another. -/
def PrefixFree (t : FsManifest) : Prop :=
  ∀ a b, t.entries[a]? ≠ none → t.entries[b]? ≠ none → ¬ DirPrefix a b

section

variable (heads : Heads) (base : Option FsManifest) (δ : FileEntry → String)

/-- A name of the folded tree: a path that survives, or a conflict copy. -/
def FoldName (q : String) : Prop :=
  ¬ Vacant heads base q ∨ ∃ p d e, Loses heads base p δ d e ∧ q = conflictPath p d

/-- No file of the folded tree has to lie below another. -/
structure CanStand : Prop where
  /-- Without any head the base is what is folded. -/
  base_free : (∀ d : String, heads[d]? = none) → ∀ b, base = some b → PrefixFree b
  brought : ∀ a b d e d' e', Brings heads base a d e → Brings heads base b d' e' → ¬ DirPrefix a b
  copies : ∀ q d e, Loses heads base q δ d e → ∀ b, ¬ Vacant heads base b →
    ¬ DirPrefix (conflictPath q d) b
  devices : ∀ q d e, Loses heads base q δ d e → ∀ u v, d = u ++ ("/" ++ v) →
    ¬ FoldName heads base δ (conflictPath q u)

end

section

variable {C : Crypto} {K : Codec} {heads : Heads} {base : Option FsManifest} {p q d a b : String}
  {δ : FileEntry → String} {e : FileEntry} {out : FoldOutcome}

lemma foldName_iff (h : fold C K heads base = .ok out) :
    out.tree.entries[q]? ≠ none ↔ FoldName heads base (digestOf C K) q := by
  rw [Ne, fold_getElem?_eq_none_iff h, kept_eq_none_iff, FoldName, not_and_or]
  push Not
  exact Iff.rfl

/-- What survives is brought by some head, or stands in the base and in every head. -/
lemma not_vacant_iff : ¬ Vacant heads base q ↔ (∃ d e, Brings heads base q d e) ∨
    (baseEntry base q ≠ none ∧
      ∀ (d : String) (t : FsManifest), heads[d]? = some t → t.entries[q]? ≠ none) := by
  rw [Vacant]
  constructor
  · intro h
    by_cases hb : ∃ d e, Brings heads base q d e
    · exact Or.inl hb
    · push Not at hb
      refine Or.inr ⟨fun hnone => h ⟨hb, Or.inl hnone⟩, fun d t ht hgone => ?_⟩
      exact h ⟨hb, Or.inr ⟨d, t, ht, hgone⟩⟩
  · rintro (⟨d, e, hb⟩ | ⟨hbase, hall⟩) ⟨hnone, hgone⟩
    · exact hnone d e hb
    · rcases hgone with hgone | ⟨d, t, ht, hgone⟩
      · exact hbase hgone
      · exact hall d t ht hgone

lemma Brings.exists_entry (h : Brings heads base p d e) :
    ∃ t, heads[d]? = some t ∧ t.entries[p]? ≠ none := by
  obtain ⟨⟨t, ht, he⟩, -⟩ := h
  exact ⟨t, ht, by rw [he]; exact Option.some_ne_none e⟩

/-- Two surviving paths do not lie one below the other. -/
lemma CanStand.surviving (h : CanStand heads base δ)
    (hheads : ∀ (d : String) (t : FsManifest), heads[d]? = some t → PrefixFree t)
    (ha : ¬ Vacant heads base a) (hb : ¬ Vacant heads base b) : ¬ DirPrefix a b := by
  rcases not_vacant_iff.1 ha with ⟨d, e, hba⟩ | ⟨hbase, hall⟩
  · rcases not_vacant_iff.1 hb with ⟨d', e', hbb⟩ | ⟨-, hall'⟩
    · exact h.brought a b d e d' e' hba hbb
    · obtain ⟨t, ht, hta⟩ := hba.exists_entry
      exact hheads d t ht a b hta (hall' d t ht)
  · rcases not_vacant_iff.1 hb with ⟨d', e', hbb⟩ | ⟨hbase', hall'⟩
    · obtain ⟨t, ht, htb⟩ := hbb.exists_entry
      exact hheads d' t ht a b (hall d' t ht) htb
    · -- both stand everywhere: in any head, or in the base when there is none
      by_cases hsome : ∃ (d : String) (t : FsManifest), heads[d]? = some t
      · obtain ⟨d, t, ht⟩ := hsome
        exact hheads d t ht a b (hall d t ht) (hall' d t ht)
      · push Not at hsome
        cases base with
        | none => exact absurd rfl hbase
        | some t =>
            exact h.base_free (fun d => Option.eq_none_iff_forall_ne_some.2 (hsome d)) t rfl a b
              hbase hbase'

/-- A name above a conflict copy is above the contested path, or ends within the device's name. -/
lemma dirPrefix_conflictPath :
    DirPrefix a (conflictPath q d) ↔
      DirPrefix a q ∨ ∃ u v : String, d = u ++ ("/" ++ v) ∧ a = conflictPath q u := by
  simp only [conflictPath_eq]
  exact dirPrefix_append_of_free (by decide)

/-- **The folded tree can stand on disk exactly when** its inputs meet `CanStand`. -/
theorem fold_can_stand_iff (h : fold C K heads base = .ok out)
    (hheads : ∀ (d : String) (t : FsManifest), heads[d]? = some t → PrefixFree t) :
    PrefixFree out.tree ↔ CanStand heads base (digestOf C K) := by
  simp only [PrefixFree, foldName_iff h]
  constructor
  · intro hfree
    refine ⟨fun hempty t hbase a b ha hb => ?_, fun a b d e d' e' hba hbb => ?_,
      fun q d e hl b hb => ?_, fun q d e hl u v hd hname => ?_⟩
    · have hstays : ∀ {q}, t.entries[q]? ≠ none → ¬ Vacant heads base q := by
        intro q hq
        refine not_vacant_iff.2 (Or.inr ⟨by rw [hbase]; exact hq, fun d t' ht => ?_⟩)
        rw [hempty d] at ht
        cases ht
      exact hfree a b (Or.inl (hstays ha)) (Or.inl (hstays hb))
    · exact hfree a b (Or.inl fun hv => hv.1 d e hba) (Or.inl fun hv => hv.1 d' e' hbb)
    · exact hfree _ b (Or.inr ⟨q, d, e, hl, rfl⟩) (Or.inl hb)
    · exact hfree _ _ hname (Or.inr ⟨q, d, e, hl, rfl⟩)
        (dirPrefix_conflictPath.2 (Or.inr ⟨u, v, hd, rfl⟩))
  · intro hstand a b ha hb hab
    have hbelow : ∀ b, ¬ Vacant heads base b → ¬ DirPrefix a b := by
      intro b hb
      rcases ha with ha | ⟨q, d, e, hl, rfl⟩
      · exact hstand.surviving hheads ha hb
      · exact hstand.copies q d e hl b hb
    rcases hb with hb | ⟨q, d, e, hl, rfl⟩
    · exact hbelow b hb hab
    · rcases dirPrefix_conflictPath.1 hab with haq | ⟨u, v, hd, rfl⟩
      · exact hbelow q (fun hv => hv.1 d e hl.1.1) haq
      · exact hstand.devices q d e hl u v hd ha

end

/-! ### A file here, a directory there -/

namespace FileAndDirectory

def heads : Heads :=
  (∅ : Heads).insertMany [("dev-a", treeOf [("x", fileOne)]), ("dev-b", treeOf [("x/y", fileTwo)])]

/-- What the fold gives, and which names the heads and the folded tree have. -/
lemma observed :
    (fold SecondConflict.crypto SecondConflict.codec heads none).toOption.map FoldOutcome.tree =
      some (treeOf [("x", fileOne), ("x/y", fileTwo)]) ∧
    (∀ x ∈ heads.toList, ∀ a ∈ x.2.entries.keys, ∀ b ∈ x.2.entries.keys, ¬ DirPrefix a b) ∧
    (treeOf [("x", fileOne), ("x/y", fileTwo)]).entries["x"]? ≠ none ∧
    (treeOf [("x", fileOne), ("x/y", fileTwo)]).entries["x/y"]? ≠ none ∧
    DirPrefix "x" "x/y" := by
  decide +kernel

lemma fold_heads : ∃ out, fold SecondConflict.crypto SecondConflict.codec heads none = .ok out ∧
    out.tree = treeOf [("x", fileOne), ("x/y", fileTwo)] :=
  exists_fold_of_tree observed.1

lemma heads_free (d : String) (t : FsManifest) (h : heads[d]? = some t) : PrefixFree t := by
  obtain ⟨-, hall, -⟩ := observed
  have hkey : ∀ {q}, t.entries[q]? ≠ none → q ∈ t.entries.keys := by
    intro q hq
    rw [Std.ExtTreeMap.mem_keys, Std.ExtTreeMap.mem_iff_isSome_getElem?]
    exact Option.ne_none_iff_isSome.1 hq
  intro a b ha hb
  exact hall (d, t) (Std.ExtTreeMap.mem_toList_iff_getElem?_eq_some.2 h) a (hkey ha) b (hkey hb)

lemma folded_not_free : ¬ PrefixFree (treeOf [("x", fileOne), ("x/y", fileTwo)]) := by
  intro h
  obtain ⟨-, -, hfile, hbelow, hprefix⟩ := observed
  exact h "x" "x/y" hfile hbelow hprefix

end FileAndDirectory

/-- A file and a directory of one name cannot both stand. -/
theorem fold_can_stand_iff_example :
    ¬ CanStand FileAndDirectory.heads none
      (digestOf SecondConflict.crypto SecondConflict.codec) := by
  obtain ⟨out, h, htree⟩ := FileAndDirectory.fold_heads
  rw [← fold_can_stand_iff h FileAndDirectory.heads_free, htree]
  exact FileAndDirectory.folded_not_free

/-- The fold of a file on one device and a directory of its name on the other has both. -/
theorem fold_file_below_file :
    ¬ ∀ (C : Crypto) (K : Codec) (heads : Heads) (base : Option FsManifest) (out : FoldOutcome),
      fold C K heads base = .ok out →
      (∀ (d : String) (t : FsManifest), heads[d]? = some t → PrefixFree t) →
      PrefixFree out.tree := by
  intro hclaim
  obtain ⟨out, h, htree⟩ := FileAndDirectory.fold_heads
  have hfree := hclaim _ _ _ none out h FileAndDirectory.heads_free
  rw [htree] at hfree
  exact FileAndDirectory.folded_not_free hfree

end Ciss
