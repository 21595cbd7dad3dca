import Ciss.Sync.Verdict
import Ciss.Sync.DagCbor

/-!
# What the fold preserves

A conflict is meant to be non-lossy: the winning content keeps the path and every losing one is
copied to `<path>.conflict-<device>`.  The copy names share one namespace with the real paths.
The copy of a losing content is written while the paths behind it are still to come, so it
survives unless the decision at that very name keeps something else there, or a later contested
path copies another content onto the same name.  `contents_preserved_iff` says that this is the
only way a content is lost, and exactly when it is.

It happens when a second conflict on a path meets the copy that the first one left:
`second_conflict_loses_content` runs the fold on that input.
-/

namespace Ciss

section

variable (heads : Heads) (base : Option FsManifest)

/-- The tree has the content of `e` at `q`. -/
def HasContent (t : FsManifest) (q : String) (e : FileEntry) : Prop :=
  ∃ e', t.entries[q]? = some e' ∧ sameContent e' e = true

instance (t : FsManifest) (q : String) (e : FileEntry) : Decidable (HasContent t q e) :=
  decidable_of_iff (t.entries[q]?.any (sameContent · e) = true) (Option.any_eq_true _ _)

/-- Every content that some head brings stands in the tree, at its path or at one of the path's
conflict names. -/
def ContentsPreserved (t : FsManifest) : Prop :=
  ∀ d p e, Brings heads base p d e →
    HasContent t p e ∨ ∃ device ∈ heads, HasContent t (conflictPath p device) e

/-- The content of `e` stands at `q` in the base, and no head changed it. -/
def Stays (q : String) (e : FileEntry) : Prop :=
  (∃ b, baseEntry base q = some b ∧ sameContent b e = true) ∧
    ∀ (d : String) (t : FsManifest), heads[d]? = some t →
      isChanged (baseEntry base q) t.entries[q]? = false

variable (δ : FileEntry → String)

/-- The decision at `q` is for the content of `e`. -/
def Prevails (q : String) (e : FileEntry) : Prop :=
  (∃ d e', Wins heads base q δ d e' ∧ sameContent e' e = true) ∨ Stays heads base q e

/-- The last contested path whose copy falls on the name `q` copies the content of `e`. -/
def LastCopied (q : String) (e : FileEntry) : Prop :=
  ∃ p d e', Loses heads base p δ d e' ∧ q = conflictPath p d ∧ sameContent e' e = true ∧
    ∀ p' d' e'', Loses heads base p' δ d' e'' → q = conflictPath p' d' → p' ≤ p

/-- Every losing content has one of its path's conflict names to itself: the decision at that
name is for this very content, or the name is vacant and this content is the last one copied
there. -/
def CopiesHaveRoom : Prop :=
  ∀ p d e, Loses heads base p δ d e →
    ∃ device ∈ heads,
      Prevails heads base δ (conflictPath p device) e ∨
        Vacant heads base (conflictPath p device) ∧
          LastCopied heads base δ (conflictPath p device) e

end

section

variable {C : Crypto} {K : Codec} {heads : Heads} {base : Option FsManifest} {p q d : String}
  {δ : FileEntry → String} {e : FileEntry} {out : FoldOutcome}

/-- The decision at a path, as far as contents go. -/
lemma kept_content_iff :
    (∃ e', kept heads base q δ = some e' ∧ sameContent e' e = true) ↔
      Prevails heads base δ q e := by
  constructor
  · rintro ⟨e', hk, hs⟩
    rcases kept_eq_some_iff.mp hk with ⟨d, hw⟩ | ⟨hb, hd, hu⟩
    · exact Or.inl ⟨d, e', hw, hs⟩
    · refine Or.inr ⟨?_, forall_unchanged_iff.mpr ⟨hb, hd⟩⟩
      rcases unchangedAt_eq_some hu with ⟨_, -, hc⟩ | hbe
      · obtain ⟨b, hbe, hbs⟩ := isChanged_some_iff.mp hc
        exact ⟨b, hbe, sameContent_trans hbs hs⟩
      · exact ⟨e', hbe, hs⟩
  · rintro (⟨d, e', hw, hs⟩ | ⟨⟨b, hbe, hbs⟩, hun⟩)
    · exact ⟨e', kept_eq_some_iff.mpr (Or.inl ⟨d, hw⟩), hs⟩
    · obtain ⟨hb, hd⟩ := forall_unchanged_iff.mp hun
      have hsome : (unchangedAt heads base q).isSome = true := by
        rw [unchangedAt_isSome, hbe]
        rfl
      obtain ⟨e', hu⟩ := Option.isSome_iff_exists.mp hsome
      refine ⟨e', kept_eq_some_iff.mpr (Or.inr ⟨hb, hd, hu⟩), ?_⟩
      rcases unchangedAt_eq_some hu with ⟨_, -, hc⟩ | hbe'
      · obtain ⟨b', hb', hbs'⟩ := isChanged_some_iff.mp hc
        rw [hbe] at hb'
        rw [← Option.some.inj hb'] at hbs'
        rw [sameContent_comm] at hbs'
        exact sameContent_trans hbs' hbs
      · rw [hbe] at hbe'
        rw [← Option.some.inj hbe']
        exact hbs

lemma hasContent_iff (h : fold C K heads base = .ok out) :
    HasContent out.tree q e ↔
      Prevails heads base (digestOf C K) q e ∨
        Vacant heads base q ∧ LastCopied heads base (digestOf C K) q e := by
  simp only [HasContent, fold_tree h, ← kept_content_iff, ← kept_eq_none_iff (digestOf C K)]
  constructor
  · rintro ⟨e', hk | ⟨hk, p, d, hl, hq, hlast⟩, hs⟩
    · exact Or.inl ⟨e', hk, hs⟩
    · exact Or.inr ⟨hk, p, d, e', hl, hq, hs, hlast⟩
  · rintro (⟨e', hk, hs⟩ | ⟨hk, p, d, e', hl, hq, hs, hlast⟩)
    · exact ⟨e', Or.inl hk, hs⟩
    · exact ⟨e', Or.inr ⟨hk, p, d, hl, hq, hlast⟩, hs⟩

lemma Loses.not_prevails (hl : Loses heads base p δ d e) : ¬ Prevails heads base δ p e := by
  obtain ⟨hlead, d', e', hlead', hnle⟩ := hl
  rintro (⟨dw, ew, hw, hs⟩ | ⟨-, hun⟩)
  · obtain ⟨rfl, rfl⟩ := hw.1.eq_of_sameContent hlead hs
    exact hnle (hw.2 d' e' hlead')
  · exact (forall_unchanged_iff.mp hun).1 d e hlead.1

/-- **The fold preserves every content exactly when the copies have room.** -/
theorem contents_preserved_iff (h : fold C K heads base = .ok out) :
    ContentsPreserved heads base out.tree ↔ CopiesHaveRoom heads base (digestOf C K) := by
  constructor
  · intro hp p d e hl
    rcases hp d p e hl.1.1 with hc | ⟨device, hdev, hc⟩
    · rcases (hasContent_iff h).mp hc with hpre | ⟨hv, -⟩
      · exact absurd hpre hl.not_prevails
      · exact absurd hl.1.1 (hv.1 d e)
    · exact ⟨device, hdev, (hasContent_iff h).mp hc⟩
  · intro hroom d p e hb
    obtain ⟨d', e', hlead, hs⟩ := hb.exists_leads
    rcases hlead.wins_or_loses (digestOf C K) with hw | hl
    · exact Or.inl ((hasContent_iff h).mpr (Or.inl (Or.inl ⟨d', e', hw, hs⟩)))
    · obtain ⟨device, hdev, hc⟩ := hroom p d' e' hl
      obtain ⟨e'', he'', hs'⟩ := (hasContent_iff h).mpr hc
      exact Or.inr ⟨device, hdev, e'', he'', sameContent_trans hs' hs⟩

end

/-! ### A second conflict on one path

Both devices hold the tree that an earlier conflict left: `f`, and the losing content of `dev-b`
at `f.conflict-dev-b`.  Both edit `f`, and `dev-b` loses again. -/

/-- A file of one chunk, mode `0o644`. -/
def oneChunk (sha256 blake3 : String) (len : Nat) : FileEntry :=
  ⟨420, 1, 0, len, [⟨sha256, blake3, len⟩]⟩

/-- The file `one`. -/
def fileOne : FileEntry :=
  oneChunk "7692c3ad3540bb803c020b3aee66cd8887123234ea0c6e7143c0add73ff431ed"
    "d33fb48ab5adff269ae172b29a6913ff04f6f266207a7a8e976f2ecd571d4492" 3

/-- The file `two`. -/
def fileTwo : FileEntry :=
  oneChunk "3fc4ccfe745870e2c0d99f71f30ff0656c8dedd41cc1d7d3d376b0dbe685e2f3"
    "dc770fff53f50835f8cc957e01c0d5731d3c2ed544c375493a28c09be5e09763" 3

/-- The file `three`. -/
def fileThree : FileEntry :=
  oneChunk "8b5b9db0c13db24256c829aa364aa90c6d2eba318b9232a4ab9313b954d3555f"
    "dbec0e689fb63bd729147727129d854e9d590ab620a18bbbcb3317d268d6fd72" 5

/-- The file `four`. -/
def fileFour : FileEntry :=
  oneChunk "04efaf080f5a3e74e1c29d1ca6a48569382cbbcd324e8d59d2b83ef21c039f00"
    "37392008a949c4879f190a4ce54e354782bc88564a9534a882b3d42448f96168" 4

/-- A tree of the listed files. -/
def treeOf (files : List (String × FileEntry)) : FsManifest :=
  ⟨fsManifestKind, (∅ : Entries).insertMany files⟩

lemma f_ne_conflictPath (q d : String) : "f" ≠ conflictPath q d := by
  intro h
  rw [conflictPath_eq] at h
  have hlen := congrArg String.length h
  simp only [String.length_append] at hlen
  have : "f".length = 1 := by decide
  have : ".conflict-".length = 10 := by decide
  omega

/-- The SHA-256 digests of the listed entries' encodings. -/
def entryDigests (digests : List (FileEntry × String)) : Crypto where
  sha256Hex := tabulatedHash (digests.map fun x => (x.1.toCbor, x.2))
  isPublicKey _ := false
  verifyStrict _ _ _ := false

lemma exists_fold_of_tree {C : Crypto} {K : Codec} {heads : Heads} {base : Option FsManifest}
    {tree : FsManifest} (h : (fold C K heads base).toOption.map (·.tree) = some tree) :
    ∃ out, fold C K heads base = .ok out ∧ out.tree = tree := by
  cases hf : fold C K heads base with
  | error e =>
      rw [hf] at h
      simp [Except.toOption] at h
  | ok out =>
      rw [hf] at h
      exact ⟨out, rfl, by simpa [Except.toOption] using h⟩

namespace SecondConflict

def crypto : Crypto :=
  entryDigests
    [(fileThree, "81f5f7a7a476f15523220f68c21d0c7533a0052366d75128fdf0a80a1cf4e69e"),
      (fileFour, "d69c01246139e7e61f747c78b0548a6ede09d24f17b6b01d34355fdc7845db94")]

def codec : Codec := dagCbor [] []

def base : FsManifest := treeOf [("f", fileOne), ("f.conflict-dev-b", fileTwo)]

def heads : Heads :=
  (∅ : Heads).insertMany
    [("dev-a", treeOf [("f", fileThree), ("f.conflict-dev-b", fileTwo)]),
      ("dev-b", treeOf [("f", fileFour), ("f.conflict-dev-b", fileTwo)])]

/-- What the fold gives, and that `dev-b` brings the content `four`, which is not in it. -/
lemma observed :
    (fold crypto codec heads (some base)).toOption.map FoldOutcome.tree =
      some (treeOf [("f", fileThree), ("f.conflict-dev-b", fileTwo)]) ∧
    heads["dev-b"]? = some (treeOf [("f", fileFour), ("f.conflict-dev-b", fileTwo)]) ∧
    (treeOf [("f", fileFour), ("f.conflict-dev-b", fileTwo)]).entries["f"]? = some fileFour ∧
    isChanged (baseEntry (some base) "f") (some fileFour) = true ∧
    ∀ q ∈ ["f", conflictPath "f" "dev-a", conflictPath "f" "dev-b"],
      ¬ HasContent (treeOf [("f", fileThree), ("f.conflict-dev-b", fileTwo)]) q fileFour := by
  decide +kernel

lemma fold_isOk : ∃ out, fold crypto codec heads (some base) = .ok out ∧
    out.tree = treeOf [("f", fileThree), ("f.conflict-dev-b", fileTwo)] :=
  exists_fold_of_tree observed.1

lemma not_preserved :
    ¬ ContentsPreserved heads (some base)
      (treeOf [("f", fileThree), ("f.conflict-dev-b", fileTwo)]) := by
  intro h
  obtain ⟨-, hhead, hentry, hchanged, hno⟩ := observed
  rcases h "dev-b" "f" fileFour ⟨⟨_, hhead, hentry⟩, hchanged⟩ with hc | ⟨device, hdev, hc⟩
  · exact hno "f" (by simp) hc
  · have hmem : "dev-b" = device ∨ "dev-a" = device := by
      simpa [heads, Std.ExtTreeMap.insertMany_list_eq_foldl] using hdev
    rcases hmem with rfl | rfl
    · exact hno _ (by simp) hc
    · exact hno _ (by simp) hc

end SecondConflict

/-- At the second conflict the copies have no room. -/
theorem contents_preserved_iff_example :
    ∃ out, fold SecondConflict.crypto SecondConflict.codec SecondConflict.heads
        (some SecondConflict.base) = .ok out ∧
      ¬ CopiesHaveRoom SecondConflict.heads (some SecondConflict.base)
        (digestOf SecondConflict.crypto SecondConflict.codec) := by
  obtain ⟨out, h, htree⟩ := SecondConflict.fold_isOk
  refine ⟨out, h, fun hroom => ?_⟩
  have hpres := (contents_preserved_iff h).mpr hroom
  rw [htree] at hpres
  exact SecondConflict.not_preserved hpres

/-- The second conflict on `f` loses the content that `dev-b` wrote: its copy is overwritten by
the copy that the first conflict left at the same name. -/
theorem second_conflict_loses_content :
    ∃ out, fold SecondConflict.crypto SecondConflict.codec SecondConflict.heads
        (some SecondConflict.base) = .ok out ∧
      ¬ ContentsPreserved SecondConflict.heads (some SecondConflict.base) out.tree := by
  obtain ⟨out, h, htree⟩ := SecondConflict.fold_isOk
  refine ⟨out, h, ?_⟩
  rw [htree]
  exact SecondConflict.not_preserved

end Ciss
