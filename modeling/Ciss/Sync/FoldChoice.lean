import Ciss.Sync.FoldTable
import Mathlib.Logic.Equiv.Basic

/-!
# Who is kept, and what the devices are called

The tiebreak of the fold is meant to be a pure function of the entries: the smallest entry digest
keeps a path, whatever the devices are called.  But the fold groups equal contents before it ranks
them, and of each content it ranks the entry of the first device that brings it; where nobody moved,
it keeps the entry of the last device.  Entries with one content may still differ in mode and mtime,
and then the names of the devices decide which of them is kept.

`EntriesDecide` is what it takes for the entries alone to decide: one changed entry is strictly
ahead of every different changed entry and shares its content with none of them; where nothing
moved, all devices have one entry.  `choice_is_name_free_iff` says that nothing else is needed, and
nothing less is enough.
-/

namespace Ciss

/-- The same trees under other device names. -/
def renameDevices (σ : Equiv.Perm String) (heads : Heads) : Heads :=
  (∅ : Heads).insertMany (heads.toList.map fun x => (σ x.1, x.2))

section

variable (heads : Heads) (base : Option FsManifest) (δ : FileEntry → String) (p : String)

/-- Where contents are brought, the entry the tree has is one with the smallest digest among all
changed entries. -/
def KeepsLeastDigest (t : FsManifest) : Prop :=
  (newContents heads base p).Nonempty →
    ∃ d e, Brings heads base p d e ∧ t.entries[p]? = some e ∧
      ∀ d' e', Brings heads base p d' e' → δ e ≤ δ e'

/-- The changed entries decide: one of them has a smaller digest than every other, and a content
that no other has.  Where nothing changed, the heads' entries are one. -/
structure EntriesDecide : Prop where
  changed : (newContents heads base p).Nonempty → ∃ d e, Brings heads base p d e ∧
    ∀ d' e', Brings heads base p d' e' → e' = e ∨ (δ e < δ e' ∧ sameContent e' e = false)
  unchanged : newContents heads base p = ∅ → ¬ Deleted heads base p →
    ∀ d e d' e', RetainsBase heads base p d e → RetainsBase heads base p d' e' → e = e'

end

section

variable {C : Crypto} {K : Codec} {heads heads' : Heads} {base : Option FsManifest} {p d : String}
  {δ : FileEntry → String} {e e' : FileEntry} {out out' : FoldOutcome} {σ : Equiv.Perm String}

lemma renameDevices_getElem? (d : String) : (renameDevices σ heads)[σ d]? = heads[d]? := by
  have hnodup : (heads.toList.map fun x => (σ x.1, x.2)).Pairwise fun w w' => w.1 ≠ w'.1 := by
    refine List.pairwise_map.2 (heads.distinct_keys_toList.imp fun {x y} hne heq => hne ?_)
    rw [σ.injective heq]
    exact Std.ReflCmp.compare_self
  have hlast : (renameDevices σ heads)[σ d]? =
      lastWrite (σ d) (heads.toList.map fun x => (σ x.1, x.2)) := by
    simp [renameDevices, lastWrite, Std.ExtTreeMap.getElem?_insertMany_list]
  refine Option.ext fun t => ?_
  rw [hlast, lastWrite_eq_some_iff_of_nodup hnodup, List.mem_map]
  constructor
  · rintro ⟨⟨d', t'⟩, hx, heq⟩
    obtain ⟨hd, rfl⟩ := Prod.mk.inj heq
    obtain rfl := σ.injective hd
    exact Std.ExtTreeMap.mem_toList_iff_getElem?_eq_some.1 hx
  · intro ht
    exact ⟨(d, t), Std.ExtTreeMap.mem_toList_iff_getElem?_eq_some.2 ht, rfl⟩

/-! ### What a renaming does not touch

Here `heads'` are the heads under other names. -/

section

variable (hσ : ∀ d, heads'[σ d]? = heads[d]?)
include hσ

lemma brings_rename : Brings heads' base p (σ d) e ↔ Brings heads base p d e := by
  rw [Brings, Brings, hσ]

lemma retainsBase_rename : RetainsBase heads' base p (σ d) e ↔ RetainsBase heads base p d e := by
  rw [RetainsBase, RetainsBase, hσ]

lemma newContents_rename : newContents heads' base p = newContents heads base p := by
  refine Set.ext fun c => ?_
  rw [mem_newContents, mem_newContents, σ.surjective.exists]
  simp only [brings_rename hσ]

lemma deleted_rename : Deleted heads' base p ↔ Deleted heads base p := by
  rw [Deleted, Deleted, σ.surjective.exists]
  simp only [hσ]

end

/-! ### Where the entries decide -/

/-- An entry ahead of every other one, with a content of its own, is kept. -/
lemma kept_of_ahead (hb : Brings heads base p d e) (hahead : ∀ d' e', Brings heads base p d' e' →
    e' = e ∨ (δ e < δ e' ∧ sameContent e' e = false)) : kept heads base p δ = some e := by
  obtain ⟨d₀, e₀, hw⟩ := exists_wins ⟨_, mem_newContents.2 ⟨d, e, hb, rfl⟩⟩ δ
  rw [kept_eq_some_iff.2 (Or.inl ⟨d₀, hw⟩)]
  rcases hahead d₀ e₀ hw.1.1 with rfl | ⟨hlt, -⟩
  · rfl
  · -- the leader of this content is the entry itself, so the winner does not outrank it
    obtain ⟨d₁, e₁, hlead, hs⟩ := hb.exists_leads
    rcases hahead d₁ e₁ hlead.1 with rfl | ⟨-, hne⟩
    · rcases hw.2 d₁ e₁ hlead with hgt | ⟨heq, -⟩
      · exact absurd hgt hlt.not_gt
      · exact absurd heq hlt.ne'
    · rw [hs] at hne
      cases hne

lemma kept_of_unmoved (hnone : newContents heads base p = ∅) (hdel : ¬ Deleted heads base p) :
    kept heads base p δ = unchangedAt heads base p := by
  have hb := newContents_eq_empty_iff.1 hnone
  have hstay : deletedAt heads base p = false := by
    rw [← Bool.not_eq_true, deletedAt_eq_true_iff]
    exact hdel
  refine Option.ext fun e => kept_eq_some_iff.trans ?_
  constructor
  · rintro (⟨d, hw⟩ | ⟨-, -, hun⟩)
    · exact absurd hw.1.1 (hb d e)
    · exact hun
  · intro hun
    exact Or.inr ⟨hb, hstay, hun⟩

lemma kept_of_deleted (hnone : newContents heads base p = ∅) (hdel : Deleted heads base p) :
    kept heads base p δ = none :=
  (kept_eq_none_iff δ).2 (vacant_iff.2 ⟨hnone, Or.inl hdel⟩)

/-- Where all devices have one entry, it is the one that stays. -/
lemma unchangedAt_eq_some_iff_of_unique
    (hone : ∀ d e d' e', RetainsBase heads base p d e → RetainsBase heads base p d' e' → e = e') :
    unchangedAt heads base p = some e ↔ (∃ d, RetainsBase heads base p d e) ∨
      (∀ d e, ¬ RetainsBase heads base p d e) ∧ baseEntry base p = some e := by
  constructor
  · intro h
    rcases unchangedAt_eq_some_iff.1 h with ⟨d, hr, -⟩ | hbase
    · exact Or.inl ⟨d, hr⟩
    · exact Or.inr hbase
  · rintro (⟨d, hr⟩ | hbase)
    · obtain ⟨b, hb, -⟩ := isChanged_some_iff.1 hr.2
      obtain ⟨k, hk⟩ : ∃ k, unchangedAt heads base p = some k := by
        rw [← Option.isSome_iff_exists, unchangedAt_isSome, hb]
        rfl
      rcases unchangedAt_eq_some_iff.1 hk with ⟨d', hr', -⟩ | ⟨hno, -⟩
      · rw [hk, hone d e d' k hr hr']
      · exact absurd hr (hno d e)
    · exact unchangedAt_eq_some_iff.2 (Or.inr hbase)

/-- Where the entries decide, the names do not. -/
lemma kept_rename (hσ : ∀ d, heads'[σ d]? = heads[d]?) (hdec : EntriesDecide heads base δ p) :
    kept heads' base p δ = kept heads base p δ := by
  rcases (newContents heads base p).eq_empty_or_nonempty with hnone | hne
  · have hnone' : newContents heads' base p = ∅ := (newContents_rename hσ).trans hnone
    by_cases hdel : Deleted heads base p
    · rw [kept_of_deleted hnone hdel, kept_of_deleted hnone' ((deleted_rename hσ).2 hdel)]
    · have hdel' : ¬ Deleted heads' base p := fun h => hdel ((deleted_rename hσ).1 h)
      have hone := hdec.unchanged hnone hdel
      have hone' : ∀ d e d' e', RetainsBase heads' base p d e → RetainsBase heads' base p d' e' →
          e = e' := by
        intro d e d' e' hr hr'
        obtain ⟨d, rfl⟩ := σ.surjective d
        obtain ⟨d', rfl⟩ := σ.surjective d'
        exact hone _ _ _ _ ((retainsBase_rename hσ).1 hr) ((retainsBase_rename hσ).1 hr')
      rw [kept_of_unmoved hnone hdel, kept_of_unmoved hnone' hdel']
      refine Option.ext fun e => ?_
      rw [unchangedAt_eq_some_iff_of_unique hone, unchangedAt_eq_some_iff_of_unique hone',
        σ.surjective.exists, σ.surjective.forall]
      simp only [retainsBase_rename hσ]
  · obtain ⟨d, e, hb, hahead⟩ := hdec.changed hne
    rw [kept_of_ahead hb hahead]
    refine kept_of_ahead ((brings_rename hσ).2 hb) fun d' e' hb' => ?_
    obtain ⟨d', rfl⟩ := σ.surjective d'
    exact hahead d' e' ((brings_rename hσ).1 hb')

/-! ### Where they do not -/

/-- Of all devices that bring a content there is a first. -/
lemma exists_first (hb : Brings heads base p d e) :
    ∃ d₀ e₀, Brings heads base p d₀ e₀ ∧ ∀ d' e', Brings heads base p d' e' → d₀ ≤ d' := by
  cases hl : broughtAt heads base p with
  | nil =>
      have hmem := mem_broughtAt.2 hb
      rw [hl] at hmem
      exact absurd hmem List.not_mem_nil
  | cons x l =>
      have hsorted : (broughtAt heads base p).Pairwise fun x y => x.1 < y.1 := broughtAt_sorted
      rw [hl, List.pairwise_cons] at hsorted
      refine ⟨x.1, x.2, mem_broughtAt.1 (by rw [hl]; exact List.mem_cons_self ..), ?_⟩
      intro d' e' hb'
      have hmem := mem_broughtAt.2 hb'
      rw [hl, List.mem_cons] at hmem
      rcases hmem with rfl | hmem
      · exact le_rfl
      · exact (hsorted.1 _ hmem).le

/-- Any changed entry can be made the first, by exchanging two names. -/
lemma exists_renaming_first (hb : Brings heads base p d e) :
    ∃ (σ : Equiv.Perm String) (d₀ : String), Brings (renameDevices σ heads) base p d₀ e ∧
      ∀ d' e', Brings (renameDevices σ heads) base p d' e' → d₀ ≤ d' := by
  obtain ⟨d₀, e₀, hb₀, hfirst⟩ := exists_first hb
  refine ⟨Equiv.swap d d₀, d₀, ?_, fun d' e' hb' => ?_⟩
  · have hb' := (brings_rename (σ := Equiv.swap d d₀) renameDevices_getElem?).2 hb
    rwa [Equiv.swap_apply_left] at hb'
  · obtain ⟨x, rfl⟩ := (Equiv.swap d d₀).surjective d'
    have hx := (brings_rename renameDevices_getElem?).1 hb'
    rw [Equiv.swap_apply_def]
    split_ifs
    · exact le_rfl
    · exact hfirst d e hb
    · exact hfirst x e' hx

/-- Any unchanged entry can be made the last, and so the one that stays. -/
lemma exists_renaming_last (hr : RetainsBase heads base p d e) :
    ∃ σ : Equiv.Perm String, unchangedAt (renameDevices σ heads) base p = some e := by
  obtain ⟨b, hb, -⟩ := isChanged_some_iff.1 hr.2
  obtain ⟨k, hk⟩ : ∃ k, unchangedAt heads base p = some k := by
    rw [← Option.isSome_iff_exists, unchangedAt_isSome, hb]
    rfl
  rcases unchangedAt_eq_some_iff.1 hk with ⟨d₁, hr₁, hlast⟩ | ⟨hno, -⟩
  · refine ⟨Equiv.swap d d₁, unchangedAt_eq_some_iff.2 (Or.inl ⟨d₁, ?_, fun d' e' hr' => ?_⟩)⟩
    · have hr' := (retainsBase_rename (σ := Equiv.swap d d₁) renameDevices_getElem?).2 hr
      rwa [Equiv.swap_apply_left] at hr'
    · obtain ⟨x, rfl⟩ := (Equiv.swap d d₁).surjective d'
      have hx := (retainsBase_rename renameDevices_getElem?).1 hr'
      rw [Equiv.swap_apply_def]
      split_ifs
      · exact le_rfl
      · exact hlast d e hr
      · exact hlast x e' hx
  · exact absurd hr (hno d e)

/-- A decision that no renaming changes is made by the entries. -/
lemma entriesDecide_of_kept_rename
    (h : ∀ σ, kept (renameDevices σ heads) base p δ = kept heads base p δ) :
    EntriesDecide heads base δ p where
  changed hne := by
    obtain ⟨d, e, hw⟩ := exists_wins hne δ
    have hkept := kept_eq_some_iff.2 (Or.inl ⟨d, hw⟩)
    refine ⟨d, e, hw.1.1, fun d' e' hb' => ?_⟩
    by_cases heq : e' = e
    · exact Or.inl heq
    · -- with `e'` first of all, `e` still wins, so it outranks `e'` by its digest
      obtain ⟨σ, d₁, hb₁, hfirst⟩ := exists_renaming_first hb'
      have hlead : Leads (renameDevices σ heads) base p d₁ e' :=
        ⟨hb₁, fun d'' e'' hb'' _ => hfirst d'' e'' hb''⟩
      have hkept' := (h σ).trans hkept
      rcases kept_eq_some_iff.1 hkept' with ⟨d₂, hw₂⟩ | ⟨hno, -⟩
      · refine Or.inr ⟨?_, ?_⟩
        · rcases hw₂.2 d₁ e' hlead with hlt | ⟨-, hle⟩
          · exact hlt
          · have hd : d₂ = d₁ := le_antisymm hle (hfirst d₂ e hw₂.1.1)
            rw [hd] at hw₂
            exact absurd (hb₁.entry_eq hw₂.1.1) heq
        · rw [← Bool.not_eq_true]
          exact fun hs => heq (hlead.eq_of_sameContent hw₂.1 hs).2
      · exact absurd hb₁ (hno d₁ e')
  unchanged hnone hdel := by
    have hstays : ∀ d e, RetainsBase heads base p d e → unchangedAt heads base p = some e := by
      intro d e hr
      obtain ⟨σ, hun⟩ := exists_renaming_last hr
      have hnone' : newContents (renameDevices σ heads) base p = ∅ :=
        (newContents_rename renameDevices_getElem?).trans hnone
      have hdel' : ¬ Deleted (renameDevices σ heads) base p :=
        fun hd => hdel ((deleted_rename renameDevices_getElem?).1 hd)
      rw [← kept_of_unmoved hnone hdel, ← h σ, kept_of_unmoved hnone' hdel', hun]
    intro d e d' e' hr hr'
    exact Option.some.inj ((hstays d e hr).symm.trans (hstays d' e' hr'))

/-- The decision depends on the entries alone exactly where they decide. -/
theorem kept_rename_iff :
    (∀ σ, kept (renameDevices σ heads) base p δ = kept heads base p δ) ↔
      EntriesDecide heads base δ p :=
  ⟨entriesDecide_of_kept_rename, fun hdec _ => kept_rename renameDevices_getElem? hdec⟩

/-- There the entry kept has the smallest digest of all that changed. -/
lemma EntriesDecide.kept_least (hdec : EntriesDecide heads base δ p)
    (hne : (newContents heads base p).Nonempty) :
    ∃ d e, Brings heads base p d e ∧ kept heads base p δ = some e ∧
      ∀ d' e', Brings heads base p d' e' → δ e ≤ δ e' := by
  obtain ⟨d, e, hb, hahead⟩ := hdec.changed hne
  refine ⟨d, e, hb, kept_of_ahead hb hahead, fun d' e' hb' => ?_⟩
  rcases hahead d' e' hb' with rfl | ⟨hlt, -⟩
  · exact le_rfl
  · exact hlt.le

/-! ### The folded tree -/

lemma not_copiedOnto_rename (hσ : ∀ d, heads'[σ d]? = heads[d]?)
    (hp : ∀ q d, (newContents heads base q).Nontrivial → p ≠ conflictPath q d) :
    ¬ CopiedOnto heads' base p δ := by
  rintro ⟨q, d, e, hl, hq⟩
  have hnt := exists_loses_iff_nontrivial.1 ⟨d, e, hl⟩
  rw [newContents_rename hσ] at hnt
  exact hp q d hnt hq

/-- **The choice is free of the device names exactly where the entries decide.**  The path is none
that a contested path copies onto, whatever the devices are called, and every changed entry has a
digest. -/
theorem choice_is_name_free_iff (h : fold C K heads base = .ok out)
    (hdigest : ∀ q d e, Brings heads base q d e → ∃ s, entryDigest C K e = .ok s)
    (hp : ∀ q d, (newContents heads base q).Nontrivial → p ≠ conflictPath q d) :
    (KeepsLeastDigest heads base (digestOf C K) p out.tree ∧
      ∀ σ out', fold C K (renameDevices σ heads) base = .ok out' →
        out'.tree.entries[p]? = out.tree.entries[p]?) ↔
      EntriesDecide heads base (digestOf C K) p := by
  have hid : ∀ d, heads[Equiv.refl String d]? = heads[d]? := fun d => rfl
  have htree := fold_getElem?_of_not_copiedOnto h (not_copiedOnto_rename hid hp)
  constructor
  · rintro ⟨-, hinv⟩
    refine kept_rename_iff.1 fun σ => ?_
    obtain ⟨out', h'⟩ : ∃ out', fold C K (renameDevices σ heads) base = .ok out' := by
      refine (exists_fold_iff (digestOf C K)).2 fun q _ d e hl => ?_
      obtain ⟨x, rfl⟩ := σ.surjective d
      exact hdigest q x e ((brings_rename renameDevices_getElem?).1 hl.1)
    rw [← fold_getElem?_of_not_copiedOnto h' (not_copiedOnto_rename renameDevices_getElem? hp),
      ← htree]
    exact hinv σ out' h'
  · intro hdec
    refine ⟨fun hne => ?_, fun σ out' h' => ?_⟩
    · rw [htree]
      exact hdec.kept_least hne
    · rw [htree, fold_getElem?_of_not_copiedOnto h'
        (not_copiedOnto_rename renameDevices_getElem? hp)]
      exact kept_rename renameDevices_getElem? hdec

end

/-! ### One content, two mtimes

Two devices add the same file; on the second it has a later mtime. -/

namespace SharedContent

def later : FileEntry := { fileThree with mtimeSecs := 2 }

def heads : Heads :=
  (∅ : Heads).insertMany [("dev-a", treeOf [("f", fileThree)]), ("dev-b", treeOf [("f", later)])]

/-- The exchange of the two names. -/
def swap : Equiv.Perm String := Equiv.swap "dev-a" "dev-b"

/-- What the folds under the two namings give. -/
lemma observed :
    (fold SecondConflict.crypto SecondConflict.codec heads none).toOption.map FoldOutcome.tree =
      some (treeOf [("f", fileThree)]) ∧
    (fold SecondConflict.crypto SecondConflict.codec (renameDevices swap heads)
      none).toOption.map FoldOutcome.tree = some (treeOf [("f", later)]) ∧
    (treeOf [("f", later)]).entries["f"]? ≠ (treeOf [("f", fileThree)]).entries["f"]? := by
  decide +kernel

lemma fold_heads : ∃ out, fold SecondConflict.crypto SecondConflict.codec heads none = .ok out ∧
    out.tree = treeOf [("f", fileThree)] :=
  exists_fold_of_tree observed.1

lemma fold_swapped : ∃ out, fold SecondConflict.crypto SecondConflict.codec
    (renameDevices swap heads) none = .ok out ∧ out.tree = treeOf [("f", later)] :=
  exists_fold_of_tree observed.2.1

lemma has_digest (e : FileEntry) :
    ∃ s, entryDigest SecondConflict.crypto SecondConflict.codec e = .ok s := ⟨_, rfl⟩

/-- Under the other names the fold keeps the other entry. -/
lemma not_name_free {out : FoldOutcome}
    (h : fold SecondConflict.crypto SecondConflict.codec heads none = .ok out) :
    ¬ ∀ σ out', fold SecondConflict.crypto SecondConflict.codec (renameDevices σ heads) none =
      .ok out' → out'.tree.entries["f"]? = out.tree.entries["f"]? := by
  intro hinv
  obtain ⟨o, ho, htree⟩ := fold_heads
  obtain ⟨out', h', htree'⟩ := fold_swapped
  rw [h] at ho
  have heq := hinv swap out' h'
  rw [Except.ok.inj ho, htree, htree'] at heq
  exact observed.2.2 heq

end SharedContent

/-- The two entries share their content, so they do not decide. -/
theorem choice_is_name_free_iff_example :
    ¬ EntriesDecide SharedContent.heads none
      (digestOf SecondConflict.crypto SecondConflict.codec) "f" := by
  obtain ⟨out, h, -⟩ := SharedContent.fold_heads
  rw [← choice_is_name_free_iff h (fun _ _ e _ => SharedContent.has_digest e)
    fun q d _ => f_ne_conflictPath q d]
  exact fun hfree => SharedContent.not_name_free h hfree.2

/-- Exchanging the names of two devices changes which of their entries the fold keeps. -/
theorem choice_depends_on_device_names :
    ¬ ∀ (C : Crypto) (K : Codec) (heads : Heads) (base : Option FsManifest) (out : FoldOutcome)
      (p : String), fold C K heads base = .ok out →
      (∀ q d e, Brings heads base q d e → ∃ s, entryDigest C K e = .ok s) →
      (∀ q d, (newContents heads base q).Nontrivial → p ≠ conflictPath q d) →
      KeepsLeastDigest heads base (digestOf C K) p out.tree ∧
        ∀ σ out', fold C K (renameDevices σ heads) base = .ok out' →
          out'.tree.entries[p]? = out.tree.entries[p]? := by
  intro hclaim
  obtain ⟨out, h, -⟩ := SharedContent.fold_heads
  exact SharedContent.not_name_free h (hclaim _ _ _ none out "f" h
    (fun _ _ e _ => SharedContent.has_digest e) fun q d _ => f_ne_conflictPath q d).2

end Ciss
