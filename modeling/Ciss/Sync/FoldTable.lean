import Ciss.Sync.FoldContent

/-!
# The three-way table

The fold's documentation gives a table for two devices: a path is decided from what the base has
there and what each device has now.  Here it is for any number of devices.  `newContents` are the
distinct contents at a path among the heads that differ from the base there, and three cases remain:
nobody brings a content and the path is deleted or was never there; nobody brings one and nobody
deletes, so the base's content stays; some contents are brought, and one of them keeps the path
while each of the others gets a note.

Paths share their namespace with the copies of losing contents, so the table speaks about a path
onto which no loser is copied (`CopiedOnto`).  `fold_three_way` is the table.
-/

namespace Ciss

/-- What two entries share when their content is the same. -/
def contentOf (e : FileEntry) : Nat × List ChunkRef := (e.size, e.chunks)

lemma sameContent_iff_contentOf {a b : FileEntry} :
    sameContent a b = true ↔ contentOf a = contentOf b := by
  rw [sameContent_iff, contentOf, contentOf, Prod.mk.injEq]

section

variable (heads : Heads) (base : Option FsManifest) (p : String)

/-- The content a tree has at the path. -/
def contentAt (t : FsManifest) : Option (Nat × List ChunkRef) := t.entries[p]?.map contentOf

/-- The distinct contents at the path among the heads that differ from the base there. -/
def newContents : Set (Nat × List ChunkRef) :=
  {c | ∃ (d : String) (t : FsManifest), heads[d]? = some t ∧ contentAt p t = some c ∧
    (baseEntry base p).map contentOf ≠ some c}

/-- Some head deleted the path. -/
def Deleted : Prop :=
  (baseEntry base p).isSome = true ∧
    ∃ (d : String) (t : FsManifest), heads[d]? = some t ∧ t.entries[p]? = none

/-- Neither the base nor any head has the path. -/
def Absent : Prop :=
  baseEntry base p = none ∧
    ∀ (d : String) (t : FsManifest), heads[d]? = some t → t.entries[p]? = none

variable (δ : FileEntry → String)

/-- The path is the conflict-copy path of a contested path. -/
def CopiedOnto : Prop := ∃ q d e, Loses heads base q δ d e ∧ p = conflictPath q d

end

/-- The notes the fold reports for a path. -/
def FoldOutcome.notesFor (out : FoldOutcome) (p : String) : List ConflictNote :=
  out.conflicts.filter fun note => note.path = p

/-- The content a note preserves: what the losing device has at the contested path. -/
def ConflictNote.loserContent (heads : Heads) (note : ConflictNote) :
    Option (Nat × List ChunkRef) :=
  heads[note.loser]?.bind (contentAt note.path)

section

variable {C : Crypto} {K : Codec} {heads : Heads} {base : Option FsManifest} {p d : String}
  {δ : FileEntry → String} {e : FileEntry} {out : FoldOutcome} {c : Nat × List ChunkRef}

/-! ### The contents brought -/

lemma isChanged_some_eq_true_iff :
    isChanged (baseEntry base p) (some e) = true ↔
      (baseEntry base p).map contentOf ≠ some (contentOf e) := by
  cases hb : baseEntry base p with
  | none => simp [isChanged]
  | some b => simp [isChanged, ← sameContent_iff_contentOf, -sameContent_iff]

lemma mem_newContents : c ∈ newContents heads base p ↔
    ∃ d e, Brings heads base p d e ∧ contentOf e = c := by
  constructor
  · rintro ⟨d, t, ht, hc, hne⟩
    obtain ⟨e, he, rfl⟩ := Option.map_eq_some_iff.1 hc
    exact ⟨d, e, ⟨⟨t, ht, he⟩, isChanged_some_eq_true_iff.2 hne⟩, rfl⟩
  · rintro ⟨d, e, ⟨⟨t, ht, he⟩, hne⟩, rfl⟩
    exact ⟨d, t, ht, by rw [contentAt, he]; rfl, isChanged_some_eq_true_iff.1 hne⟩

lemma newContents_eq_empty_iff :
    newContents heads base p = ∅ ↔ ∀ d e, ¬ Brings heads base p d e := by
  rw [Set.eq_empty_iff_forall_notMem]
  constructor
  · intro h d e hb
    exact h _ (mem_newContents.2 ⟨d, e, hb, rfl⟩)
  · intro h c hc
    obtain ⟨d, e, hb, -⟩ := mem_newContents.1 hc
    exact h d e hb

/-- Nothing is to be kept where nobody brings a content and the path was deleted or never there. -/
lemma vacant_iff : Vacant heads base p ↔
    newContents heads base p = ∅ ∧ (Deleted heads base p ∨ Absent heads base p) := by
  rw [Vacant, newContents_eq_empty_iff]
  refine and_congr_right fun hb => ?_
  cases hbase : baseEntry base p with
  | some b => simp [Deleted, Absent, hbase]
  | none =>
      have habsent : Absent heads base p := by
        refine ⟨hbase, fun d t ht => ?_⟩
        rw [Option.eq_none_iff_forall_ne_some]
        intro e he
        exact hb d e ⟨⟨t, ht, he⟩, by rw [hbase]; rfl⟩
      exact iff_of_true (Or.inl rfl) (Or.inr habsent)

/-! ### The notes -/

lemma mem_notesAt {note : ConflictNote} (h : note ∈ notesAt heads base p δ) : note.path = p := by
  unfold notesAt at h
  cases hs : (standings heads base p δ).head? with
  | none => simp [hs] at h
  | some winner =>
      rw [hs, Option.elim_some, List.mem_map] at h
      obtain ⟨r, -, rfl⟩ := h
      rfl

/-- A note for every losing content, and the content it preserves. -/
lemma map_loserContent_notesAt :
    (notesAt heads base p δ).map (ConflictNote.loserContent heads) =
      (copies heads base p δ).map fun r => some (contentOf r.entry) := by
  unfold notesAt
  cases hs : standings heads base p δ with
  | nil => simp [copies, hs]
  | cons winner losers =>
      rw [List.head?_cons, Option.elim_some, List.map_map]
      refine List.map_congr_left fun r hr => ?_
      obtain ⟨⟨t, ht, he⟩, -⟩ := (mem_copies.1 hr).1.1.1
      simp [ConflictNote.loserContent, ht, contentAt, he]

/-- Of lists joined in the order of distinct keys, those with one key are its own list. -/
lemma filter_flatMap_of_nodup {β : Type*} {keys : List String} (hkeys : keys.Nodup)
    {f : String → List β} {key : β → String} (hf : ∀ k, ∀ b ∈ f k, key b = k) :
    (keys.flatMap f).filter (fun b => key b = p) = if p ∈ keys then f p else [] := by
  induction keys with
  | nil => rfl
  | cons k keys ih =>
      obtain ⟨hk, hkeys⟩ := List.nodup_cons.1 hkeys
      rw [List.flatMap_cons, List.filter_append, ih hkeys]
      by_cases hkp : k = p
      · subst hkp
        rw [if_neg hk, if_pos (List.mem_cons_self ..), List.append_nil]
        exact List.filter_eq_self.2 fun b hb => decide_eq_true (hf k b hb)
      · have hnone : (f k).filter (fun b => key b = p) = [] :=
          List.filter_eq_nil_iff.2 fun b hb => by
            rw [hf k b hb, decide_eq_true_iff]
            exact hkp
        rw [hnone, List.nil_append]
        simp [Ne.symm hkp]

lemma notesAt_eq_nil (h : ∀ d e, ¬ Loses heads base p δ d e) : notesAt heads base p δ = [] := by
  have hcopies : copies heads base p δ = [] :=
    List.eq_nil_iff_forall_not_mem.2 fun r hr => h _ _ (mem_copies.1 hr).1
  rw [notesAt, hcopies]
  cases (standings heads base p δ).head? <;> rfl

/-- The notes reported for a path are those of its own decision. -/
lemma notesFor_eq (h : fold C K heads base = .ok out) :
    out.notesFor p = notesAt heads base p (digestOf C K) := by
  have hnodup : (foldPaths heads base).Nodup := foldPaths_sorted.imp fun hlt => hlt.ne
  rw [FoldOutcome.notesFor, fold_conflicts h,
    filter_flatMap_of_nodup hnodup fun k note hnote => mem_notesAt hnote]
  split
  · rfl
  · rename_i hp
    exact (notesAt_eq_nil fun d e hl => hp hl.1.1.mem_foldPaths).symm

lemma notesAt_ne_nil_iff : notesAt heads base p δ ≠ [] ↔ ∃ d e, Loses heads base p δ d e := by
  constructor
  · intro hne
    by_contra hnone
    push Not at hnone
    exact hne (notesAt_eq_nil hnone)
  · rintro ⟨d, e, hl⟩ hnil
    have hmem : some (contentOf e) ∈
        (copies heads base p δ).map fun r => some (contentOf r.entry) :=
      List.mem_map.2 ⟨⟨δ e, d, e⟩, mem_copies.2 ⟨hl, rfl⟩, rfl⟩
    rw [← map_loserContent_notesAt, hnil] at hmem
    exact List.not_mem_nil hmem

/-! ### Winner and losers, as contents -/

/-- The contents that lose are the brought ones other than the winner's. -/
lemma exists_loses_content_iff {d₀ : String} {e₀ : FileEntry} (hw : Wins heads base p δ d₀ e₀) :
    (∃ d e, Loses heads base p δ d e ∧ contentOf e = c) ↔
      c ∈ newContents heads base p ∧ c ≠ contentOf e₀ := by
  constructor
  · rintro ⟨d, e, hl, rfl⟩
    refine ⟨mem_newContents.2 ⟨d, e, hl.1.1, rfl⟩, fun heq => hl.not_prevails ?_⟩
    exact Or.inl ⟨d₀, e₀, hw, sameContent_iff_contentOf.2 heq.symm⟩
  · rintro ⟨hc, hne⟩
    obtain ⟨d, e, hb, rfl⟩ := mem_newContents.1 hc
    obtain ⟨d', e', hlead, hs⟩ := hb.exists_leads
    rw [sameContent_iff_contentOf] at hs
    rcases hlead.wins_or_loses δ with hw' | hl
    · have hd := Standing.device_eq_of_le_of_le (hw.2 d' e' hlead) (hw'.2 d₀ e₀ hw.1)
      dsimp only at hd
      subst hd
      rw [hlead.1.entry_eq hw.1.1] at hs
      exact absurd hs.symm hne
    · exact ⟨d', e', hl, hs⟩

/-- No two notes preserve one content. -/
lemma copies_contents_nodup :
    ((copies heads base p δ).map fun r => some (contentOf r.entry)).Nodup := by
  have hdev : (copies heads base p δ).Pairwise fun s s' => s.device ≠ s'.device :=
    standings_devices.sublist (List.tail_sublist _)
  refine List.pairwise_map.2 (hdev.imp_of_mem fun {r r'} hr hr' hne heq => hne ?_)
  refine ((mem_copies.1 hr).1.1.eq_of_sameContent (mem_copies.1 hr').1.1 ?_).1
  exact sameContent_iff_contentOf.2 (Option.some.inj heq)

/-- Where contents are brought, one of them wins. -/
lemma exists_wins (hne : (newContents heads base p).Nonempty) (δ : FileEntry → String) :
    ∃ d e, Wins heads base p δ d e := by
  obtain ⟨c, hc⟩ := hne
  obtain ⟨d, e, hb, -⟩ := mem_newContents.1 hc
  obtain ⟨k, hk⟩ : ∃ k, kept heads base p δ = some k := by
    rw [← Option.ne_none_iff_exists', Ne, kept_eq_none_iff]
    exact fun hv => hv.1 d e hb
  rcases kept_eq_some_iff.1 hk with ⟨d', hw⟩ | ⟨hnone, -⟩
  · exact ⟨d', k, hw⟩
  · exact absurd hb (hnone d e)

/-- Some content loses exactly where two are brought. -/
lemma exists_loses_iff_nontrivial :
    (∃ d e, Loses heads base p δ d e) ↔ (newContents heads base p).Nontrivial := by
  constructor
  · rintro ⟨d, e, hl⟩
    have hc : contentOf e ∈ newContents heads base p := mem_newContents.2 ⟨d, e, hl.1.1, rfl⟩
    obtain ⟨d₀, e₀, hw⟩ := exists_wins ⟨_, hc⟩ δ
    exact ⟨_, hc, _, mem_newContents.2 ⟨d₀, e₀, hw.1.1, rfl⟩,
      ((exists_loses_content_iff hw).1 ⟨d, e, hl, rfl⟩).2⟩
  · intro hnt
    obtain ⟨d₀, e₀, hw⟩ := exists_wins hnt.nonempty δ
    obtain ⟨c, hc, hne⟩ := hnt.exists_ne (contentOf e₀)
    obtain ⟨d, e, hl, -⟩ := (exists_loses_content_iff hw).2 ⟨hc, hne⟩
    exact ⟨d, e, hl⟩

/-! ### The table -/

/-- A path onto which no copy falls holds what its own decision keeps. -/
lemma fold_getElem?_of_not_copiedOnto (h : fold C K heads base = .ok out)
    (hp : ¬ CopiedOnto heads base p (digestOf C K)) :
    out.tree.entries[p]? = kept heads base p (digestOf C K) := by
  refine Option.ext fun e => (fold_tree h).trans (or_iff_left ?_)
  rintro ⟨-, q, d, hl, hq, -⟩
  exact hp ⟨q, d, e, hl, hq⟩

/-- What stays where nobody moved has the base's content. -/
lemma kept_content_of_unmoved (hnone : newContents heads base p = ∅)
    (hdel : ¬ Deleted heads base p) :
    (kept heads base p δ).map contentOf = (baseEntry base p).map contentOf := by
  cases hk : kept heads base p δ with
  | none =>
      obtain ⟨-, hdel' | habsent⟩ := vacant_iff.1 ((kept_eq_none_iff δ).1 hk)
      · exact absurd hdel' hdel
      · rw [habsent.1]
  | some e =>
      rcases kept_eq_some_iff.1 hk with ⟨d, hw⟩ | ⟨-, -, hun⟩
      · exact absurd hw.1.1 (newContents_eq_empty_iff.1 hnone d e)
      · rcases unchangedAt_eq_some hun with ⟨d, -, hc⟩ | hbase
        · obtain ⟨b, hb, hs⟩ := isChanged_some_iff.1 hc
          rw [hb, Option.map_some, Option.map_some, sameContent_iff_contentOf.1 hs]
        · rw [hbase]

/-- The notes of a path with a winner preserve the other contents. -/
lemma mem_map_loserContent_iff {d₀ : String} {e₀ : FileEntry} (hw : Wins heads base p δ d₀ e₀)
    {x : Option (Nat × List ChunkRef)} :
    x ∈ (notesAt heads base p δ).map (ConflictNote.loserContent heads) ↔
      ∃ c' ∈ newContents heads base p, c' ≠ contentOf e₀ ∧ x = some c' := by
  rw [map_loserContent_notesAt, List.mem_map]
  constructor
  · rintro ⟨r, hr, rfl⟩
    obtain ⟨hc, hne⟩ := (exists_loses_content_iff hw).1 ⟨_, _, (mem_copies.1 hr).1, rfl⟩
    exact ⟨_, hc, hne, rfl⟩
  · rintro ⟨c, hc, hne, rfl⟩
    obtain ⟨d, e, hl, rfl⟩ := (exists_loses_content_iff hw).2 ⟨hc, hne⟩
    exact ⟨⟨δ e, d, e⟩, mem_copies.2 ⟨hl, rfl⟩, rfl⟩

/-- **The three-way table.**  At a path onto which no conflict copy falls: nothing stands exactly
where nothing is brought and the path is deleted or was never there; where nothing is brought or
deleted the base's content stays; brought contents win over deletions, one of them keeps the path,
and each of the others has its one note. -/
theorem fold_three_way (h : fold C K heads base = .ok out)
    (hp : ¬ CopiedOnto heads base p (digestOf C K)) :
    (out.tree.entries[p]? = none ↔
      newContents heads base p = ∅ ∧ (Deleted heads base p ∨ Absent heads base p)) ∧
    (newContents heads base p = ∅ → ¬ Deleted heads base p →
      contentAt p out.tree = (baseEntry base p).map contentOf) ∧
    ((newContents heads base p).Nonempty →
      ∃ c ∈ newContents heads base p, contentAt p out.tree = some c ∧
        ∀ x, x ∈ (out.notesFor p).map (ConflictNote.loserContent heads) ↔
          ∃ c' ∈ newContents heads base p, c' ≠ c ∧ x = some c') ∧
    ((out.notesFor p).map (ConflictNote.loserContent heads)).Nodup ∧
    (out.notesFor p ≠ [] ↔ (newContents heads base p).Nontrivial) := by
  have htree := fold_getElem?_of_not_copiedOnto h hp
  rw [notesFor_eq h]
  refine ⟨?_, fun hnone hdel => ?_, fun hne => ?_, ?_, ?_⟩
  · rw [htree, kept_eq_none_iff, vacant_iff]
  · rw [contentAt, htree]
    exact kept_content_of_unmoved hnone hdel
  · obtain ⟨d, e, hw⟩ := exists_wins hne (digestOf C K)
    refine ⟨contentOf e, mem_newContents.2 ⟨d, e, hw.1.1, rfl⟩, ?_, fun x =>
      mem_map_loserContent_iff hw⟩
    rw [contentAt, htree, kept_eq_some_iff.2 (Or.inl ⟨d, hw⟩), Option.map_some]
  · rw [map_loserContent_notesAt]
    exact copies_contents_nodup
  · rw [notesAt_ne_nil_iff, exists_loses_iff_nontrivial]

end

/-- `f` is deleted on one device and edited, differently, on two others. -/
def deletedAndEdited : Heads :=
  (∅ : Heads).insertMany
    [("dev-a", treeOf []), ("dev-b", treeOf [("f", fileThree)]),
      ("dev-c", treeOf [("f", fileFour)])]

/-- What the fold gives, and what the two edits bring. -/
lemma deletedAndEdited_observed :
    (fold SecondConflict.crypto SecondConflict.codec deletedAndEdited
        (some (treeOf [("f", fileOne)]))).toOption.map FoldOutcome.tree =
      some (treeOf [("f", fileThree), ("f.conflict-dev-c", fileFour)]) ∧
    ∀ x ∈ [("dev-b", fileThree), ("dev-c", fileFour)],
      deletedAndEdited[x.1]? = some (treeOf [("f", x.2)]) ∧
      contentAt "f" (treeOf [("f", x.2)]) = some (contentOf x.2) ∧
      (baseEntry (some (treeOf [("f", fileOne)])) "f").map contentOf ≠ some (contentOf x.2) := by
  decide +kernel

/-- The deletion yields, one edit keeps `f`, and the other gets a note. -/
theorem fold_three_way_example :
    ∃ out, fold SecondConflict.crypto SecondConflict.codec deletedAndEdited
        (some (treeOf [("f", fileOne)])) = .ok out ∧
      out.tree.entries["f"]? ≠ none ∧ out.notesFor "f" ≠ [] := by
  obtain ⟨htree, hnew⟩ := deletedAndEdited_observed
  obtain ⟨out, h, -⟩ := exists_fold_of_tree htree
  have hthree : contentOf fileThree ∈
      newContents deletedAndEdited (some (treeOf [("f", fileOne)])) "f" :=
    ⟨"dev-b", treeOf [("f", fileThree)], hnew ("dev-b", fileThree) (by simp)⟩
  have hfour : contentOf fileFour ∈
      newContents deletedAndEdited (some (treeOf [("f", fileOne)])) "f" :=
    ⟨"dev-c", treeOf [("f", fileFour)], hnew ("dev-c", fileFour) (by simp)⟩
  obtain ⟨hnone, -, -, -, hnotes⟩ :=
    fold_three_way (p := "f") h fun ⟨q, d, _, _, hq⟩ => f_ne_conflictPath q d hq
  refine ⟨out, h, fun hgone => ?_, hnotes.2 ⟨_, hthree, _, hfour, by decide⟩⟩
  rw [(hnone.1 hgone).1] at hthree
  exact hthree

end Ciss
