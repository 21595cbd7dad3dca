import Ciss.Sync.Verdict
import Ciss.Sync.FoldContent

/-!
# Folding again

After a device folds and republishes, its head *is* the folded tree, and the next device folds
that tree together with the heads that stayed behind.  Convergence in two rounds needs the
second fold to give the same tree.

At an ordinary path it does: the republished head now holds the winning entry, which leaves the
winner, the leaders of the other contents and the unchanged entries as they were.  At a conflict
name the republished head is the only one with an entry, so that entry stays.  The one exception
is a losing content that the republishing device led and that another device holds as well: the
other device leads it now, so the second fold copies it once more, under the other device's
name (or, when the other device's metadata gives a smaller digest, lets it win).
`refold_stable_iff` says that nothing else goes wrong.
-/

namespace Ciss

/-- No path of a head or of the base has the form `<path>.conflict-<device>`. -/
def NoConflictNames (heads : Heads) (base : Option FsManifest) : Prop :=
  ∀ q ∈ foldPaths heads base, ∀ p d, q ≠ conflictPath p d

/-- At some path, device `a` is the first to bring a content that loses there, and another
device brings the same content. -/
def LeadsSharedLoser (heads : Heads) (base : Option FsManifest) (δ : FileEntry → String)
    (a : String) : Prop :=
  ∃ p e, Loses heads base p δ a e ∧
    ∃ d e', d ≠ a ∧ Brings heads base p d e' ∧ sameContent e' e = true

/-! ### Conflict names -/

lemma conflict_infix_unique {x d d' : List Char}
    (h : ".conflict-".toList ++ d = x ++ (".conflict-".toList ++ d')) :
    x = [] ∨ ∃ y, x = ".conflict-".toList ++ y := by
  rcases List.append_eq_append_iff.mp h with ⟨y, rfl, -⟩ | ⟨z, hx, hz⟩
  · exact Or.inr ⟨y, rfl⟩
  · rcases x with _ | ⟨c, x⟩
    · exact Or.inl rfl
    · rcases z with _ | ⟨c', z⟩
      · exact Or.inr ⟨[], by rw [hx, List.append_nil]; simp⟩
      · -- the second occurrence would begin inside the first, which has one dot only
        have hc' : c' = '.' := (List.cons.inj hz).1.symm
        have htail : "conflict-".toList = x ++ c' :: z := (List.cons.inj hx).2
        have : '.' ∈ "conflict-".toList := by
          rw [htail, hc']
          simp
        exact absurd this (by decide)

/-- Two ordinary paths never share a conflict name. -/
lemma conflictPath_inj_of_ordinary {p p' d d' : String} (hp : ∀ r s, p ≠ conflictPath r s)
    (hp' : ∀ r s, p' ≠ conflictPath r s) (h : conflictPath p d = conflictPath p' d') :
    p = p' ∧ d = d' := by
  have key : ∀ {p p' d d' : String}, (∀ r s, p' ≠ conflictPath r s) →
      ∀ {x : List Char}, p'.toList = p.toList ++ x →
        ".conflict-".toList ++ d.toList = x ++ (".conflict-".toList ++ d'.toList) → p = p' := by
    intro p p' d d' hp' x hx hd
    rcases conflict_infix_unique hd with rfl | ⟨y, rfl⟩
    · rw [List.append_nil] at hx
      exact (String.toList_inj.mp hx).symm
    · refine absurd ?_ (hp' p (String.ofList y))
      rw [← String.toList_inj, conflictPath_eq, hx]
      simp
  have hlist : p.toList ++ (".conflict-".toList ++ d.toList) =
      p'.toList ++ (".conflict-".toList ++ d'.toList) := by
    have := congrArg String.toList h
    simpa [conflictPath_eq] using this
  have hpp : p = p' := by
    rcases List.append_eq_append_iff.mp hlist with ⟨x, hx, hd⟩ | ⟨x, hx, hd⟩
    · exact key hp' hx hd
    · exact (key hp hx hd).symm
  subst hpp
  exact ⟨rfl, conflictPath_inj.mp h⟩

/-! ### The decisions after the replacement -/

section

variable {C : Crypto} {K : Codec} {heads : Heads} {base : Option FsManifest} {t : FsManifest}
  {p q a d d' : String} {δ : FileEntry → String} {e e' w : FileEntry} {out : FoldOutcome}

lemma Wins.unique (h : Wins heads base p δ d e) (h' : Wins heads base p δ d' e') :
    d = d' ∧ e = e' := by
  have hd : d = d' := Standing.device_eq_of_le_of_le (h.2 d' e' h'.1) (h'.2 d e h.1)
  subst hd
  exact ⟨rfl, h.1.1.entry_eq h'.1.1⟩

lemma Wins.not_loses (h : Wins heads base p δ d e) (h' : Loses heads base p δ d' e')
    (hs : sameContent e e' = true) : False := by
  obtain ⟨rfl, rfl⟩ := h.1.eq_of_sameContent h'.1 hs
  obtain ⟨d₁, e₁, hl, hnle⟩ := h'.2
  exact hnle (h.2 d₁ e₁ hl)

lemma brings_insert_of_ne (hd : d ≠ a) :
    Brings (heads.insert a t) base p d e ↔ Brings heads base p d e := by
  simp only [Brings, Std.ExtTreeMap.getElem?_insert, compare_eq_iff_eq, hd.symm, if_false]

lemma brings_insert_self :
    Brings (heads.insert a t) base p a e ↔
      t.entries[p]? = some e ∧ isChanged (baseEntry base p) (some e) = true := by
  simp [Brings]

/-- Where the replaced head holds the winning entry, another device leads a content only if it
led it before. -/
lemma Leads.of_insert (hshared : ¬ LeadsSharedLoser heads base δ a)
    (hw : Wins heads base p δ d' w) (ht : t.entries[p]? = some w) (hd : d ≠ a)
    (hl : Leads (heads.insert a t) base p d e) : Leads heads base p d e := by
  have hb : Brings heads base p d e := (brings_insert_of_ne hd).mp hl.1
  have hbw : Brings (heads.insert a t) base p a w := brings_insert_self.mpr ⟨ht, hw.1.1.2⟩
  refine ⟨hb, fun d₂ e₂ hb₂ hs₂ => ?_⟩
  by_cases hda : d₂ = a
  · subst hda
    obtain ⟨d₁, e₁, hl₁, hs₁⟩ := hb.exists_leads
    by_cases hd₁ : d₁ = d₂
    · subst hd₁
      rcases hl₁.wins_or_loses δ with hw₁ | hlose
      · obtain ⟨-, rfl⟩ := hw₁.unique hw
        exact hl.2 _ _ hbw hs₁
      · exact absurd ⟨p, e₁, hlose, d, e, hd, hb, sameContent_comm e₁ e ▸ hs₁⟩ hshared
    · have hle : d₁ ≤ d₂ := hl₁.2 _ _ hb₂ (sameContent_trans hs₂ (sameContent_comm e₁ e ▸ hs₁))
      exact (hl.2 _ _ ((brings_insert_of_ne hd₁).mpr hl₁.1) hs₁).trans hle
  · exact hl.2 _ _ ((brings_insert_of_ne hda).mpr hb₂) hs₂

/-- The winning entry wins again, now perhaps through the republished head. -/
lemma Wins.insert (hshared : ¬ LeadsSharedLoser heads base δ a)
    (hw : Wins heads base p δ d w) (ht : t.entries[p]? = some w) :
    ∃ d', Wins (heads.insert a t) base p δ d' w := by
  have hbw : Brings (heads.insert a t) base p a w := brings_insert_self.mpr ⟨ht, hw.1.1.2⟩
  refine ⟨min d a, ⟨?_, ?_⟩, ?_⟩
  · rcases min_choice d a with hm | hm
    · rw [hm]
      by_cases hda : d = a
      · exact hda ▸ hbw
      · exact (brings_insert_of_ne hda).mpr hw.1.1
    · rw [hm]
      exact hbw
  · intro d₂ e₂ hb₂ hs₂
    by_cases hda : d₂ = a
    · rw [hda]
      exact min_le_right d a
    · exact (min_le_left d a).trans (hw.1.2 _ _ ((brings_insert_of_ne hda).mp hb₂) hs₂)
  · intro d₂ e₂ hl₂
    by_cases hda : d₂ = a
    · subst hda
      rw [hl₂.1.entry_eq hbw]
      exact Or.inr ⟨rfl, min_le_right d d₂⟩
    · rcases hw.2 _ _ (hl₂.of_insert hshared hw ht hda) with hlt | ⟨heq, hle⟩
      · exact Or.inl hlt
      · exact Or.inr ⟨heq, (min_le_left d a).trans hle⟩

end

section

variable {C : Crypto} {K : Codec} {heads : Heads} {base : Option FsManifest}
  {p q a d : String} {δ : FileEntry → String} {e : FileEntry} {out : FoldOutcome}

/-- No copy lands on an ordinary path, so its own decision stands. -/
lemma fold_ordinary (h : fold C K heads base = .ok out) (hfree : NoConflictNames heads base)
    (hq : q ∈ foldPaths heads base) :
    out.tree.entries[q]? = kept heads base q (digestOf C K) := by
  cases hk : kept heads base q (digestOf C K) with
  | some e => exact (fold_tree h).mpr (Or.inl hk)
  | none =>
      exact (fold_getElem?_eq_none_iff h).mpr ⟨hk, fun p d e _ => hfree q hq p d⟩

/-- At a conflict name only the republished head has an entry. -/
lemma brings_insert_of_not_mem (hq : q ∉ foldPaths heads base) :
    Brings (heads.insert a out.tree) base q d e ↔ d = a ∧ out.tree.entries[q]? = some e := by
  rw [mem_foldPaths, not_or] at hq
  have hbase : baseEntry base q = none := by simpa using hq.2
  by_cases hd : d = a
  · subst hd
    rw [brings_insert_self, hbase]
    simp [isChanged]
  · rw [brings_insert_of_ne hd]
    refine iff_of_false ?_ (fun h => hd h.1)
    rintro ⟨⟨t, ht, he⟩, -⟩
    refine hq.1 ⟨d, t, ht, ?_⟩
    rw [Std.ExtTreeMap.mem_iff_isSome_getElem?, he]
    rfl

/-- What nobody changed stays the same entry: the republished head retains it, too. -/
lemma unchangedAt_insert (ha : a ∈ heads) (ht : out.tree.entries[p]? = some e)
    (hun : ∀ (d : String) (t : FsManifest), heads[d]? = some t →
      isChanged (baseEntry base p) t.entries[p]? = false)
    (hu : unchangedAt heads base p = some e) :
    unchangedAt (heads.insert a out.tree) base p = some e := by
  obtain ⟨ta, hta⟩ := Option.isSome_iff_exists.mp (Std.ExtTreeMap.mem_iff_isSome_getElem?.mp ha)
  have hbase : (baseEntry base p).isSome = true := by rw [← unchangedAt_isSome, hu]; rfl
  obtain ⟨b, hb⟩ := Option.isSome_iff_exists.mp hbase
  have hretains : ∃ ea, RetainsBase heads base p a ea := by
    have hc := hun a ta hta
    cases hea : ta.entries[p]? with
    | none => simp [hea, hb, isChanged] at hc
    | some ea => exact ⟨ea, ⟨ta, hta, hea⟩, hea ▸ hc⟩
  obtain ⟨ea, hretains⟩ := hretains
  have hself : ∀ e', RetainsBase (heads.insert a out.tree) base p a e' ↔
      out.tree.entries[p]? = some e' ∧ isChanged (baseEntry base p) (some e') = false := by
    simp [RetainsBase]
  have hne : ∀ d e', d ≠ a →
      (RetainsBase (heads.insert a out.tree) base p d e' ↔ RetainsBase heads base p d e') := by
    intro d e' hd
    simp only [RetainsBase, Std.ExtTreeMap.getElem?_insert, compare_eq_iff_eq, hd.symm, if_false]
  rcases unchangedAt_eq_some_iff.mp hu with ⟨d, hr, hmax⟩ | ⟨hnone, -⟩
  · refine unchangedAt_eq_some_iff.mpr (Or.inl ⟨d, ?_, ?_⟩)
    · by_cases hd : d = a
      · rw [hd, hself]
        exact ⟨ht, hr.2⟩
      · exact (hne d e hd).mpr hr
    · intro d' e' hr'
      by_cases hd' : d' = a
      · rw [hd']
        exact hmax a ea hretains
      · exact hmax d' e' ((hne d' e' hd').mp hr')
  · exact absurd hretains (hnone a ea)

/-- **Every decision of the second fold is for the published tree.** -/
lemma kept_insert (h : fold C K heads base = .ok out) (ha : a ∈ heads)
    (hfree : NoConflictNames heads base)
    (hshared : ¬ LeadsSharedLoser heads base (digestOf C K) a) (q : String) :
    kept (heads.insert a out.tree) base q (digestOf C K) = out.tree.entries[q]? := by
  by_cases hq : q ∈ foldPaths heads base
  · have hord := fold_ordinary h hfree hq
    cases ht : out.tree.entries[q]? with
    | none =>
        have hv : Vacant heads base q := (kept_eq_none_iff _).mp (hord ▸ ht)
        refine (kept_eq_none_iff _).mpr ⟨?_, Or.inr ⟨a, out.tree, by simp, ht⟩⟩
        intro d e hb
        by_cases hd : d = a
        · subst hd
          have := (brings_insert_self.mp hb).1
          rw [ht] at this
          simp at this
        · exact hv.1 d e ((brings_insert_of_ne hd).mp hb)
    | some e =>
        rw [ht] at hord
        rcases kept_eq_some_iff.mp hord.symm with ⟨d, hw⟩ | ⟨hb, hdel, hu⟩
        · obtain ⟨d', hw'⟩ := hw.insert hshared ht
          exact kept_eq_some_iff.mpr (Or.inl ⟨d', hw'⟩)
        · have hun := forall_unchanged_iff.mpr ⟨hb, hdel⟩
          have hce : isChanged (baseEntry base q) (some e) = false := by
            rcases unchangedAt_eq_some hu with ⟨_, -, hc⟩ | hbe
            · exact hc
            · exact isChanged_some_iff.mpr ⟨e, hbe, sameContent_refl e⟩
          have hun' : ∀ (d : String) (t : FsManifest), (heads.insert a out.tree)[d]? = some t →
              isChanged (baseEntry base q) t.entries[q]? = false := by
            intro d t hdt
            by_cases hd : d = a
            · subst hd
              simp only [Std.ExtTreeMap.getElem?_insert_self, Option.some.injEq] at hdt
              rw [← hdt, ht]
              exact hce
            · simp only [Std.ExtTreeMap.getElem?_insert, compare_eq_iff_eq, Ne.symm hd,
                if_false] at hdt
              exact hun d t hdt
          obtain ⟨hb', hdel'⟩ := forall_unchanged_iff.mp hun'
          exact kept_eq_some_iff.mpr
            (Or.inr ⟨hb', hdel', unchangedAt_insert ha ht hun hu⟩)
  · have hbase : baseEntry base q = none := by
      rw [mem_foldPaths, not_or] at hq
      simpa using hq.2
    cases ht : out.tree.entries[q]? with
    | none =>
        refine (kept_eq_none_iff _).mpr ⟨?_, Or.inl hbase⟩
        intro d e hb
        have := ((brings_insert_of_not_mem hq).mp hb).2
        rw [ht] at this
        simp at this
    | some e =>
        refine kept_eq_some_iff.mpr (Or.inl ⟨a, ⟨?_, ?_⟩, ?_⟩)
        · exact (brings_insert_of_not_mem hq).mpr ⟨rfl, ht⟩
        · intro d' e' hb' _
          exact ((brings_insert_of_not_mem hq).mp hb').1.ge
        · intro d' e' hl'
          obtain ⟨rfl, he'⟩ := (brings_insert_of_not_mem hq).mp hl'.1
          rw [ht] at he'
          rw [Option.some.inj he']
          exact Or.inr ⟨rfl, le_refl _⟩

/-- A content that loses in the second fold lost in the first, under the same device. -/
lemma Loses.of_insert (h : fold C K heads base = .ok out) (hfree : NoConflictNames heads base)
    (hshared : ¬ LeadsSharedLoser heads base (digestOf C K) a)
    (hl : Loses (heads.insert a out.tree) base p (digestOf C K) d e) :
    Loses heads base p (digestOf C K) d e := by
  by_cases hp : p ∈ foldPaths heads base
  · have hord := fold_ordinary h hfree hp
    cases ht : out.tree.entries[p]? with
    | none =>
        -- nobody brings a content to a vacant path, and the published tree has none to bring
        have hv : Vacant heads base p := (kept_eq_none_iff _).mp (hord ▸ ht)
        by_cases hd : d = a
        · subst hd
          have := (brings_insert_self.mp hl.1.1).1
          rw [ht] at this
          simp at this
        · exact absurd ((brings_insert_of_ne hd).mp hl.1.1) (hv.1 d e)
    | some w =>
        rw [ht] at hord
        rcases kept_eq_some_iff.mp hord.symm with ⟨dw, hw⟩ | ⟨hb, -, hu⟩
        · obtain ⟨dw', hw'⟩ := hw.insert hshared ht
          have hd : d ≠ a := by
            rintro rfl
            have hwe := (brings_insert_self.mp hl.1.1).1
            rw [ht] at hwe
            exact hw'.not_loses hl (by rw [Option.some.inj hwe]; exact sameContent_refl e)
          rcases (hl.1.of_insert hshared hw ht hd).wins_or_loses (digestOf C K) with hwin | hlose
          · obtain ⟨-, rfl⟩ := hwin.unique hw
            exact absurd (hw'.not_loses hl (sameContent_refl e)) id
          · exact hlose
        · -- what nobody changed is not a content of the published tree either
          by_cases hd : d = a
          · subst hd
            obtain ⟨hwe, hc⟩ := brings_insert_self.mp hl.1.1
            rw [ht] at hwe
            rw [← Option.some.inj hwe] at hc
            rcases unchangedAt_eq_some hu with ⟨_, -, hc'⟩ | hbe
            · rw [hc] at hc'
              simp at hc'
            · rw [isChanged_some_iff.mpr ⟨w, hbe, sameContent_refl w⟩] at hc
              simp at hc
          · exact absurd ((brings_insert_of_ne hd).mp hl.1.1) (hb d e)
  · obtain ⟨hlead, d', e', hlead', hnle⟩ := hl
    obtain ⟨rfl, he⟩ := (brings_insert_of_not_mem hp).mp hlead.1
    obtain ⟨rfl, he'⟩ := (brings_insert_of_not_mem hp).mp hlead'.1
    rw [he] at he'
    refine absurd ?_ hnle
    rw [Option.some.inj he']
    exact Or.inr ⟨rfl, le_refl _⟩

end

section

variable {C : Crypto} {K : Codec} {heads : Heads} {base : Option FsManifest} {a : String}
  {out out' : FoldOutcome}

/-- Without a shared loser the second fold succeeds. -/
lemma exists_refold (h : fold C K heads base = .ok out) (ha : a ∈ heads)
    (hfree : NoConflictNames heads base)
    (hshared : ¬ LeadsSharedLoser heads base (digestOf C K) a) :
    ∃ out', fold C K (heads.insert a out.tree) base = .ok out' := by
  have hdig := (exists_fold_iff (digestOf C K)).mp ⟨out, h⟩
  refine (exists_fold_iff (digestOf C K)).mpr ?_
  rintro p ⟨d₁, e₁, hl₁⟩ d e hlead
  have hl := hl₁.of_insert h hfree hshared
  rcases hlead.wins_or_loses (digestOf C K) with hw | hlose
  · -- the winner is the entry published at the path, which the first fold has ranked
    have hk : kept (heads.insert a out.tree) base p (digestOf C K) = some e :=
      kept_eq_some_iff.mpr (Or.inl ⟨d, hw⟩)
    rw [kept_insert h ha hfree hshared, fold_ordinary h hfree hl.1.1.mem_foldPaths] at hk
    rcases kept_eq_some_iff.mp hk with ⟨d', hw'⟩ | ⟨hb, -⟩
    · exact hdig p ⟨d₁, e₁, hl⟩ d' e hw'.1
    · exact absurd hl.1.1 (hb d₁ e₁)
  · exact hdig p ⟨d₁, e₁, hl⟩ d e (hlose.of_insert h hfree hshared).1

lemma refold_tree (h : fold C K heads base = .ok out) (ha : a ∈ heads)
    (hfree : NoConflictNames heads base)
    (hshared : ¬ LeadsSharedLoser heads base (digestOf C K) a)
    (h' : fold C K (heads.insert a out.tree) base = .ok out') : out'.tree = out.tree := by
  have hentries : out'.tree.entries = out.tree.entries := by
    apply Std.ExtTreeMap.ext_getElem?
    intro q
    cases ht : out.tree.entries[q]? with
    | some e =>
        refine (fold_tree h').mpr (Or.inl ?_)
        rw [kept_insert h ha hfree hshared, ht]
    | none =>
        refine (fold_getElem?_eq_none_iff h').mpr ⟨?_, ?_⟩
        · rw [kept_insert h ha hfree hshared, ht]
        · intro p d e hl
          exact ((fold_getElem?_eq_none_iff h).mp ht).2 p d e (hl.of_insert h hfree hshared)
  have hkind : out'.tree.kind = out.tree.kind := by rw [fold_kind h', fold_kind h]
  cases hx : out'.tree
  cases hy : out.tree
  rw [hx, hy] at hentries hkind
  simp_all

/-- A shared loser that the republishing device led surfaces under another device's name. -/
lemma refold_ne_of_shared (h : fold C K heads base = .ok out)
    (hfree : NoConflictNames heads base)
    (hshared : LeadsSharedLoser heads base (digestOf C K) a)
    (h' : fold C K (heads.insert a out.tree) base = .ok out') : out'.tree ≠ out.tree := by
  intro heq
  obtain ⟨p, e, hl, d, e', hda, hb, hs⟩ := hshared
  have hp := hb.mem_foldPaths
  -- the published tree has the winner at the path, whose content is not the shared one
  have hwin : ∃ dw w, Wins heads base p (digestOf C K) dw w ∧ out.tree.entries[p]? = some w := by
    cases hk : kept heads base p (digestOf C K) with
    | none => exact absurd hb (((kept_eq_none_iff _).mp hk).1 d e')
    | some w =>
        rcases kept_eq_some_iff.mp hk with ⟨dw, hw⟩ | ⟨hnb, -⟩
        · exact ⟨dw, w, hw, (fold_ordinary h hfree hp).trans hk⟩
        · exact absurd hb (hnb d e')
  obtain ⟨dw, w, hw, ht⟩ := hwin
  have hne : ∀ x, sameContent x e' = true → x ≠ w := by
    rintro x hx rfl
    exact hw.not_loses hl (sameContent_trans hx hs)
  have hb' : Brings (heads.insert a out.tree) base p d e' := (brings_insert_of_ne hda).mpr hb
  obtain ⟨m, e₀, hlead, hs₀⟩ := hb'.exists_leads
  have hma : m ≠ a := by
    rintro rfl
    have := (brings_insert_self.mp hlead.1).1
    rw [ht] at this
    exact hne e₀ hs₀ (Option.some.inj this).symm
  have hbm : Brings heads base p m e₀ := (brings_insert_of_ne hma).mp hlead.1
  rcases hlead.wins_or_loses (digestOf C K) with hw' | hl'
  · have : out'.tree.entries[p]? = some e₀ :=
      (fold_tree h').mpr (Or.inl (kept_eq_some_iff.mpr (Or.inl ⟨m, hw'⟩)))
    rw [heq, ht] at this
    exact hne e₀ hs₀ (Option.some.inj this).symm
  · -- the copy at `m`'s name must have been in the published tree, but `m` led nothing before
    cases hx : out.tree.entries[conflictPath p m]? with
    | none =>
        rw [← heq] at hx
        exact ((fold_getElem?_eq_none_iff h').mp hx).2 p m e₀ hl' rfl
    | some x =>
        rcases (fold_tree h).mp hx with hk | ⟨-, p', d', hl₁, hq, -⟩
        · exact hfree _ (mem_foldPaths_of_kept hk) p m rfl
        · obtain ⟨rfl, rfl⟩ := conflictPath_inj_of_ordinary (hfree p hp)
            (hfree p' hl₁.1.1.mem_foldPaths) hq
          rw [hl₁.1.1.entry_eq hbm] at hl₁
          exact hma (hl₁.1.eq_of_sameContent hl.1 (sameContent_trans hs₀ hs)).1

/-- **Re-fold stability.**  When no path of the heads or the base has the form of a conflict
name, folding again after device `a` republished the folded tree gives the same tree exactly
when `a` is not the first to bring a losing content that another device brings as well. -/
theorem refold_stable_iff (h : fold C K heads base = .ok out) (ha : a ∈ heads)
    (hfree : NoConflictNames heads base) :
    (∃ out', fold C K (heads.insert a out.tree) base = .ok out' ∧ out'.tree = out.tree) ↔
      ¬ LeadsSharedLoser heads base (digestOf C K) a := by
  constructor
  · rintro ⟨out', h', heq⟩ hshared
    exact refold_ne_of_shared h hfree hshared h' heq
  · intro hshared
    obtain ⟨out', h'⟩ := exists_refold h ha hfree hshared
    exact ⟨out', h', refold_tree h ha hfree hshared h'⟩

end

/-! ### Three devices, two contents

`dev-a` and `dev-c` add the same file, `dev-b` another one with the smaller digest. -/

namespace SharedLoser

def heads : Heads :=
  (∅ : Heads).insertMany
    [("dev-a", treeOf [("f", fileFour)]), ("dev-b", treeOf [("f", fileThree)]),
      ("dev-c", treeOf [("f", fileFour)])]

/-- What the first fold publishes. -/
def published : FsManifest := treeOf [("f", fileThree), ("f.conflict-dev-a", fileFour)]

/-- What the second fold gives. -/
def refolded : FsManifest :=
  treeOf [("f", fileThree), ("f.conflict-dev-a", fileFour), ("f.conflict-dev-c", fileFour)]

/-- What the two folds are seen to give. -/
lemma observed :
    ("dev-a" ∈ heads ∧ foldPaths heads none = ["f"]) ∧
    (fold SecondConflict.crypto SecondConflict.codec heads none).toOption.map FoldOutcome.tree =
      some published ∧
    (fold SecondConflict.crypto SecondConflict.codec (heads.insert "dev-a" published)
      none).toOption.map FoldOutcome.tree = some refolded ∧
    refolded ≠ published := by
  decide +kernel

lemma noConflictNames : NoConflictNames heads none := by
  obtain ⟨⟨-, hpaths⟩, -⟩ := observed
  intro q hq p d h
  rw [hpaths, List.mem_singleton] at hq
  exact f_ne_conflictPath p d (hq.symm.trans h)

lemma first_fold :
    ∃ out, fold SecondConflict.crypto SecondConflict.codec heads none = .ok out ∧
      out.tree = published :=
  exists_fold_of_tree observed.2.1

lemma second_fold :
    ¬ ∃ out', fold SecondConflict.crypto SecondConflict.codec (heads.insert "dev-a" published)
      none = .ok out' ∧ out'.tree = published := by
  obtain ⟨-, -, hrefolded, hne⟩ := observed
  obtain ⟨out, h, htree⟩ := exists_fold_of_tree hrefolded
  rintro ⟨out', h', htree'⟩
  rw [h] at h'
  rw [← Except.ok.inj h', htree] at htree'
  exact hne htree'

end SharedLoser

/-- With three devices and a content shared by two of them, the first of the two leads a shared
loser. -/
theorem refold_stable_iff_example :
    ∃ out, fold SecondConflict.crypto SecondConflict.codec SharedLoser.heads none = .ok out ∧
      "dev-a" ∈ SharedLoser.heads ∧ NoConflictNames SharedLoser.heads none ∧
      LeadsSharedLoser SharedLoser.heads none
        (digestOf SecondConflict.crypto SecondConflict.codec) "dev-a" := by
  obtain ⟨out, h, htree⟩ := SharedLoser.first_fold
  refine ⟨out, h, SharedLoser.observed.1.1, SharedLoser.noConflictNames, ?_⟩
  by_contra hshared
  have hstable :=
    (refold_stable_iff h SharedLoser.observed.1.1 SharedLoser.noConflictNames).mpr hshared
  rw [htree] at hstable
  exact SharedLoser.second_fold hstable

/-- Once `dev-a` has published the fold, folding again copies the shared content a second time,
to `f.conflict-dev-c`. -/
theorem refold_copies_shared_loser_again :
    ∃ out, fold SecondConflict.crypto SecondConflict.codec SharedLoser.heads none = .ok out ∧
      "dev-a" ∈ SharedLoser.heads ∧ NoConflictNames SharedLoser.heads none ∧
      ¬ ∃ out', fold SecondConflict.crypto SecondConflict.codec
        (SharedLoser.heads.insert "dev-a" out.tree) none = .ok out' ∧ out'.tree = out.tree := by
  obtain ⟨out, h, htree⟩ := SharedLoser.first_fold
  refine ⟨out, h, SharedLoser.observed.1.1, SharedLoser.noConflictNames, ?_⟩
  rw [htree]
  exact SharedLoser.second_fold

end Ciss
