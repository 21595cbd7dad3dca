import Ciss.Sync.Fold

/-!
# What the fold decides

The decisions of the fold as relations on the heads and the base: which device `Brings` a
content to a path, which one `Leads` a content (brings it first, in device order), which content
`Wins` the path and which one `Loses` it, and when the path is `Vacant`.

`fold_tree` says that the folded tree is exactly the outcome of these decisions, written in path
order into one namespace, and `exists_fold_iff` when the fold returns a tree at all.  Everything
proved about the fold uses these two and the relations, not the loops.
-/

namespace Ciss

/-! ## The writes in order -/

section

variable {C : Crypto} {K : Codec} {heads : Heads} {base : Option FsManifest} {p q d : String}
  {out out' : FoldOutcome} {δ : FileEntry → String} {e : FileEntry}

lemma foldlM_foldPath_eq {paths : List String}
    (h : paths.foldlM (foldPath C K heads base) out = .ok out') :
    out' = ⟨⟨out.tree.kind, out.tree.entries.insertMany
        (paths.flatMap fun p => writesAt heads base p (digestOf C K))⟩,
      out.conflicts ++ paths.flatMap fun p => notesAt heads base p (digestOf C K)⟩ := by
  induction paths generalizing out with
  | nil =>
      obtain rfl := Except.ok.inj h
      simp
  | cons p paths ih =>
      rw [List.foldlM_cons] at h
      cases hp : foldPath C K heads base out p with
      | error e =>
          rw [hp] at h
          simp [bind, Except.bind] at h
      | ok mid =>
          rw [hp] at h
          rw [ih h, foldPath_eq hp]
          simp [Std.ExtTreeMap.insertMany_list_eq_foldl]

lemma foldPaths_sorted : (foldPaths heads base).Pairwise (· < ·) := by
  have h := fun s : Std.ExtTreeSet String compare => s.ordered_toList
  simpa only [foldPaths, compare_lt_iff_lt] using h _

/-- The folded tree holds, at every path, the last of the writes to it. -/
lemma fold_getElem? (h : fold C K heads base = .ok out) :
    out.tree.entries[q]? =
      lastWrite q ((foldPaths heads base).flatMap fun p => writesAt heads base p (digestOf C K)) := by
  rw [foldlM_foldPath_eq h]
  simp [FsManifest.new, lastWrite, Std.ExtTreeMap.getElem?_insertMany_list]

lemma fold_kind (h : fold C K heads base = .ok out) : out.tree.kind = fsManifestKind := by
  rw [foldlM_foldPath_eq h]
  rfl

/-- The conflicts reported, path by path. -/
lemma fold_conflicts (h : fold C K heads base = .ok out) :
    out.conflicts = (foldPaths heads base).flatMap fun p => notesAt heads base p (digestOf C K) := by
  rw [foldlM_foldPath_eq h]
  rfl

lemma conflictPath_eq (p d : String) : conflictPath p d = p ++ (".conflict-" ++ d) := by
  simp [conflictPath]

/-- A conflict copy sorts behind the path it was copied from. -/
lemma lt_conflictPath (p d : String) : p < conflictPath p d := by
  rw [conflictPath_eq, String.lt_iff_toList_lt, String.toList_append, String.toList_append]
  have h : ([] : List Char) < ".conflict-".toList ++ d.toList := List.nil_lt_cons _ _
  have happ : p.toList ++ [] < p.toList ++ (".conflict-".toList ++ d.toList) :=
    List.append_left_lt h
  rwa [List.append_nil] at happ

lemma conflictPath_inj {p d d' : String} : conflictPath p d = conflictPath p d' ↔ d = d' := by
  rw [conflictPath_eq, conflictPath_eq, String.append_right_inj, String.append_right_inj]

end

/-! ## The decisions, in terms of the heads and the base -/

section

variable (heads : Heads) (base : Option FsManifest) (p : String)

/-- The head of device `d` has the content of `e` at the path, and it is not the base's. -/
def Brings (d : String) (e : FileEntry) : Prop :=
  (∃ t, heads[d]? = some t ∧ t.entries[p]? = some e) ∧
    isChanged (baseEntry base p) (some e) = true

/-- `d` is the first device, in device order, that brings this content. -/
def Leads (d : String) (e : FileEntry) : Prop :=
  Brings heads base p d e ∧
    ∀ d' e', Brings heads base p d' e' → sameContent e' e = true → d ≤ d'

/-- The head of device `d` has the base's content at the path, as the entry `e`. -/
def RetainsBase (d : String) (e : FileEntry) : Prop :=
  (∃ t, heads[d]? = some t ∧ t.entries[p]? = some e) ∧
    isChanged (baseEntry base p) (some e) = false

/-- Nothing is to be kept: no head brings a content there, and the base has nothing there or
some head deleted it. -/
def Vacant : Prop :=
  (∀ d e, ¬ Brings heads base p d e) ∧
    (baseEntry base p = none ∨ ∃ (d : String) (t : FsManifest), heads[d]? = some t ∧
      t.entries[p]? = none)

variable (δ : FileEntry → String)

/-- The content that keeps the path. -/
def Wins (d : String) (e : FileEntry) : Prop :=
  Leads heads base p d e ∧
    ∀ d' e', Leads heads base p d' e' → Standing.le ⟨δ e, d, e⟩ ⟨δ e', d', e'⟩

/-- A content that another one outranks. -/
def Loses (d : String) (e : FileEntry) : Prop :=
  Leads heads base p d e ∧
    ∃ d' e', Leads heads base p d' e' ∧ ¬ Standing.le ⟨δ e, d, e⟩ ⟨δ e', d', e'⟩

end

section

variable {heads : Heads} {base : Option FsManifest} {p q d d' : String}
  {δ : FileEntry → String} {e e' : FileEntry}

instance : Std.Total Standing.le where
  total a b := by
    rcases lt_trichotomy a.digest b.digest with h | h | h
    · exact Or.inl (Or.inl h)
    · rcases le_total a.device b.device with hd | hd
      · exact Or.inl (Or.inr ⟨h, hd⟩)
      · exact Or.inr (Or.inr ⟨h.symm, hd⟩)
    · exact Or.inr (Or.inl h)

instance : IsTrans Standing Standing.le where
  trans a b c := by
    rintro (hab | ⟨hab, hab'⟩) (hbc | ⟨hbc, hbc'⟩)
    · exact Or.inl (hab.trans hbc)
    · exact Or.inl (hbc ▸ hab)
    · exact Or.inl (hab ▸ hbc)
    · exact Or.inr ⟨hab.trans hbc, hab'.trans hbc'⟩

lemma Standing.device_eq_of_le_of_le {a b : Standing} (hab : a.le b) (hba : b.le a) :
    a.device = b.device := by
  rcases hab with hab | ⟨hab, hab'⟩
  · rcases hba with hba | ⟨hba, -⟩
    · exact absurd hab hba.not_gt
    · exact absurd hab (hba ▸ lt_irrefl _)
  · rcases hba with hba | ⟨-, hba'⟩
    · exact absurd hba (hab ▸ lt_irrefl _)
    · exact le_antisymm hab' hba'

lemma isEquiv_sameContent : IsEquiv fun x y : String × FileEntry => sameContent x.2 y.2 where
  refl x := sameContent_refl x.2
  symm h := by rwa [sameContent_comm]
  trans := sameContent_trans

lemma mem_holdings {o : Option FileEntry} :
    (d, o) ∈ holdings heads p ↔ ∃ t, heads[d]? = some t ∧ t.entries[p]? = o := by
  simp only [holdings, List.mem_map, Prod.exists, Prod.mk.injEq,
    Std.ExtTreeMap.mem_toList_iff_getElem?_eq_some]
  constructor
  · rintro ⟨_, t, ht, rfl, rfl⟩
    exact ⟨t, ht, rfl⟩
  · rintro ⟨t, ht, rfl⟩
    exact ⟨d, t, ht, rfl, rfl⟩

lemma holdings_sorted : (holdings heads p).Pairwise fun x y => x.1 < y.1 := by
  rw [holdings, List.pairwise_map]
  simpa only [compare_lt_iff_lt] using heads.ordered_keys_toList

lemma mem_broughtAt : (d, e) ∈ broughtAt heads base p ↔ Brings heads base p d e := by
  rw [Brings, ← mem_holdings]
  simp only [broughtAt, changedAt, List.mem_filterMap, List.mem_filter, Option.map_eq_some_iff,
    Prod.mk.injEq]
  constructor
  · rintro ⟨⟨d', o⟩, ⟨hx, hc⟩, e', he, rfl, rfl⟩
    dsimp only at he hx hc
    rw [he] at hx hc
    exact ⟨hx, hc⟩
  · rintro ⟨hx, hc⟩
    exact ⟨(d, some e), ⟨hx, hc⟩, e, rfl, rfl, rfl⟩

lemma broughtAt_sorted : (broughtAt heads base p).Pairwise fun x y => x.1 < y.1 := by
  rw [broughtAt, List.pairwise_filterMap]
  refine (holdings_sorted.filter _).imp ?_
  intro x y hxy b hb b' hb'
  obtain ⟨_, -, rfl⟩ := Option.map_eq_some_iff.mp hb
  obtain ⟨_, -, rfl⟩ := Option.map_eq_some_iff.mp hb'
  exact hxy

lemma mem_edits : (d, e) ∈ edits heads base p ↔ Leads heads base p d e := by
  rw [edits, mem_firsts_iff_of_sorted isEquiv_sameContent broughtAt_sorted, mem_broughtAt, Leads]
  simp only [Prod.forall, mem_broughtAt]

/-- Every content that is brought is led by some device. -/
lemma Brings.exists_leads (h : Brings heads base p d e) :
    ∃ d' e', Leads heads base p d' e' ∧ sameContent e' e = true := by
  obtain ⟨⟨d', e'⟩, hx, hs⟩ := exists_mem_firsts isEquiv_sameContent (mem_broughtAt.mpr h)
  exact ⟨d', e', mem_edits.mp hx, hs⟩

lemma Brings.entry_eq (h : Brings heads base p d e) (h' : Brings heads base p d e') : e = e' := by
  obtain ⟨⟨t, ht, he⟩, -⟩ := h
  obtain ⟨⟨t', ht', he'⟩, -⟩ := h'
  rw [ht] at ht'
  rw [← Option.some.inj ht', he] at he'
  exact Option.some.inj he'

/-- Two leaders with the same content are one. -/
lemma Leads.eq_of_sameContent (h : Leads heads base p d e) (h' : Leads heads base p d' e')
    (hs : sameContent e e' = true) : d = d' ∧ e = e' := by
  have hd : d = d' :=
    le_antisymm (h.2 d' e' h'.1 (sameContent_comm e' e ▸ hs)) (h'.2 d e h.1 hs)
  subst hd
  exact ⟨rfl, h.1.entry_eq h'.1⟩

lemma mem_standings {s : Standing} :
    s ∈ standings heads base p δ ↔ Leads heads base p s.device s.entry ∧ s.digest = δ s.entry := by
  rw [standings, List.mem_insertionSort, List.mem_map, Prod.exists]
  simp only [mem_edits]
  constructor
  · rintro ⟨d, e, h, rfl⟩
    exact ⟨h, rfl⟩
  · rintro ⟨h, hd⟩
    exact ⟨s.device, s.entry, h, by rw [← hd]⟩

lemma standings_sorted : (standings heads base p δ).Pairwise Standing.le :=
  List.pairwise_insertionSort _ _

lemma standings_devices : (standings heads base p δ).Pairwise fun s s' => s.device ≠ s'.device := by
  have h : (edits heads base p).Pairwise fun x y => x.1 ≠ y.1 :=
    (broughtAt_sorted.sublist firsts_sublist).imp fun h => h.ne
  have hmap : ((edits heads base p).map fun x => (⟨δ x.2, x.1, x.2⟩ : Standing)).Pairwise
      fun s s' => s.device ≠ s'.device := List.pairwise_map.mpr h
  exact ((List.perm_insertionSort _ _).pairwise_iff fun h => Ne.symm h).mpr hmap

end

section

variable {C : Crypto} {K : Codec} {heads : Heads} {base : Option FsManifest} {p q d d' : String}
  {δ : FileEntry → String} {e e' : FileEntry} {out : FoldOutcome}

lemma standings_eq_nil_iff :
    standings heads base p δ = [] ↔ ∀ d e, ¬ Brings heads base p d e := by
  constructor
  · intro h d e hb
    obtain ⟨d', e', hl, -⟩ := hb.exists_leads
    have : (⟨δ e', d', e'⟩ : Standing) ∈ standings heads base p δ := mem_standings.mpr ⟨hl, rfl⟩
    rw [h] at this
    simp at this
  · intro h
    rw [List.eq_nil_iff_forall_not_mem]
    intro s hs
    exact h _ _ (mem_standings.mp hs).1.1

/-- The first of the ranking is the winner, the others are the losers. -/
lemma standings_cons_spec {s : Standing} {l : List Standing}
    (h : standings heads base p δ = s :: l) :
    Wins heads base p δ s.device s.entry ∧
      ∀ r, r ∈ l ↔ Loses heads base p δ r.device r.entry ∧ r.digest = δ r.entry := by
  have hsorted : (s :: l).Pairwise Standing.le := h ▸ standings_sorted
  have hdev : (s :: l).Pairwise fun r r' => r.device ≠ r'.device := h ▸ standings_devices
  have hmem : ∀ r, r ∈ s :: l ↔ Leads heads base p r.device r.entry ∧ r.digest = δ r.entry :=
    fun r => h ▸ mem_standings
  obtain ⟨hle, -⟩ := List.pairwise_cons.mp hsorted
  obtain ⟨hne, -⟩ := List.pairwise_cons.mp hdev
  obtain ⟨hs, hsd⟩ := (hmem s).mp (by simp)
  have hs_le : ∀ r ∈ s :: l, s.le r := by
    intro r hr
    rcases List.mem_cons.mp hr with rfl | hr
    · exact Or.inr ⟨rfl, le_refl _⟩
    · exact hle r hr
  have hs_eq : (⟨δ s.entry, s.device, s.entry⟩ : Standing) = s := by rw [← hsd]
  refine ⟨⟨hs, fun d' e' hl => ?_⟩, fun r => ⟨fun hr => ?_, ?_⟩⟩
  · rw [hs_eq]
    exact hs_le _ ((hmem ⟨δ e', d', e'⟩).mpr ⟨hl, rfl⟩)
  · obtain ⟨hrl, hrd⟩ := (hmem r).mp (List.mem_cons_of_mem _ hr)
    refine ⟨⟨hrl, s.device, s.entry, hs, ?_⟩, hrd⟩
    have hr_eq : (⟨δ r.entry, r.device, r.entry⟩ : Standing) = r := by rw [← hrd]
    rw [hs_eq, hr_eq]
    intro hrs
    exact hne r hr (Standing.device_eq_of_le_of_le (hle r hr) hrs)
  · rintro ⟨⟨hrl, d', e', hl', hnle⟩, hrd⟩
    have hr := (hmem r).mpr ⟨hrl, hrd⟩
    rcases List.mem_cons.mp hr with rfl | hr
    · rw [hs_eq] at hnle
      exact absurd (hs_le _ ((hmem ⟨δ e', d', e'⟩).mpr ⟨hl', rfl⟩)) hnle
    · exact hr

lemma mem_copies {r : Standing} :
    r ∈ copies heads base p δ ↔ Loses heads base p δ r.device r.entry ∧ r.digest = δ r.entry := by
  rw [copies]
  cases h : standings heads base p δ with
  | nil =>
      simp only [List.tail_nil, List.not_mem_nil, false_iff]
      rintro ⟨⟨hl, -⟩, -⟩
      exact standings_eq_nil_iff.mp h _ _ hl.1
  | cons s l => exact (standings_cons_spec h).2 r

/-- What the decision leaves at the path: the winning content, or, when no content is brought
and nothing is deleted, what stood there. -/
lemma kept_eq_some_iff :
    kept heads base p δ = some e ↔
      (∃ d, Wins heads base p δ d e) ∨
        ((∀ d e, ¬ Brings heads base p d e) ∧ deletedAt heads base p = false ∧
          unchangedAt heads base p = some e) := by
  rw [kept]
  cases h : standings heads base p δ with
  | nil =>
      have hb := standings_eq_nil_iff.mp h
      have hw : ¬ ∃ d, Wins heads base p δ d e := by
        rintro ⟨d, hw⟩
        exact hb d e hw.1.1
      cases hdel : deletedAt heads base p with
      | false => simp [hw, hb]
      | true => simp [hw]
  | cons s l =>
      obtain ⟨hs, -⟩ := standings_cons_spec h
      have hb : ¬ ∀ d e, ¬ Brings heads base p d e := fun hb => hb _ _ hs.1.1
      simp only [Option.some.injEq, hb, false_and, or_false]
      constructor
      · rintro rfl
        exact ⟨s.device, hs⟩
      · rintro ⟨d, hw⟩
        have hd := Standing.device_eq_of_le_of_le (hs.2 d e hw.1) (hw.2 _ _ hs.1)
        dsimp only at hd
        rw [← hd] at hw
        exact hs.1.1.entry_eq hw.1.1

/-- A content either wins its path or loses it. -/
lemma Leads.wins_or_loses (h : Leads heads base p d e) (δ : FileEntry → String) :
    Wins heads base p δ d e ∨ Loses heads base p δ d e := by
  by_cases hw : ∀ d' e', Leads heads base p d' e' → Standing.le ⟨δ e, d, e⟩ ⟨δ e', d', e'⟩
  · exact Or.inl ⟨h, hw⟩
  · push Not at hw
    exact Or.inr ⟨h, hw⟩

end

section

variable {heads : Heads} {base : Option FsManifest} {p q d d' : String}
  {δ : FileEntry → String} {e e' : FileEntry}

/-- What stays where nobody changed anything: the entry of the last device that retains the
base's content, else the base's own. -/
lemma unchangedAt_eq_some_iff :
    unchangedAt heads base p = some e ↔
      (∃ d, RetainsBase heads base p d e ∧ ∀ d' e', RetainsBase heads base p d' e' → d' ≤ d) ∨
        (∀ d e, ¬ RetainsBase heads base p d e) ∧ baseEntry base p = some e := by
  have hf : ∀ x : String × Option FileEntry, x ∈ holdings heads p →
      ∀ e, (if isChanged (baseEntry base p) x.2 then none else x.2) = some e ↔
        RetainsBase heads base p x.1 e := by
    rintro ⟨d, o⟩ hx e
    obtain ⟨t, ht, rfl⟩ := mem_holdings.mp hx
    constructor
    · intro h
      split at h
      · simp at h
      · rename_i hc
        dsimp only at h hc
        rw [h] at hc
        exact ⟨⟨t, ht, h⟩, by simpa using hc⟩
    · rintro ⟨⟨t', ht', he⟩, hc⟩
      dsimp only at ht'
      rw [ht] at ht'
      obtain rfl := Option.some.inj ht'
      simp [he, hc]
  have hret : ∀ d e, RetainsBase heads base p d e → ∃ o, (d, o) ∈ holdings heads p := by
    rintro d e ⟨⟨t, ht, he⟩, -⟩
    exact ⟨some e, mem_holdings.mpr ⟨t, ht, he⟩⟩
  rw [unchangedAt, Option.or_eq_some_iff, findSomeRev?_eq_some_iff_of_sorted holdings_sorted]
  refine or_congr ?_ (and_congr ?_ Iff.rfl)
  · constructor
    · rintro ⟨⟨d, o⟩, hx, hv, hlast⟩
      refine ⟨d, (hf _ hx e).mp hv, ?_⟩
      intro d' e' hr
      by_contra hlt
      obtain ⟨o', hx'⟩ := hret d' e' hr
      have := hlast _ hx' (not_le.mp hlt)
      rw [(hf _ hx' e').mpr hr] at this
      simp at this
    · rintro ⟨d, hr, hlast⟩
      obtain ⟨o, hx⟩ := hret d e hr
      refine ⟨(d, o), hx, (hf _ hx e).mpr hr, ?_⟩
      intro y hy hlt
      rw [Option.eq_none_iff_forall_ne_some]
      intro e' hv
      exact absurd hlt (hlast y.1 e' ((hf y hy e').mp hv)).not_gt
  · rw [List.findSomeRev?_eq_findSome?_reverse, List.findSome?_eq_none_iff]
    constructor
    · intro h d e hr
      obtain ⟨o, hx⟩ := hret d e hr
      have := h _ (List.mem_reverse.mpr hx)
      rw [(hf _ hx e).mpr hr] at this
      simp at this
    · intro h y hy
      rw [Option.eq_none_iff_forall_ne_some]
      intro e' hv
      exact h y.1 e' ((hf y (List.mem_reverse.mp hy) e').mp hv)

/-- An entry that nobody changed stands at the base or at a head. -/
lemma unchangedAt_eq_some (h : unchangedAt heads base p = some e) :
    (∃ d, RetainsBase heads base p d e) ∨ baseEntry base p = some e := by
  rcases unchangedAt_eq_some_iff.mp h with ⟨d, hr, -⟩ | ⟨-, hb⟩
  · exact Or.inl ⟨d, hr⟩
  · exact Or.inr hb

lemma isChanged_some_iff {b : Option FileEntry} :
    isChanged b (some e) = false ↔ ∃ e₀, b = some e₀ ∧ sameContent e₀ e = true := by
  cases b <;> simp [isChanged, sameContent]

lemma deletedAt_eq_true_iff :
    deletedAt heads base q = true ↔ (baseEntry base q).isSome = true ∧
      ∃ (d : String) (t : FsManifest), heads[d]? = some t ∧ t.entries[q]? = none := by
  have hnone : ∀ b : Option FileEntry, isChanged b none = b.isSome := by rintro (_ | _) <;> rfl
  simp only [deletedAt, changedAt, List.any_eq_true, List.mem_filter, Prod.exists,
    Option.isNone_iff_eq_none, mem_holdings]
  constructor
  · rintro ⟨d, o, ⟨⟨t, ht, rfl⟩, hc⟩, ho⟩
    rw [ho, hnone] at hc
    exact ⟨hc, d, t, ht, ho⟩
  · rintro ⟨hb, d, t, ht, ho⟩
    exact ⟨d, none, ⟨⟨t, ht, ho⟩, (hnone _).trans hb⟩, rfl⟩

/-- The entry that stays has the content of the base. -/
lemma unchangedAt_isSome : (unchangedAt heads base q).isSome = (baseEntry base q).isSome := by
  cases hb : baseEntry base q with
  | some b => simp [unchangedAt, hb]
  | none =>
      cases hu : unchangedAt heads base q with
      | none => rfl
      | some e =>
          rcases unchangedAt_eq_some hu with ⟨_, -, hc⟩ | hbe
          · simp [hb, isChanged] at hc
          · rw [hb] at hbe
            simp at hbe

/-- Nobody changed `q` exactly when no content is brought there and nothing is deleted. -/
lemma forall_unchanged_iff :
    (∀ (d : String) (t : FsManifest), heads[d]? = some t →
        isChanged (baseEntry base q) t.entries[q]? = false) ↔
      (∀ d e, ¬ Brings heads base q d e) ∧ deletedAt heads base q = false := by
  constructor
  · intro h
    refine ⟨?_, ?_⟩
    · rintro d e ⟨⟨t, ht, he⟩, hc⟩
      have := h d t ht
      rw [he, hc] at this
      simp at this
    · rw [← Bool.not_eq_true, deletedAt_eq_true_iff]
      rintro ⟨hb, d, t, ht, ho⟩
      have := h d t ht
      rw [ho] at this
      cases hbe : baseEntry base q with
      | none => simp [hbe] at hb
      | some b => simp [hbe, isChanged] at this
  · rintro ⟨hb, hd⟩ d t ht
    rw [← Bool.not_eq_true]
    intro hc
    cases he : t.entries[q]? with
    | some e => exact hb d e ⟨⟨t, ht, he⟩, he ▸ hc⟩
    | none =>
        rw [← Bool.not_eq_true, deletedAt_eq_true_iff] at hd
        refine hd ⟨?_, d, t, ht, he⟩
        rw [he] at hc
        cases hbe : baseEntry base q with
        | none => simp [hbe, isChanged] at hc
        | some b => rfl

lemma kept_eq_none_iff (δ : FileEntry → String) : kept heads base q δ = none ↔ Vacant heads base q := by
  rw [kept]
  cases h : standings heads base q δ with
  | cons s l =>
      obtain ⟨hs, -⟩ := standings_cons_spec h
      simp only [reduceCtorEq, false_iff]
      intro hv
      exact hv.1 _ _ hs.1.1
  | nil =>
      have hun : unchangedAt heads base q = none ↔ baseEntry base q = none := by
        rw [← Option.not_isSome_iff_eq_none, ← Option.not_isSome_iff_eq_none, unchangedAt_isSome]
      constructor
      · intro hk
        refine ⟨standings_eq_nil_iff.mp h, ?_⟩
        cases hd : deletedAt heads base q with
        | true => exact Or.inr (deletedAt_eq_true_iff.mp hd).2
        | false => exact Or.inl (hun.mp (by simpa [hd] using hk))
      · rintro ⟨-, hv⟩
        cases hbe : baseEntry base q with
        | none => simp [hun.mpr hbe]
        | some b =>
            rw [hbe] at hv
            have hd : deletedAt heads base q = true :=
              deletedAt_eq_true_iff.mpr ⟨by rw [hbe]; rfl, hv.resolve_left (by simp)⟩
            simp [hd]

end

section

variable {C : Crypto} {K : Codec} {heads : Heads} {base : Option FsManifest} {p q d d' : String}
  {δ : FileEntry → String} {e e' : FileEntry} {out : FoldOutcome}

lemma mem_foldl_insertMany_keys {l : List (String × FsManifest)}
    {s : Std.ExtTreeSet String compare} :
    q ∈ l.foldl (fun s x => s.insertMany x.2.entries.keys) s ↔
      q ∈ s ∨ ∃ x ∈ l, q ∈ x.2.entries := by
  induction l generalizing s with
  | nil => simp
  | cons x l ih =>
      rw [List.foldl_cons, ih, Std.ExtTreeSet.mem_insertMany_list]
      simp [or_assoc]

/-- The paths the loop visits. -/
lemma mem_foldPaths :
    q ∈ foldPaths heads base ↔
      (∃ (d : String) (t : FsManifest), heads[d]? = some t ∧ q ∈ t.entries) ∨
        (baseEntry base q).isSome = true := by
  have hheads : q ∈ heads.foldl (fun (s : Std.ExtTreeSet String compare) _ tree =>
      s.insertMany tree.entries.keys) ∅ ↔
        ∃ (d : String) (t : FsManifest), heads[d]? = some t ∧ q ∈ t.entries := by
    rw [Std.ExtTreeMap.foldl_eq_foldl_toList, mem_foldl_insertMany_keys]
    simp [Std.ExtTreeMap.mem_toList_iff_getElem?_eq_some]
  cases base with
  | none => simpa [foldPaths, baseEntry] using hheads
  | some b =>
      simp only [foldPaths, Std.ExtTreeSet.mem_toList, Std.ExtTreeSet.mem_insertMany_list, hheads,
        baseEntry, Option.bind_some]
      simp

lemma Brings.mem_foldPaths (h : Brings heads base p d e) : p ∈ foldPaths heads base := by
  obtain ⟨⟨t, ht, he⟩, -⟩ := h
  refine Ciss.mem_foldPaths.mpr (Or.inl ⟨d, t, ht, ?_⟩)
  rw [Std.ExtTreeMap.mem_iff_isSome_getElem?, he]
  rfl

lemma mem_foldPaths_of_kept (h : kept heads base p δ = some e) : p ∈ foldPaths heads base := by
  rcases kept_eq_some_iff.mp h with ⟨d, hw⟩ | ⟨-, -, hun⟩
  · exact hw.1.1.mem_foldPaths
  · rcases unchangedAt_eq_some hun with ⟨d, ⟨t, ht, he⟩, -⟩ | hb
    · refine mem_foldPaths.mpr (Or.inl ⟨d, t, ht, ?_⟩)
      rw [Std.ExtTreeMap.mem_iff_isSome_getElem?, he]
      rfl
    · exact mem_foldPaths.mpr (Or.inr (by rw [hb]; rfl))

/-- One decision writes each name at most once. -/
lemma writesAt_nodup : (writesAt heads base p δ).Pairwise fun w w' => w.1 ≠ w'.1 := by
  rw [writesAt, List.pairwise_append]
  refine ⟨?_, ?_, ?_⟩
  · cases kept heads base p δ <;> simp
  · refine List.pairwise_map.mpr ((standings_devices.sublist (List.tail_sublist _)).imp ?_)
    intro r r' hr h
    exact hr (conflictPath_inj.mp h)
  · intro w hw w' hw' h
    obtain ⟨e, -, rfl⟩ := List.mem_map.mp hw
    obtain ⟨r, -, rfl⟩ := List.mem_map.mp hw'
    exact (lt_conflictPath p r.device).ne h

/-- What one decision writes: the path itself, or a copy of a losing content. -/
lemma lastWrite_writesAt :
    lastWrite q (writesAt heads base p δ) = some e ↔
      (q = p ∧ kept heads base p δ = some e) ∨
        ∃ d, Loses heads base p δ d e ∧ q = conflictPath p d := by
  rw [lastWrite_eq_some_iff_of_nodup writesAt_nodup, writesAt, List.mem_append, List.mem_map,
    List.mem_map]
  refine or_congr ?_ ?_
  · constructor
    · rintro ⟨e', he', h⟩
      obtain ⟨rfl, rfl⟩ := Prod.mk.inj h
      exact ⟨rfl, Option.mem_toList.mp he'⟩
    · rintro ⟨rfl, h⟩
      exact ⟨e, Option.mem_toList.mpr h, rfl⟩
  · constructor
    · rintro ⟨r, hr, h⟩
      obtain ⟨rfl, rfl⟩ := Prod.mk.inj h
      exact ⟨r.device, (mem_copies.mp hr).1, rfl⟩
    · rintro ⟨d, hl, rfl⟩
      exact ⟨⟨δ e, d, e⟩, mem_copies.mpr ⟨hl, rfl⟩, rfl⟩

/-- **The folded tree.**  A path holds what its own decision keeps there; a name whose own
decision keeps nothing holds the copy of a losing content, the one from the last contested path
that copies onto this name. -/
theorem fold_tree (h : fold C K heads base = .ok out) :
    out.tree.entries[q]? = some e ↔
      kept heads base q (digestOf C K) = some e ∨
        kept heads base q (digestOf C K) = none ∧
          ∃ p d, Loses heads base p (digestOf C K) d e ∧ q = conflictPath p d ∧
            ∀ p' d' e', Loses heads base p' (digestOf C K) d' e' → q = conflictPath p' d' →
              p' ≤ p := by
  rw [fold_getElem? h, lastWrite_flatMap_eq_some_iff foldPaths_sorted]
  constructor
  · rintro ⟨p, hp, hw, hlast⟩
    rcases lastWrite_writesAt.mp hw with ⟨rfl, hk⟩ | ⟨d, hl, rfl⟩
    · exact Or.inl hk
    · refine Or.inr ⟨?_, p, d, hl, rfl, ?_⟩
      · rw [Option.eq_none_iff_forall_ne_some]
        intro e' hk
        have := hlast _ (mem_foldPaths_of_kept hk) (lt_conflictPath p d)
        rw [lastWrite_writesAt.mpr (Or.inl ⟨rfl, hk⟩)] at this
        simp at this
      · intro p' d' e' hl' hq
        by_contra hlt
        have := hlast p' hl'.1.1.mem_foldPaths (not_le.mp hlt)
        rw [lastWrite_writesAt.mpr (Or.inr ⟨d', hl', hq⟩)] at this
        simp at this
  · rintro (hk | ⟨hk, p, d, hl, rfl, hlast⟩)
    · refine ⟨q, mem_foldPaths_of_kept hk, lastWrite_writesAt.mpr (Or.inl ⟨rfl, hk⟩), ?_⟩
      intro p' _ hlt
      rw [Option.eq_none_iff_forall_ne_some]
      intro e' hw
      rcases lastWrite_writesAt.mp hw with ⟨rfl, -⟩ | ⟨d', -, rfl⟩
      · exact lt_irrefl _ hlt
      · exact absurd hlt (lt_conflictPath p' d').not_gt
    · refine ⟨p, hl.1.1.mem_foldPaths, lastWrite_writesAt.mpr (Or.inr ⟨d, hl, rfl⟩), ?_⟩
      intro p' _ hlt
      rw [Option.eq_none_iff_forall_ne_some]
      intro e' hw
      rcases lastWrite_writesAt.mp hw with ⟨rfl, hk'⟩ | ⟨d', hl', hq⟩
      · rw [hk] at hk'
        simp at hk'
      · exact absurd hlt (hlast p' d' e' hl' hq).not_gt

end

/-! ## When the fold succeeds -/

section

variable {C : Crypto} {K : Codec} {heads : Heads} {base : Option FsManifest} {p q : String}
  {δ : FileEntry → String} {out : FoldOutcome}

/-- A path is contested when at least two contents are brought to it. -/
lemma exists_loses_iff :
    (∃ d e, Loses heads base p δ d e) ↔ 2 ≤ (edits heads base p).length := by
  have hlen : (copies heads base p δ).length = (edits heads base p).length - 1 := by
    simp [copies, standings]
  constructor
  · rintro ⟨d, e, hl⟩
    have hmem : (⟨δ e, d, e⟩ : Standing) ∈ copies heads base p δ := mem_copies.mpr ⟨hl, rfl⟩
    have := List.length_pos_of_mem hmem
    omega
  · intro h
    obtain ⟨r, hr⟩ := List.exists_mem_of_length_pos (l := copies heads base p δ) (by omega)
    exact ⟨r.device, r.entry, (mem_copies.mp hr).1⟩

lemma exists_mapM_rankEdit_iff {l : List (String × FileEntry)} :
    (∃ ranked, l.mapM (rankEdit C K) = .ok ranked) ↔
      ∀ x ∈ l, ∃ s, entryDigest C K x.2 = .ok s := by
  induction l with
  | nil => simp [pure, Except.pure]
  | cons x l ih =>
      rw [List.mapM_cons, rankEdit, List.forall_mem_cons, ← ih]
      cases hd : entryDigest C K x.2 with
      | error e => simp [bind, Except.bind]
      | ok s =>
          cases hl : l.mapM (rankEdit C K) with
          | error e => simp [bind, Except.bind, pure, Except.pure]
          | ok ranked => simp [bind, Except.bind, pure, Except.pure]

/-- Only the digest of a contested entry can fail. -/
lemma exists_foldPath_iff (out : FoldOutcome) (δ : FileEntry → String) :
    (∃ out', foldPath C K heads base out p = .ok out') ↔
      ((∃ d e, Loses heads base p δ d e) →
        ∀ d e, Leads heads base p d e → ∃ s, entryDigest C K e = .ok s) := by
  rw [exists_loses_iff, foldPath, survey_eq]
  simp only [proposals_eq]
  have hedits : (∀ d e, Leads heads base p d e → ∃ s, entryDigest C K e = .ok s) ↔
      ∀ x ∈ edits heads base p, ∃ s, entryDigest C K x.2 = .ok s := by
    simp only [← mem_edits, Prod.forall]
  rw [hedits]
  split
  · rename_i hnil
    refine iff_of_true ?_ (by simp [hnil])
    split
    · exact ⟨_, rfl⟩
    · split
      · exact ⟨_, rfl⟩
      · exact ⟨_, rfl⟩
  · rename_i hone
    simp [hone]
  · rename_i l hnil hone
    have htwo : 2 ≤ (edits heads base p).length := by
      rcases hl : edits heads base p with _ | ⟨x, _ | ⟨y, l⟩⟩
      · exact absurd hl hnil
      · exact absurd hl (hone x.1 x.2)
      · simp
    simp only [htwo, true_implies, ← exists_mapM_rankEdit_iff]
    cases hr : (edits heads base p).mapM (rankEdit C K) with
    | error e => simp [bind, Except.bind]
    | ok ranked =>
        simp only [bind, Except.bind, Except.ok.injEq, exists_eq', iff_true]
        split
        · exact ⟨_, rfl⟩
        · exact ⟨_, rfl⟩

lemma exists_foldlM_foldPath_iff {paths : List String} (δ : FileEntry → String) :
    (∃ out', paths.foldlM (foldPath C K heads base) out = .ok out') ↔
      ∀ p ∈ paths, (∃ d e, Loses heads base p δ d e) →
        ∀ d e, Leads heads base p d e → ∃ s, entryDigest C K e = .ok s := by
  induction paths generalizing out with
  | nil => simp [pure, Except.pure]
  | cons p paths ih =>
      rw [List.foldlM_cons, List.forall_mem_cons, ← exists_foldPath_iff out δ]
      cases hp : foldPath C K heads base out p with
      | error e => simp [bind, Except.bind]
      | ok mid => simpa [bind, Except.bind] using ih

/-- The fold returns a tree unless a contested entry has no digest. -/
theorem exists_fold_iff (δ : FileEntry → String) :
    (∃ out, fold C K heads base = .ok out) ↔
      ∀ p, (∃ d e, Loses heads base p δ d e) →
        ∀ d e, Leads heads base p d e → ∃ s, entryDigest C K e = .ok s := by
  rw [fold, exists_foldlM_foldPath_iff δ]
  constructor
  · rintro h p ⟨d, e, hl⟩
    exact h p hl.1.1.mem_foldPaths ⟨d, e, hl⟩
  · intro h p _
    exact h p

/-- Where the folded tree has nothing. -/
lemma fold_getElem?_eq_none_iff (h : fold C K heads base = .ok out) :
    out.tree.entries[q]? = none ↔
      kept heads base q (digestOf C K) = none ∧
        ∀ p d e, Loses heads base p (digestOf C K) d e → q ≠ conflictPath p d := by
  have hnone : out.tree.entries[q]? = none ↔ ∀ p ∈ foldPaths heads base,
      lastWrite q (writesAt heads base p (digestOf C K)) = none := by
    simp only [fold_getElem? h, lastWrite_eq_none_iff, List.mem_flatMap]
    constructor
    · intro h p hp w hw
      exact h w ⟨p, hp, hw⟩
    · rintro h w ⟨p, hp, hw⟩
      exact h p hp w hw
  rw [hnone]
  constructor
  · intro h
    refine ⟨?_, ?_⟩
    · rw [Option.eq_none_iff_forall_ne_some]
      intro e hk
      have := h q (mem_foldPaths_of_kept hk)
      rw [lastWrite_writesAt.mpr (Or.inl ⟨rfl, hk⟩)] at this
      simp at this
    · intro p d e hl hq
      have := h p hl.1.1.mem_foldPaths
      rw [lastWrite_writesAt.mpr (Or.inr ⟨d, hl, hq⟩)] at this
      simp at this
  · rintro ⟨hk, hcopy⟩ p _
    rw [Option.eq_none_iff_forall_ne_some]
    intro e hw
    rcases lastWrite_writesAt.mp hw with ⟨rfl, hk'⟩ | ⟨d, hl, hq⟩
    · rw [hk] at hk'
      simp at hk'
    · exact hcopy p d e hl hq

end

end Ciss
