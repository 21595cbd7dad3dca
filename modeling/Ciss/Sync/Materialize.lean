import Ciss.Sync.Disk

/-!
# Materializing a tree

Restore and converge write one file after the other, in the order of the paths.  Every file goes
through a temporary file in its own directory, so a write can hit what an earlier one left, and
what was there before.

`materialize` is that loop, and `landsAll_kept_iff` says when it leaves every file it wrote, and
every other file, in place: `Clear` lists for each path what may not stand at its temporary name,
in its way, or above it.
-/

namespace Ciss

variable {F : FileSystem}

/-- Fetch and write the entries in order, those that are skipped apart, up to the first failure;
returns what was written. -/
def materialize (env : DiskEnv F) (fetch : FileEntry → Except SyncError Bytes)
    (skip : String × FileEntry → Bool) :
    List (String × FileEntry) → Disk F → Disk F × Except SyncError (List (FileEntry × Bytes))
  | [], disk => (disk, .ok [])
  | x :: rest, disk =>
      if skip x then materialize env fetch skip rest disk
      else
        match fetch x.2 with
        | .error e => (disk, .error e)
        | .ok content =>
            match writeVerified env x.1 x.2 content disk with
            | (disk, .error e) => (disk, .error e)
            | (disk, .ok ()) =>
                match materialize env fetch skip rest disk with
                | (disk, .error e) => (disk, .error e)
                | (disk, .ok written) => (disk, .ok ((x.2, content) :: written))

/-! ## What the writes leave -/

section

variable (env : DiskEnv F) (content : FileEntry → Bytes)

/-- The files after one write. -/
def place (x : String × FileEntry) (files : LocalFiles) : LocalFiles :=
  (files.erase (tmpPath x.1)).insert x.1 (landed env x.2 (content x.2))

/-- The files after the writes. -/
def lay (l : List (String × FileEntry)) (files : LocalFiles) : LocalFiles :=
  l.foldl (fun files x => place env content x files) files

/-- Every write goes through, with what the ones before it left. -/
def LandsAll : List (String × FileEntry) → LocalFiles → (String → Prop) → Prop
  | [], _, _ => True
  | x :: l, files, dirs => Lands env files dirs x.1 x.2 (content x.2) ∧
      LandsAll l (place env content x files) fun a => dirs a ∨ DirPrefix a x.1

end

section

variable {env : DiskEnv F} {content : FileEntry → Bytes} {l l' : List (String × FileEntry)}
  {x y : String × FileEntry} {files : LocalFiles} {dirs : String → Prop} {q : String}

lemma getElem?_place_self : (place env content x files)[x.1]? =
    some (landed env x.2 (content x.2)) := by
  rw [place, Std.ExtTreeMap.getElem?_insert_self]

lemma getElem?_place_tmp : (place env content x files)[tmpPath x.1]? = none := by
  rw [place, Std.ExtTreeMap.getElem?_insert, if_neg, Std.ExtTreeMap.getElem?_erase_self]
  rw [Std.LawfulEqCmp.compare_eq_iff_eq]
  exact (tmpPath_ne x.1).symm

lemma getElem?_place_other (hq : x.1 ≠ q) (htmp : tmpPath x.1 ≠ q) :
    (place env content x files)[q]? = files[q]? := by
  rw [place, Std.ExtTreeMap.getElem?_insert, if_neg, Std.ExtTreeMap.getElem?_erase, if_neg]
  · rwa [Std.LawfulEqCmp.compare_eq_iff_eq]
  · rwa [Std.LawfulEqCmp.compare_eq_iff_eq]

lemma lay_cons : lay env content (x :: l) files = lay env content l (place env content x files) :=
  rfl

lemma lay_append : lay env content (l ++ l') files = lay env content l' (lay env content l files) :=
  List.foldl_append

/-- A path that no write touches keeps its file. -/
lemma lay_other (hq : ∀ x ∈ l, x.1 ≠ q ∧ tmpPath x.1 ≠ q) :
    (lay env content l files)[q]? = files[q]? := by
  induction l generalizing files with
  | nil => rfl
  | cons x l ih =>
      obtain ⟨hne, htmp⟩ := hq x List.mem_cons_self
      rw [lay_cons, ih fun y hy => hq y (List.mem_cons_of_mem _ hy), getElem?_place_other hne htmp]

/-- Where no write puts a file, there is the old one or none. -/
lemma lay_cases (hq : ∀ x ∈ l, x.1 ≠ q) :
    (lay env content l files)[q]? = files[q]? ∨ (lay env content l files)[q]? = none := by
  induction l generalizing files with
  | nil => exact Or.inl rfl
  | cons x l ih =>
      rw [lay_cons]
      have hrest : (lay env content l (place env content x files))[q]? =
            (place env content x files)[q]? ∨
          (lay env content l (place env content x files))[q]? = none :=
        ih fun y hy => hq y (List.mem_cons_of_mem _ hy)
      rcases hrest with h | h
      · by_cases htmp : tmpPath x.1 = q
        · refine Or.inr (h.trans ?_)
          rw [← htmp, getElem?_place_tmp]
        · exact Or.inl (h.trans (getElem?_place_other (hq x List.mem_cons_self) htmp))
      · exact Or.inr h

lemma lay_eq_none (hq : ∀ x ∈ l, x.1 ≠ q) (hnone : files[q]? = none) :
    (lay env content l files)[q]? = none :=
  (lay_cases hq).elim (·.trans hnone) id

/-- What a write overwrote as its temporary file is gone, unless it is written later. -/
lemma lay_split_tmp (hq : ∀ y ∈ l', y.1 ≠ tmpPath x.1) :
    (lay env content (l ++ x :: l') files)[tmpPath x.1]? = none := by
  rw [lay_append, lay_cons]
  exact lay_eq_none hq getElem?_place_tmp

/-- What is written stays, unless a later write has it as its temporary file. -/
lemma lay_split_self (hq : ∀ y ∈ l', y.1 ≠ x.1 ∧ tmpPath y.1 ≠ x.1) :
    (lay env content (l ++ x :: l') files)[x.1]? = some (landed env x.2 (content x.2)) := by
  rw [lay_append, lay_cons, lay_other hq, getElem?_place_self]

/-- What is written stays or is lost. -/
lemma lay_self_cases (hsorted : l.Pairwise fun x y => x.1 ≠ y.1) (hx : x ∈ l) :
    (lay env content l files)[x.1]? = some (landed env x.2 (content x.2)) ∨
      (lay env content l files)[x.1]? = none := by
  obtain ⟨l₁, l₂, rfl⟩ := List.append_of_mem hx
  have hafter : ∀ y ∈ l₂, y.1 ≠ x.1 := fun y hy =>
    (List.rel_of_pairwise_cons (List.pairwise_append.1 hsorted).2.1 hy).symm
  have hself : (place env content x (lay env content l₁ files))[x.1]? =
      some (landed env x.2 (content x.2)) := getElem?_place_self
  rw [lay_append, lay_cons, ← hself]
  exact lay_cases hafter

/-- The writes go through when each does, with what the ones before it left. -/
lemma landsAll_iff : LandsAll env content l files dirs ↔
    ∀ l₁ x l₂, l = l₁ ++ x :: l₂ → Lands env (lay env content l₁ files)
      (fun a => dirs a ∨ ∃ y ∈ l₁, DirPrefix a y.1) x.1 x.2 (content x.2) := by
  induction l generalizing files dirs with
  | nil =>
      refine iff_of_true trivial fun l₁ x l₂ h => ?_
      simp at h
  | cons z l ih =>
      have hdirs : ∀ l₁ : List (String × FileEntry),
          (fun a => (dirs a ∨ DirPrefix a z.1) ∨ ∃ y ∈ l₁, DirPrefix a y.1) =
            fun a => dirs a ∨ ∃ y ∈ z :: l₁, DirPrefix a y.1 := by
        intro l₁
        funext a
        simp only [List.mem_cons, exists_eq_or_imp, or_assoc]
      have hnone : (fun a => dirs a ∨ ∃ y ∈ ([] : List (String × FileEntry)), DirPrefix a y.1) =
          dirs := by
        funext a
        simp
      rw [LandsAll, ih]
      constructor
      · rintro ⟨hz, hl⟩ l₁ x l₂ heq
        rcases l₁ with _ | ⟨w, l₁⟩
        · obtain ⟨rfl, rfl⟩ := List.cons.inj heq
          rw [hnone]
          exact hz
        · obtain ⟨rfl, hrest⟩ := List.cons.inj heq
          have h := hl l₁ x l₂ hrest
          rwa [hdirs] at h
      · intro h
        constructor
        · have hz := h [] z l rfl
          rwa [hnone] at hz
        · intro l₁ x l₂ heq
          rw [hdirs]
          exact h (z :: l₁) x l₂ (by rw [heq, List.cons_append])

/-- Skipped entries do not count. -/
lemma materialize_filter {fetch : FileEntry → Except SyncError Bytes}
    {skip : String × FileEntry → Bool} (disk : Disk F) :
    materialize env fetch skip l disk =
      materialize env fetch (fun _ => false) (l.filter fun x => !skip x) disk := by
  induction l generalizing disk with
  | nil => rfl
  | cons x l ih =>
      rw [materialize]
      by_cases hs : skip x = true
      · rw [if_pos hs, ih, List.filter_cons_of_neg (by simp [hs])]
      · rw [if_neg hs, List.filter_cons_of_pos (by simp [hs]), materialize, if_neg (by simp)]
        simp only [ih]

/-- **The loop.**  It goes through exactly when every write does. -/
theorem materialize_spec (env : DiskEnv F) (content : FileEntry → Bytes)
    (l : List (String × FileEntry)) {fetch : FileEntry → Except SyncError Bytes}
    (hpath : ∀ x ∈ l, NormalPath x.1) (hfetch : ∀ x ∈ l, fetch x.2 = .ok (content x.2))
    (disk : Disk F) :
    (LandsAll env content l disk.files (· ∈ disk.dirs) →
      ∃ disk', materialize env fetch (fun _ => false) l disk =
          (disk', .ok (l.map fun x => (x.2, content x.2))) ∧
        disk'.files = lay env content l disk.files ∧
        ∀ a, a ∈ disk'.dirs ↔ a ∈ disk.dirs ∨ ∃ x ∈ l, DirPrefix a x.1) ∧
    (¬LandsAll env content l disk.files (· ∈ disk.dirs) →
      ∃ disk' e, materialize env fetch (fun _ => false) l disk = (disk', .error e)) := by
  induction l generalizing disk with
  | nil => exact ⟨fun _ => ⟨disk, rfl, rfl, by simp⟩, fun h => absurd trivial h⟩
  | cons x l ih =>
      obtain ⟨hwrite, hnowrite⟩ := writeVerified_spec env x.2 (content x.2)
        (hpath x List.mem_cons_self) disk
      rw [materialize, if_neg (by simp), hfetch x List.mem_cons_self, LandsAll]
      dsimp only
      by_cases hx : Lands env disk.files (· ∈ disk.dirs) x.1 x.2 (content x.2)
      swap
      · obtain ⟨disk₁, e, h₁⟩ := hnowrite hx
        rw [h₁]
        exact ⟨fun h => absurd h.1 hx, fun _ => ⟨_, _, rfl⟩⟩
      obtain ⟨disk₁, h₁, hfiles₁, hdirs₁⟩ := hwrite hx
      have hdirs : (fun a => a ∈ disk.dirs ∨ DirPrefix a x.1) = (· ∈ disk₁.dirs) := by
        funext a
        rw [hdirs₁]
      obtain ⟨hrest, hnorest⟩ := ih (fun y hy => hpath y (List.mem_cons_of_mem _ hy))
        (fun y hy => hfetch y (List.mem_cons_of_mem _ hy)) disk₁
      have hplace : place env content x disk.files = disk₁.files := hfiles₁.symm
      rw [h₁, hdirs, hplace]
      dsimp only
      constructor
      · rintro ⟨-, hl⟩
        obtain ⟨disk₂, h₂, hfiles₂, hdirs₂⟩ := hrest hl
        rw [h₂]
        refine ⟨disk₂, rfl, by rw [hfiles₂, lay_cons, hplace], fun a => ?_⟩
        rw [hdirs₂, hdirs₁]
        simp only [List.mem_cons, exists_eq_or_imp, or_assoc]
      · intro hnot
        obtain ⟨disk₂, e, h₂⟩ := hnorest fun hl => hnot ⟨hx, hl⟩
        rw [h₂]
        exact ⟨_, _, rfl⟩

end

/-! ## When every file stays -/

/-- Nothing is in the way of the write of `x`, among these files and directories and with the
writes of the list before it, and it takes no file that stays. -/
structure Clear (env : DiskEnv F) (content : FileEntry → Bytes) (files : LocalFiles)
    (dirs : String → Prop) (l : List (String × FileEntry)) (x : String × FileEntry) : Prop where
  size : (content x.2).length = x.2.size
  parents : ∀ a, DirPrefix a x.1 → F.names a = true ∧ a ∉ files
  fault : env.fault x.1 = none
  names : F.names x.1 = true
  names_tmp : F.names (tmpPath x.1) = true
  free : ¬dirs x.1
  free_tmp : ¬dirs (tmpPath x.1)
  /-- A file with the temporary name is one that is written later. -/
  overwrites : ∀ f, files[tmpPath x.1]? = some f →
    F.writable (f.mode % 4096) = true ∧ ∃ y ∈ l, y.1 = tmpPath x.1
  readable : 0 ≤ x.2.mtimeSecs → F.readable (x.2.mode % 4096) = true
  /-- No earlier write has put a file or a directory there. -/
  apart : ∀ y ∈ l, compare y.1 x.1 = .lt → y.1 ≠ tmpPath x.1 ∧ ¬DirPrefix (tmpPath x.1) y.1

section

variable {env : DiskEnv F} {content : FileEntry → Bytes} {l : List (String × FileEntry)}
  {files : LocalFiles} {dirs : String → Prop}

lemma ne_of_compare_lt {p q : String} (h : compare p q = .lt) : p ≠ q := by
  rintro rfl
  simp at h

/-- **Every file stays.**  The writes of an ordered tree all go through, each leaves its file in
place, and no other file is touched, exactly when every one of them is clear. -/
theorem landsAll_kept_iff (env : DiskEnv F) (content : FileEntry → Bytes) (files : LocalFiles)
    (dirs : String → Prop) (hsorted : l.Pairwise fun x y => compare x.1 y.1 = .lt)
    (hfree : ∀ x ∈ l, ∀ y ∈ l, ¬DirPrefix x.1 y.1) :
    (LandsAll env content l files dirs ∧
        (∀ x ∈ l, (lay env content l files)[x.1]? = some (landed env x.2 (content x.2))) ∧
        ∀ q, (∀ x ∈ l, x.1 ≠ q) → (lay env content l files)[q]? = files[q]?) ↔
      ∀ x ∈ l, Clear env content files dirs l x := by
  -- where `x` stands in the list
  have hsplit : ∀ {l₁ l₂ x}, l = l₁ ++ x :: l₂ →
      (∀ y ∈ l₁, y ∈ l ∧ compare y.1 x.1 = .lt) ∧ ∀ y ∈ l₂, y ∈ l ∧ compare x.1 y.1 = .lt := by
    rintro l₁ l₂ x rfl
    obtain ⟨-, hcons, hcross⟩ := List.pairwise_append.1 hsorted
    refine ⟨fun y hy => ⟨List.mem_append_left _ hy, hcross y hy x List.mem_cons_self⟩,
      fun y hy => ⟨?_, List.rel_of_pairwise_cons hcons hy⟩⟩
    exact List.mem_append_right _ (List.mem_cons_of_mem _ hy)
  rw [landsAll_iff]
  constructor
  · rintro ⟨hlands, hself, hkept⟩ x hx
    obtain ⟨l₁, l₂, heq⟩ := List.append_of_mem hx
    obtain ⟨hbefore, hafter⟩ := hsplit heq
    have h := hlands l₁ x l₂ heq
    have hgone : (∀ y ∈ l₂, y.1 ≠ tmpPath x.1) →
        (lay env content l files)[tmpPath x.1]? = none := by
      intro hq
      rw [heq]
      exact lay_split_tmp hq
    have hapart : ∀ y ∈ l, compare y.1 x.1 = .lt →
        y.1 ≠ tmpPath x.1 ∧ ¬DirPrefix (tmpPath x.1) y.1 := by
      intro y hy hlt
      have hy₁ : y ∈ l₁ := by
        rw [heq] at hy
        rcases List.mem_append.1 hy with hy | hy
        · exact hy
        · rcases List.mem_cons.1 hy with rfl | hy
          · exact absurd rfl (ne_of_compare_lt hlt)
          · have hlt' := (hafter y hy).2
            rw [Std.OrientedCmp.gt_of_lt hlt] at hlt'
            cases hlt'
      constructor
      · intro htmp
        have hnone := hgone fun z hz hz' => by
          have hzy : compare y.1 z.1 = .lt :=
            Std.TransCmp.lt_trans (hbefore y hy₁).2 (hafter z hz).2
          exact ne_of_compare_lt hzy (htmp.trans hz'.symm)
        rw [← htmp, hself y hy] at hnone
        cases hnone
      · exact fun hd => h.free_tmp (Or.inr ⟨y, hy₁, hd⟩)
    refine ⟨h.size, ?_, h.fault, h.names, h.names_tmp, fun hd => h.free (Or.inl hd),
      fun hd => h.free_tmp (Or.inl hd), ?_, h.readable, hapart⟩
    · intro a ha
      obtain ⟨hnames, hnot⟩ := h.parents a ha
      refine ⟨hnames, fun hmem => ?_⟩
      obtain ⟨f, hf⟩ := Disk.exists_of_mem hmem
      have hout : ∀ y ∈ l, y.1 ≠ a := fun y hy hya => hfree y hy x hx (hya ▸ ha)
      have hnone : (lay env content l files)[a]? = none := by
        rw [heq, lay_append]
        refine lay_eq_none (fun y hy => hout y (heq ▸ List.mem_append_right _ hy)) ?_
        rwa [← Disk.not_mem_iff]
      rw [hkept a hout, hf] at hnone
      cases hnone
    · intro f hf
      have hlater : ∃ y ∈ l, y.1 = tmpPath x.1 := by
        by_contra hout
        push Not at hout
        have hnone := hgone fun y hy => hout y (hafter y hy).1
        rw [hkept _ hout, hf] at hnone
        cases hnone
      refine ⟨h.writable f ?_, hlater⟩
      rw [lay_other fun y hy => ⟨(hapart y (hbefore y hy).1 (hbefore y hy).2).1, fun htmp =>
        ne_of_compare_lt (hbefore y hy).2 (tmpPath_injective htmp)⟩, hf]
  · intro hclear
    refine ⟨?_, ?_, ?_⟩
    · intro l₁ x l₂ heq
      obtain ⟨hbefore, -⟩ := hsplit heq
      have hx : x ∈ l := heq ▸ List.mem_append_right _ List.mem_cons_self
      have h := hclear x hx
      refine ⟨h.size, ?_, h.fault, h.names, h.names_tmp, ?_, ?_, ?_, h.readable⟩
      · intro a ha
        obtain ⟨hnames, hnot⟩ := h.parents a ha
        refine ⟨hnames, ?_⟩
        rw [Disk.not_mem_iff] at hnot ⊢
        exact lay_eq_none (fun y hy hya => hfree y (hbefore y hy).1 x hx (hya ▸ ha)) hnot
      · rintro (hd | ⟨y, hy, hd⟩)
        · exact h.free hd
        · exact hfree x hx y (hbefore y hy).1 hd
      · rintro (hd | ⟨y, hy, hd⟩)
        · exact h.free_tmp hd
        · exact (h.apart y (hbefore y hy).1 (hbefore y hy).2).2 hd
      · intro f hf
        have hold : files[tmpPath x.1]? = some f := by
          rw [← hf, lay_other]
          exact fun y hy => ⟨(h.apart y (hbefore y hy).1 (hbefore y hy).2).1, fun htmp =>
            ne_of_compare_lt (hbefore y hy).2 (tmpPath_injective htmp)⟩
        exact (h.overwrites f hold).1
    · intro x hx
      obtain ⟨l₁, l₂, heq⟩ := List.append_of_mem hx
      obtain ⟨-, hafter⟩ := hsplit heq
      rw [heq]
      apply lay_split_self
      intro y hy
      obtain ⟨hyl, hlt⟩ := hafter y hy
      exact ⟨(ne_of_compare_lt hlt).symm, fun htmp => ((hclear y hyl).apart x hx hlt).1 htmp.symm⟩
    · intro q hq
      rcases hf : files[q]? with _ | f
      · exact lay_eq_none hq hf
      · rw [← hf]
        refine lay_other fun y hy => ⟨hq y hy, ?_⟩
        rintro rfl
        obtain ⟨-, z, hz, hzq⟩ := (hclear y hy).overwrites f hf
        exact hq z hz hzq

end

end Ciss
