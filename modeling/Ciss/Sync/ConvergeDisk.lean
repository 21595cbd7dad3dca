import Ciss.Sync.FoldNames
import Ciss.Sync.Materialize
import Ciss.Sync.StaleHead

/-!
# Converge publishes the folded tree

A converge folds the trees, brings the directory to the folded tree, and publishes what a new scan
of the directory finds.  Nothing compares the two, so the directory has to end up exactly as the
fold says: every entry that differs is written, in the order of the paths, and after that what the
fold dropped is removed, whether it is on disk or evicted.

`Installs` lists what that needs.  `converge_publishes_fold_iff` says that the list is complete:
the tree that is published, and recorded as the next base, is the folded one exactly then.
-/

namespace Ciss

variable {F : FileSystem}

/-- Remove what the fold dropped; returns how many files were removed. -/
def removeDropped (env : DiskEnv F) (tree : Entries) :
    List String → Disk F → Disk F × Except SyncError Nat
  | [], disk => (disk, .ok 0)
  | path :: rest, disk =>
      if tree.contains path then removeDropped env tree rest disk
      else
        match removeFile env path disk with
        | (disk, .error e) => (disk, .error e)
        | (disk, .ok ()) =>
            match removeDropped env tree rest disk with
            | (disk, .error e) => (disk, .error e)
            | (disk, .ok n) => (disk, .ok (n + 1))

/-- Bring the directory to a tree: write what is not in the own tree, then remove what is not in
the new one; returns how many files were written and removed. -/
def installTree (env : DiskEnv F) (fetch : FileEntry → Except SyncError Bytes)
    (mine tree : Entries) (disk : Disk F) : Disk F × Except SyncError (Nat × Nat) :=
  match materialize env fetch (fun x => mine[x.1]? = some x.2) tree.toList disk with
  | (disk, .error e) => (disk, .error e)
  | (disk, .ok written) =>
      match removeDropped env tree mine.keys disk with
      | (disk, .error e) => (disk, .error e)
      | (disk, .ok deleted) => (disk, .ok (written.length, deleted))

/-- The middle of a converge: read the frontier, fold, and bring the directory to the folded
tree. -/
def convergeFoldOn (P : Platform) (key : Keypair) (env : DiskEnv F) (deviceId : String)
    (disk : Disk F) (d : Device) (s : SyncServer) : Disk F × Except SyncError Materialized :=
  match s.frontier with
  | none => (disk, .error (.decode "no frontier to converge with"))
  | some frontier =>
      match fetchHeads P key.verifyingKey s frontier.heads with
      | .error e => (disk, .error e)
      | .ok heads =>
          match fetchBase P s d.base with
          | .error e => (disk, .error e)
          | .ok base =>
              match fold P.crypto P.codec heads base with
              | .error e => (disk, .error e)
              | .ok outcome =>
                  let mine := (heads[deviceId]?.getD FsManifest.new).entries
                  match installTree env (fetchContent P d s) mine outcome.tree.entries disk with
                  | (disk, .error e) => (disk, .error e)
                  | (disk, .ok (written, deleted)) =>
                      (disk, .ok ⟨outcome.tree, written, deleted,
                        outcome.conflicts.map ConflictNote.loserPath⟩)

/-- Converge a device whose directory is on disk. -/
def convergeOn (P : Platform) (key : Keypair) (around : SyncEnv) (env : DiskEnv F)
    (deviceId : String) (disk : Disk F) (d : Device) (s : SyncServer) :
    Disk F × Device × SyncServer × Except SyncError ConvergeReport :=
  match backupFrontier P key around.refuse around.fault deviceId (d.on disk) s with
  | (d, s, .error e) => (disk, d, s, .error e)
  | (d, s, .ok _) =>
      match convergeFoldOn P key env deviceId disk d s with
      | (disk, .error e) => (disk, d.on disk, s, .error e)
      | (disk, .ok m) =>
          match convergeAdopt P key around deviceId (d.on disk) s with
          | (d, s, .error e) => (disk, d, s, .error e)
          | (d, s, .ok report) =>
              (disk, d, s, .ok ⟨m.tree.entries.size, m.filesWritten, m.filesDeleted, m.conflicts,
                report.pushed.fsManifestCid, report.manifestSeq⟩)

/-! ## What it takes -/

/-- The entries of the folded tree that are not those of the own tree. -/
def pendingWrites (mine tree : Entries) : List (String × FileEntry) :=
  tree.toList.filter fun x => mine[x.1]? ≠ some x.2

/-- Nothing on the disk is in the way of the folded tree, and a scan will find what the fold
decided. -/
structure Installs (P : Platform) (env : DiskEnv F) (disk : Disk F) (mine index : Entries)
    (content : FileEntry → Bytes) (tree : Entries) : Prop where
  /-- Every entry can be written where it belongs, and no write takes a file that stays. -/
  clear : ∀ x ∈ pendingWrites mine tree, NormalPath x.1 ∧
    Clear env content disk.files (· ∈ disk.dirs) (pendingWrites mine tree) x
  /-- The scan of a written file reports the entry: it is the entry of its content, with a time
  that is stored as it is, and the index has no other entry of the same time and size. -/
  seen : ∀ x ∈ pendingWrites mine tree,
    scanEntry P index x.1 (landed env x.2 (content x.2)) = x.2
  /-- What the fold drops is on disk. -/
  dropped : ∀ p : String, mine[p]? ≠ none → tree[p]? = none →
    p ∈ disk.files ∧ env.stuck p = false

/-- The first publication of a converge is accepted, and what is fetched after it folds to `out`;
`d'` and `s'` are the device and the server then. -/
structure FoldReached (P : Platform) (key : Keypair) (around : SyncEnv) (deviceId : String)
    (d : Device) (s : SyncServer) (d' : Device) (s' : SyncServer) (out : FoldOutcome) : Prop where
  published : ∃ report, backupFrontier P key around.refuse around.fault deviceId d s =
    (d', s', .ok report)
  folded : ∃ trees base, fetchHeads P key.verifyingKey s' s'.heads = .ok trees ∧
    fetchBase P s' d'.base = .ok base ∧ fold P.crypto P.codec trees base = .ok out

section

variable {P : Platform} {env : DiskEnv F} {disk disk' : Disk F} {tree mine index : Entries}
  {placeholders : Entries} {content : FileEntry → Bytes}
  {fetch : FileEntry → Except SyncError Bytes}

/-- **The removals.**  They go through exactly when each file is there and can be removed. -/
lemma removeDropped_spec (env : DiskEnv F) (tree : Entries) {l : List String} (hnodup : l.Nodup)
    (hpath : ∀ p ∈ l, p ∉ tree → NormalPath p) (disk : Disk F) :
    ((∀ p ∈ l, p ∉ tree → p ∈ disk.files ∧ env.stuck p = false) →
      ∃ disk' n, removeDropped env tree l disk = (disk', .ok n) ∧
        ∀ q : String, (q ∈ l ∧ q ∉ tree → disk'.files[q]? = none) ∧
          (¬(q ∈ l ∧ q ∉ tree) → disk'.files[q]? = disk.files[q]?)) ∧
    (¬(∀ p ∈ l, p ∉ tree → p ∈ disk.files ∧ env.stuck p = false) →
      ∃ disk' e, removeDropped env tree l disk = (disk', .error e)) := by
  induction l generalizing disk with
  | nil => exact ⟨fun _ => ⟨disk, 0, rfl, by simp⟩, fun h => absurd (by simp) h⟩
  | cons p l ih =>
      obtain ⟨hp, hnodup⟩ := List.nodup_cons.1 hnodup
      have hrest := ih hnodup fun q hq => hpath q (List.mem_cons_of_mem _ hq)
      rw [removeDropped]
      by_cases hin : p ∈ tree
      · rw [if_pos (Std.ExtTreeMap.mem_iff_contains.1 hin)]
        have hiff : ∀ q : String, q ∈ p :: l ∧ q ∉ tree ↔ q ∈ l ∧ q ∉ tree := by
          intro q
          rw [List.mem_cons]
          constructor
          · rintro ⟨rfl | hq, hnot⟩
            · exact absurd hin hnot
            · exact ⟨hq, hnot⟩
          · rintro ⟨hq, hnot⟩
            exact ⟨Or.inr hq, hnot⟩
        have hall : (∀ q ∈ p :: l, q ∉ tree → q ∈ disk.files ∧ env.stuck q = false) ↔
            ∀ q ∈ l, q ∉ tree → q ∈ disk.files ∧ env.stuck q = false := by
          simp only [← and_imp, hiff]
        simp only [hall, hiff]
        exact hrest disk
      · rw [if_neg fun h => hin (Std.ExtTreeMap.mem_iff_contains.2 h)]
        obtain ⟨hremove, hnoremove⟩ := removeFile_spec env
          (hpath p List.mem_cons_self hin) disk
        by_cases hok : p ∈ disk.files ∧ env.stuck p = false
        swap
        · obtain ⟨disk₁, e, h₁⟩ := hnoremove hok
          rw [h₁]
          exact ⟨fun h => absurd (h p List.mem_cons_self hin) hok, fun _ => ⟨_, _, rfl⟩⟩
        obtain ⟨disk₁, h₁, hfiles₁, -⟩ := hremove hok
        have hget : ∀ q : String, q ≠ p → disk₁.files[q]? = disk.files[q]? := by
          intro q hq
          rw [hfiles₁, Std.ExtTreeMap.getElem?_erase, if_neg]
          rw [Std.LawfulEqCmp.compare_eq_iff_eq]
          exact Ne.symm hq
        have hmem : ∀ q ∈ l, (q ∈ disk₁.files ↔ q ∈ disk.files) := by
          intro q hq
          rw [Std.ExtTreeMap.mem_iff_isSome_getElem?, hget q fun h => hp (h ▸ hq),
            Std.ExtTreeMap.mem_iff_isSome_getElem?]
        obtain ⟨hgo, hstop⟩ := hrest disk₁
        rw [h₁]
        dsimp only
        constructor
        · intro hall
          obtain ⟨disk₂, n, h₂, hfiles₂⟩ := hgo fun q hq hnot => by
            rw [hmem q hq]
            exact hall q (List.mem_cons_of_mem _ hq) hnot
          rw [h₂]
          refine ⟨disk₂, n + 1, rfl, fun q => ⟨?_, fun hnot => ?_⟩⟩
          · rintro ⟨hq, hnot⟩
            rcases List.mem_cons.1 hq with rfl | hq
            · rw [(hfiles₂ q).2 fun h => hp h.1, hfiles₁, Std.ExtTreeMap.getElem?_erase_self]
            · exact (hfiles₂ q).1 ⟨hq, hnot⟩
          · rw [(hfiles₂ q).2 fun h => hnot ⟨List.mem_cons_of_mem _ h.1, h.2⟩]
            exact hget q fun h => hnot ⟨h ▸ List.mem_cons_self, h ▸ hin⟩
        · intro hnot
          obtain ⟨disk₂, e, h₂⟩ := hstop fun h => hnot fun q hq hqt => by
            rcases List.mem_cons.1 hq with rfl | hq
            · exact hok
            · rw [← hmem q hq]
              exact h q hq hqt
          rw [h₂]
          exact ⟨_, _, rfl⟩

lemma mem_pendingWrites {x : String × FileEntry} :
    x ∈ pendingWrites mine tree ↔ tree[x.1]? = some x.2 ∧ mine[x.1]? ≠ some x.2 := by
  rw [pendingWrites, List.mem_filter, Std.ExtTreeMap.mem_toList_iff_getElem?_eq_some,
    decide_eq_true_iff]

/-- The own tree has the path, and the new tree has not. -/
def Dropped (mine tree : Entries) (q : String) : Prop := mine[q]? ≠ none ∧ tree[q]? = none

lemma mem_keys_iff_dropped {q : String} : q ∈ mine.keys ∧ q ∉ tree ↔ Dropped mine tree q := by
  rw [Std.ExtTreeMap.mem_keys, Std.ExtTreeMap.mem_iff_isSome_getElem?,
    Std.ExtTreeMap.mem_iff_isSome_getElem?, Dropped]
  cases mine[q]? <;> cases tree[q]? <;> simp

/-- **The run.**  The writes go through one after the other, and what is dropped is there
afterwards. -/
lemma installTree_spec (env : DiskEnv F) (disk : Disk F)
    (hpath : ∀ x ∈ pendingWrites mine tree, NormalPath x.1)
    (hfetch : ∀ x ∈ pendingWrites mine tree, fetch x.2 = .ok (content x.2))
    (hdrop : ∀ q, Dropped mine tree q → NormalPath q) :
    (LandsAll env content (pendingWrites mine tree) disk.files (· ∈ disk.dirs) ∧
        (∀ q, Dropped mine tree q → q ∈ lay env content (pendingWrites mine tree) disk.files ∧
          env.stuck q = false) →
      ∃ disk' n, installTree env fetch mine tree disk = (disk', .ok n) ∧
        ∀ q, (Dropped mine tree q → disk'.files[q]? = none) ∧
          (¬Dropped mine tree q →
            disk'.files[q]? = (lay env content (pendingWrites mine tree) disk.files)[q]?)) ∧
    (¬(LandsAll env content (pendingWrites mine tree) disk.files (· ∈ disk.dirs) ∧
        ∀ q, Dropped mine tree q → q ∈ lay env content (pendingWrites mine tree) disk.files ∧
          env.stuck q = false) →
      ∃ disk' e, installTree env fetch mine tree disk = (disk', .error e)) := by
  have hskip : materialize env fetch (fun x => decide (mine[x.1]? = some x.2)) tree.toList disk =
      materialize env fetch (fun _ => false) (pendingWrites mine tree) disk := by
    rw [materialize_filter, pendingWrites]
    simp only [ne_eq, decide_not]
  obtain ⟨hgo, hstop⟩ := materialize_spec env content (pendingWrites mine tree) hpath hfetch
    disk
  rw [installTree, hskip]
  by_cases hl : LandsAll env content (pendingWrites mine tree) disk.files (· ∈ disk.dirs)
  swap
  · obtain ⟨disk₁, e, h₁⟩ := hstop hl
    rw [h₁]
    exact ⟨fun h => absurd h.1 hl, fun _ => ⟨_, _, rfl⟩⟩
  obtain ⟨disk₁, h₁, hfiles₁, -⟩ := hgo hl
  have hnodup : mine.keys.Nodup := mine.distinct_keys.imp fun h heq => h (by simp [heq])
  obtain ⟨hremove, hnoremove⟩ := removeDropped_spec env tree hnodup
    (fun q hq hnot => hdrop q (mem_keys_iff_dropped.1 ⟨hq, hnot⟩)) disk₁
  simp only [← and_imp, mem_keys_iff_dropped, hfiles₁] at hremove hnoremove
  rw [h₁]
  dsimp only
  constructor
  · rintro ⟨-, hall⟩
    obtain ⟨disk₂, n, h₂, hfiles₂⟩ := hremove hall
    rw [h₂]
    exact ⟨disk₂, _, rfl, hfiles₂⟩
  · intro hnot
    obtain ⟨disk₂, e, h₂⟩ := hnoremove fun hall => hnot ⟨hl, hall⟩
    rw [h₂]
    exact ⟨_, _, rfl⟩

/-- **The installation.**  The directory is brought to the tree, placeholders included, exactly
when nothing is in the way. -/
theorem installTree_iff
    (hfree : ∀ a b : String, tree[a]? ≠ none → tree[b]? ≠ none → ¬DirPrefix a b)
    (hfetch : ∀ x ∈ pendingWrites mine tree, fetch x.2 = .ok (content x.2))
    (hmine : ∀ p : String, mine[p]? =
      (disk.files[p]?.map (scanEntry P index p)).or placeholders[p]?)
    (hpruned : ∀ p ∈ disk.files, placeholders[p]? = none) :
    (∃ disk' n, installTree env fetch mine tree disk = (disk', .ok n) ∧
        ∀ p : String, (disk'.files[p]?.map (scanEntry P index p)).or placeholders[p]? = tree[p]?) ↔
      Installs P env disk mine index content tree := by
  have hin : ∀ x ∈ pendingWrites mine tree, tree[x.1]? ≠ none := fun x hx => by
    rw [(mem_pendingWrites.1 hx).1]
    exact Option.some_ne_none _
  have hsorted : (pendingWrites mine tree).Pairwise fun x y => compare x.1 y.1 = .lt :=
    Std.ExtTreeMap.ordered_keys_toList.filter _
  have hkept := landsAll_kept_iff env content disk.files (· ∈ disk.dirs)
    hsorted fun x hx y hy => hfree x.1 y.1 (hin x hx) (hin y hy)
  -- a path of the own tree is on disk or evicted, not both
  have hcases : ∀ p : String, disk.files[p]? = none ∧ mine[p]? = placeholders[p]? ∨
      ∃ f, disk.files[p]? = some f ∧ mine[p]? = some (scanEntry P index p f) ∧
        placeholders[p]? = none := by
    intro p
    rcases hf : disk.files[p]? with _ | f
    · refine Or.inl ⟨rfl, ?_⟩
      rw [hmine, hf]
      rfl
    · refine Or.inr ⟨f, rfl, ?_, hpruned p (Disk.mem_of_getElem? hf)⟩
      rw [hmine, hf]
      rfl
  constructor
  · rintro ⟨disk', n, hrun, htree⟩
    -- what is written is on disk afterwards, and what is dropped was there before
    have hwritten : ∀ x ∈ pendingWrites mine tree, ∃ g, disk'.files[x.1]? = some g ∧
        scanEntry P index x.1 g = x.2 := by
      intro x hx
      obtain ⟨hx, hne⟩ := mem_pendingWrites.1 hx
      have hfinal := (htree x.1).trans hx
      rcases hg : disk'.files[x.1]? with _ | g
      · rw [hg] at hfinal
        have hplace : placeholders[x.1]? = some x.2 := hfinal
        rcases hcases x.1 with ⟨-, hm⟩ | ⟨f, -, -, hnone⟩
        · exact absurd (hm.trans hplace) hne
        · rw [hnone] at hplace
          cases hplace
      · rw [hg] at hfinal
        exact ⟨g, rfl, Option.some.inj hfinal⟩
    have hdropped : ∀ q, Dropped mine tree q → q ∈ disk.files ∧ placeholders[q]? = none := by
      rintro q ⟨hm, ht⟩
      have hplace : placeholders[q]? = none := (Option.or_eq_none_iff.1 ((htree q).trans ht)).2
      rcases hcases q with ⟨-, hm'⟩ | ⟨f, hf, -, -⟩
      · exact absurd (hm'.trans hplace) hm
      · exact ⟨Disk.mem_of_getElem? hf, hplace⟩
    have hnormal : ∀ {D : Disk F} {p : String}, p ∈ D.files → NormalPath p := fun {D p} h =>
      F.names_normal p (D.named p (Or.inl h))
    have hpath : ∀ x ∈ pendingWrites mine tree, NormalPath x.1 := fun x hx => by
      obtain ⟨g, hg, -⟩ := hwritten x hx
      exact hnormal (Disk.mem_of_getElem? hg)
    obtain ⟨hgo, hstop⟩ := installTree_spec env disk hpath hfetch fun q hq =>
      hnormal (hdropped q hq).1
    by_cases hok : LandsAll env content (pendingWrites mine tree) disk.files (· ∈ disk.dirs) ∧
        ∀ q, Dropped mine tree q → q ∈ lay env content (pendingWrites mine tree) disk.files ∧
          env.stuck q = false
    swap
    · obtain ⟨disk'', e, herr⟩ := hstop hok
      cases (Prod.mk.inj (hrun.symm.trans herr)).2
    obtain ⟨disk'', n', hrun', hfiles⟩ := hgo hok
    obtain rfl := (Prod.mk.inj (hrun.symm.trans hrun')).1
    have hself : ∀ x ∈ pendingWrites mine tree,
        (lay env content (pendingWrites mine tree) disk.files)[x.1]? =
          some (landed env x.2 (content x.2)) ∧
        disk'.files[x.1]? = (lay env content (pendingWrites mine tree) disk.files)[x.1]? := by
      intro x hx
      have hsame := (hfiles x.1).2 fun h => hin x hx h.2
      obtain ⟨g, hg, -⟩ := hwritten x hx
      refine ⟨(lay_self_cases (hsorted.imp fun h => ne_of_compare_lt h) hx).resolve_right
        fun hnone => ?_, hsame⟩
      rw [hsame, hnone] at hg
      cases hg
    refine ⟨fun x hx => ⟨hpath x hx, ?_⟩, fun x hx => ?_, fun q hm ht =>
      ⟨(hdropped q ⟨hm, ht⟩).1, (hok.2 q ⟨hm, ht⟩).2⟩⟩
    · refine (hkept.1 ⟨hok.1, fun y hy => (hself y hy).1, fun q hq => ?_⟩) x hx
      rcases lay_cases hq with h | hnone
      · exact h
      rcases hcases q with ⟨hf, -⟩ | ⟨f, -, hm, hplace⟩
      · rw [hnone, hf]
      · -- a file that was taken is missed, by the removal or by the scan
        have hdrop : Dropped mine tree q := by
          by_contra hnot
          have hfinal := htree q
          rw [(hfiles q).2 hnot, hnone, hplace] at hfinal
          exact hnot ⟨by rw [hm]; exact Option.some_ne_none _, hfinal.symm⟩
        obtain ⟨g, hg⟩ := Disk.exists_of_mem (hok.2 q hdrop).1
        rw [hnone] at hg
        cases hg
    · obtain ⟨g, hg, hseen⟩ := hwritten x hx
      obtain ⟨hlaid, hsame⟩ := hself x hx
      rw [hsame, hlaid] at hg
      rwa [Option.some.inj hg]
  · intro h
    obtain ⟨hlands, hself, hstay⟩ := hkept.2 fun x hx => (h.clear x hx).2
    have hthere : ∀ q, Dropped mine tree q →
        q ∈ lay env content (pendingWrites mine tree) disk.files ∧ env.stuck q = false := by
      rintro q ⟨hm, ht⟩
      obtain ⟨hmem, hstuck⟩ := h.dropped q hm ht
      obtain ⟨f, hf⟩ := Disk.exists_of_mem hmem
      refine ⟨Disk.mem_of_getElem? (f := f) ?_, hstuck⟩
      rw [hstay q fun x hx hxq => hin x hx (hxq ▸ ht), hf]
    obtain ⟨disk', n, hrun, hfiles⟩ := (installTree_spec env disk
      (fun x hx => (h.clear x hx).1) hfetch fun q hq => F.names_normal q
        (disk.named q (Or.inl (h.dropped q hq.1 hq.2).1))).1 ⟨hlands, hthere⟩
    refine ⟨disk', n, hrun, fun p => ?_⟩
    by_cases hdrop : Dropped mine tree p
    · rw [(hfiles p).1 hdrop, hpruned p (h.dropped p hdrop.1 hdrop.2).1, hdrop.2]
      rfl
    rw [(hfiles p).2 hdrop]
    by_cases hw : ∃ e, (p, e) ∈ pendingWrites mine tree
    · obtain ⟨e, he⟩ := hw
      rw [hself _ he, Option.map_some, h.seen _ he, (mem_pendingWrites.1 he).1]
      rfl
    · push Not at hw
      rw [hstay p fun x hx hxp => hw x.2 (hxp ▸ hx), ← hmine]
      rcases ht : tree[p]? with _ | e
      · by_contra hm
        exact hdrop ⟨hm, ht⟩
      · by_contra hm
        exact hw e (mem_pendingWrites.2 ⟨ht, hm⟩)

end

/-! ## The whole converge -/

section

variable {P : Platform} {key : Keypair} {around : SyncEnv} {env : DiskEnv F} {deviceId : String}
  {disk disk' : Disk F} {d d' : Device} {s s' : SyncServer} {out : FoldOutcome}
  {refuse : String → Option ServerError} {fault : Option PersistError}

/-- A push leaves the index and the placeholders as its scan did. -/
lemma pushTree_scanned (P : Platform) (refuse : String → Option ServerError) (d : Device)
    (s : SyncServer) :
    (pushTree P refuse d s).1.index = (logicalTree P d).2.index ∧
      (pushTree P refuse d s).1.placeholders = (logicalTree P d).2.placeholders := by
  unfold pushTree
  rcases logicalTree P d with ⟨m, d₁⟩
  dsimp only
  repeat' split
  all_goals exact ⟨rfl, rfl⟩

lemma backupFrontier_scanned (P : Platform) (key : Keypair)
    (refuse : String → Option ServerError) (fault : Option PersistError) (deviceId : String)
    (d : Device) (s : SyncServer) :
    (backupFrontier P key refuse fault deviceId d s).1.index = (logicalTree P d).2.index ∧
      (backupFrontier P key refuse fault deviceId d s).1.placeholders =
        (logicalTree P d).2.placeholders := by
  have hpush := pushTree_scanned P refuse d s
  unfold backupFrontier
  rcases h : pushTree P refuse d s with ⟨d₁, s₁, e | pushed⟩
  · rwa [h] at hpush
  rw [h] at hpush
  dsimp only
  repeat' split
  all_goals exact hpush

/-- After its own publication the device finds its own tree among the heads. -/
lemma FoldReached.mine (hP : P.Lawful) (h : FoldReached P key around deviceId d s d' s' out) :
    ∃ trees base, fetchHeads P key.verifyingKey s' s'.heads = .ok trees ∧
      fetchBase P s' d'.base = .ok base ∧ fold P.crypto P.codec trees base = .ok out ∧
      trees[deviceId]? = some (logicalTree P d).1 := by
  obtain ⟨⟨report, hpub⟩, trees, base, htrees, hbase, hfold⟩ := h
  refine ⟨trees, base, htrees, hbase, hfold, ?_⟩
  obtain ⟨-, ⟨-, e, he⟩ | ⟨report', m, hr, hm, hacc⟩⟩ := backupFrontier_spec hP hpub
  · cases he
  obtain rfl := Except.ok.inj hr
  have hown : s'.heads[deviceId]? = some report.deviceHeadCid := by
    simp [SyncServer.heads, SyncServer.frontier, hm, hacc.heads]
  obtain ⟨tree, hget, htree⟩ := fetchHeads_getElem? htrees hown
  obtain ⟨head, hnamed, hroot⟩ := fetchHead_named hget
  obtain ⟨head', hnamed', hroot', -⟩ := hacc.head
  obtain rfl := hnamed.unique hP hnamed'
  rw [hroot'] at hroot
  rw [htree, hroot.unique hP hacc.tree]

/-- The middle of the converge installs the folded tree in the place of the own one. -/
lemma convergeFoldOn_ok_iff (hP : P.Lawful) (h : FoldReached P key around deviceId d s d' s' out) :
    (∃ m, convergeFoldOn P key env deviceId disk d' s' = (disk', .ok m)) ↔
      ∃ n, installTree env (fetchContent P d' s') (logicalTree P d).1.entries out.tree.entries disk =
        (disk', .ok n) := by
  obtain ⟨trees, base, htrees, hbase, hfold, hmine⟩ := h.mine hP
  have hfrontier : ∃ view, s'.frontier = some view ∧ view.heads = s'.heads := by
    rcases hf : s'.frontier with _ | view
    · exfalso
      have hempty : s'.heads = ∅ := by simp [SyncServer.heads, hf]
      have hnone : trees = ∅ := by
        have hfetch : fetchHeads P key.verifyingKey s' s'.heads = .ok ∅ := by
          rw [hempty]
          rfl
        exact Except.ok.inj (htrees.symm.trans hfetch)
      simp [hnone] at hmine
    · exact ⟨view, rfl, by simp [SyncServer.heads, hf]⟩
  obtain ⟨view, hview, hheads⟩ := hfrontier
  rw [convergeFoldOn, hview]
  dsimp only
  rw [hheads, htrees]
  dsimp only
  rw [hbase]
  dsimp only
  rw [hfold]
  dsimp only
  rw [hmine, Option.getD_some]
  rcases installTree env (fetchContent P d' s') (logicalTree P d).1.entries out.tree.entries disk
    with ⟨disk₁, e | ⟨written, deleted⟩⟩
  · simp
  · simp

/-- What is published names the tree of the directory as it is then. -/
lemma convergeAdopt_ok (hP : P.Lawful) {report : FrontierReport}
    (h : convergeAdopt P key around deviceId d s = (d', s', .ok report)) :
    d'.base = some report.pushed.fsManifestCid ∧
      TreeNamed P report.pushed.fsManifestCid (logicalTree P d).1 ∧
      (logicalTree P d).1.contentId P.crypto P.codec = .ok report.pushed.fsManifestCid := by
  unfold convergeAdopt at h
  rcases hb : backupFrontier P key around.refuse around.fault deviceId d s with ⟨d₁, s₁, e | r⟩
  · rw [hb] at h
    cases (Prod.mk.inj (Prod.mk.inj h).2).2
  · rw [hb] at h
    simp only [Prod.mk.injEq, Except.ok.injEq] at h
    obtain ⟨rfl, rfl, rfl⟩ := h
    obtain ⟨-, ⟨-, e, he⟩ | ⟨report', m, hr, -, hacc⟩⟩ := backupFrontier_spec hP hb
    · cases he
    obtain rfl := Except.ok.inj hr
    exact ⟨rfl, hacc.tree, hacc.treeCid⟩

/-- A file on disk has no placeholder after a scan. -/
lemma placeholders_logicalTree {p : String} (h : p ∈ d.files) :
    (logicalTree P d).2.placeholders[p]? = none := by
  have hscan : (scanTreeIndexed P d).contains p = true := by
    rw [scanTreeIndexed, Std.ExtTreeMap.contains_map]
    exact Std.ExtTreeMap.mem_iff_contains.1 h
  change (d.placeholders.filter fun path _ => !(scanTreeIndexed P d).contains path)[p]? = none
  rw [Std.ExtTreeMap.getElem?_filter']
  cases d.placeholders[p]? <;> simp [hscan]

/-- The own tree, read off the device after its scan. -/
lemma logicalTree_scanned (p : String) : (logicalTree P d).1.entries[p]? =
    (d.files[p]?.map (scanEntry P (logicalTree P d).2.index p)).or
      (logicalTree P d).2.placeholders[p]? := by
  rw [logicalTree_getElem?, ← entryAt_logicalTree]
  rfl

/-- **What a converge does after its first publication**, in terms of the fold and the adoption. -/
lemma convergeOn_eq_ok {d'' : Device} {s'' : SyncServer} {pushed : FrontierReport}
    {report : ConvergeReport} (hpub : backupFrontier P key around.refuse around.fault deviceId
      (d.on disk) s = (d', s', .ok pushed)) :
    convergeOn P key around env deviceId disk d s = (disk', d'', s'', .ok report) ↔
      ∃ m adopted, convergeFoldOn P key env deviceId disk d' s' = (disk', .ok m) ∧
        convergeAdopt P key around deviceId (d'.on disk') s' = (d'', s'', .ok adopted) ∧
        report = ⟨m.tree.entries.size, m.filesWritten, m.filesDeleted, m.conflicts,
          adopted.pushed.fsManifestCid, adopted.manifestSeq⟩ := by
  rw [convergeOn, hpub]
  dsimp only
  rcases convergeFoldOn P key env deviceId disk d' s' with ⟨disk₁, e | m⟩
  · simp
  · dsimp only
    rcases hadopt : convergeAdopt P key around deviceId (d'.on disk₁) s' with ⟨d₂, s₂, e | r⟩
    · constructor
      · simp
      · rintro ⟨m', r', hfold, hok, -⟩
        obtain rfl : disk₁ = disk' := congrArg Prod.fst hfold
        rw [hadopt] at hok
        simp at hok
    · constructor
      · intro h
        simp only [Prod.mk.injEq, Except.ok.injEq] at h
        obtain ⟨rfl, rfl, rfl, rfl⟩ := h
        exact ⟨m, r, rfl, hadopt, rfl⟩
      · rintro ⟨m', r', hfold, hok, rfl⟩
        simp only [Prod.mk.injEq, Except.ok.injEq] at hfold
        obtain ⟨rfl, rfl⟩ := hfold
        rw [hadopt] at hok
        simp only [Prod.mk.injEq, Except.ok.injEq] at hok
        obtain ⟨rfl, rfl, rfl⟩ := hok
        rfl

end

/-- **Converge publishes the folded tree** exactly when nothing on the disk is in its way.  After
the first publication and the fetches, with every chunk at hand and a server that takes what is
published next, the converge succeeds, publishes the folded tree and records it as the next base
if and only if the folded tree can be installed. -/
theorem converge_publishes_fold_iff {P : Platform} (hP : P.Lawful) (key : Keypair)
    (around : SyncEnv) (env : DiskEnv F) (deviceId : String) (disk : Disk F) (d d' : Device)
    (s s' : SyncServer) (out : FoldOutcome) (content : FileEntry → Bytes)
    (hreach : FoldReached P key around deviceId (d.on disk) s d' s' out)
    (hfree : PrefixFree out.tree)
    (hfetch : ∀ (p : String) e, out.tree.entries[p]? = some e →
      fetchContent P d' s' e = .ok (content e))
    (haccept : ∀ disk' m, convergeFoldOn P key env deviceId disk d' s' = (disk', .ok m) →
      ∃ report, (convergeAdopt P key around deviceId (d'.on disk') s').2.2 = .ok report) :
    (∃ disk' d'' s'' report,
        convergeOn P key around env deviceId disk d s = (disk', d'', s'', .ok report) ∧
        out.tree.contentId P.crypto P.codec = .ok report.fsManifestCid ∧
        d''.base = some report.fsManifestCid) ↔
      Installs P env disk (logicalTree P (d.on disk)).1.entries
        (logicalTree P (d.on disk)).2.index content out.tree.entries := by
  obtain ⟨report, hpub⟩ := hreach.published
  obtain ⟨_, _, -, -, hfold⟩ := hreach.folded
  have hscanned : d'.index = (logicalTree P (d.on disk)).2.index ∧
      d'.placeholders = (logicalTree P (d.on disk)).2.placeholders := by
    have h := backupFrontier_scanned P key around.refuse around.fault deviceId (d.on disk) s
    rwa [hpub] at h
  -- the tree of the directory after the installation
  have hentry : ∀ (disk' : Disk F) (p : String), (logicalTree P (d'.on disk')).1.entries[p]? =
      (disk'.files[p]?.map (scanEntry P (logicalTree P (d.on disk)).2.index p)).or
        (logicalTree P (d.on disk)).2.placeholders[p]? := by
    intro disk' p
    rw [logicalTree_getElem?, Device.entryAt, ← hscanned.1, ← hscanned.2]
    rfl
  have hsame : ∀ disk' : Disk F, (logicalTree P (d'.on disk')).1 = out.tree ↔
      ∀ p : String, (disk'.files[p]?.map (scanEntry P (logicalTree P (d.on disk)).2.index p)).or
        (logicalTree P (d.on disk)).2.placeholders[p]? = out.tree.entries[p]? := by
    intro disk'
    simp only [← hentry]
    constructor
    · intro h p
      rw [h]
    · intro h
      have hentries : (logicalTree P (d'.on disk')).1.entries = out.tree.entries :=
        Std.ExtTreeMap.ext_getElem? fun {p} => h p
      have hkind : (logicalTree P (d'.on disk')).1.kind = out.tree.kind := (fold_kind hfold).symm
      calc (logicalTree P (d'.on disk')).1
          = ⟨(logicalTree P (d'.on disk')).1.kind, (logicalTree P (d'.on disk')).1.entries⟩ := rfl
        _ = out.tree := by rw [hkind, hentries]
  rw [← installTree_iff hfree (fun x hx => hfetch x.1 x.2 (mem_pendingWrites.1 hx).1)
    logicalTree_scanned fun p hp => placeholders_logicalTree hp]
  simp only [← hsame]
  constructor
  · rintro ⟨disk', d'', s'', report', hrun, hcid, -⟩
    obtain ⟨m, r, hmid, hadopt, rfl⟩ := (convergeOn_eq_ok hpub).1 hrun
    obtain ⟨n, hn⟩ := (convergeFoldOn_ok_iff hP hreach).1 ⟨m, hmid⟩
    obtain ⟨-, hnamed, -⟩ := convergeAdopt_ok hP hadopt
    obtain ⟨bytes, henc, hbytes⟩ := bind_eq_ok.1 hcid
    have hout := treeNamed_of_encode hP (fold_kind hfold) henc
    rw [Except.ok.inj hbytes] at hout
    exact ⟨disk', n, hn, hnamed.unique hP hout⟩
  · rintro ⟨disk', n, hn, htree⟩
    obtain ⟨m, hmid⟩ := (convergeFoldOn_ok_iff hP hreach).2 ⟨n, hn⟩
    obtain ⟨r, hr⟩ := haccept disk' m hmid
    rcases hadopt : convergeAdopt P key around deviceId (d'.on disk') s' with ⟨d₂, s₂, r'⟩
    rw [hadopt] at hr
    obtain rfl : r' = .ok r := hr
    obtain ⟨hbase, -, hcid⟩ := convergeAdopt_ok hP hadopt
    refine ⟨disk', d₂, s₂, ⟨m.tree.entries.size, m.filesWritten, m.filesDeleted, m.conflicts,
      r.pushed.fsManifestCid, r.manifestSeq⟩, ?_, ?_, hbase⟩
    · exact (convergeOn_eq_ok hpub).2 ⟨m, r, hmid, hadopt, rfl⟩
    · rw [← htree]
      exact hcid

/-! ### A file that is dropped

`dev-a` has converged on `f` and `g`, and the head of `dev-b` is still the one without `g`: the
next converge of `dev-a` drops `g`.  In one run `g` is on disk, in the other it was evicted. -/

namespace TwoDevices

/-- What `dev-a` and `dev-b` have committed last. -/
def committed : Manifest where
  leaves := [⟨treeFCid, 174⟩, ⟨fileTwoCid, 3⟩, ⟨fileOneCid, 3⟩, ⟨headA2Cid, 345⟩, ⟨treeFGCid, 312⟩,
    ⟨headB2Cid, 345⟩]
  root := "ab3fd20263e77229690761fe6f27df07d1498e1017c693049a721be6c0c6f5fb"
  totalBytes := 1182
  signerId := "id:fe812c12f3ab4ce6ac5db69ac352f906cb1b11ef43fb33e252ef7ff552263889"
  seq := 4
  signature := String.join ["a6d87bcf5f66cb8e685e5dd59da5f415973e1018751d4f5df6cec84dc3ffb911",
    "d944194645426702c24ffb8e4e50bdba00b6a0ffadcdc4e0a8ac762b3a0ce701"]
  heads := some ((∅ : HeadCids).insertMany [("dev-a", headA2Cid), ("dev-b", headB2Cid)])

def account4 : SyncServer :=
  ⟨(∅ : ByCid Bytes).insertMany [(fileOneCid, asBytes "one"), (fileTwoCid, asBytes "two"),
    (treeFCid, treeF.toCbor), (treeFGCid, treeFG.toCbor), (headA2Cid, headA2.toCbor),
    (headB2Cid, headB2.toCbor)], ⟨.active, some committed⟩⟩

/-- `dev-a` after its first converge. -/
def settledA : Device :=
  { fresh [] with
    index := (∅ : Entries).insertMany [("f", fileOne), ("g", fileTwo)]
    counter := 2
    lastHead := some headA2Cid
    base := some treeFGCid }

def bothOnDisk : Disk posix :=
  diskOf [("f", ⟨420, 1, 0, asBytes "one"⟩), ("g", ⟨420, 1, 0, asBytes "two"⟩)]

/-- The first publication of the converge. -/
def published : Device × SyncServer × Except SyncError FrontierReport :=
  backupFrontier platform account env.refuse env.fault "dev-a" (settledA.on bothOnDisk) account4

def evictedA : Device := { settledA with placeholders := (∅ : Entries).insert "g" fileTwo }

def oneOnDisk : Disk posix := diskOf [("f", ⟨420, 1, 0, asBytes "one"⟩)]

def publishedEvicted : Device × SyncServer × Except SyncError FrontierReport :=
  backupFrontier platform account env.refuse env.fault "dev-a" (evictedA.on oneOnDisk) account4

/-- The fold of what the heads name after a publication. -/
def foldedAfter (x : Device × SyncServer × Except SyncError FrontierReport) :
    Except SyncError FoldOutcome := do
  let trees ← fetchHeads platform account.verifyingKey x.2.1 x.2.1.heads
  let base ← fetchBase platform x.2.1 x.1.base
  fold platform.crypto platform.codec trees base

/-- What the publication with both files on disk is seen to do, and what the folded tree changes
there. -/
lemma published_observed :
    (pendingWrites (logicalTree platform (settledA.on bothOnDisk)).1.entries treeF.entries = [] ∧
      (∀ x ∈ (logicalTree platform (settledA.on bothOnDisk)).1.entries.toList,
        treeF.entries[x.1]? = none → x.1 ∈ bothOnDisk.files) ∧
      ∀ x ∈ treeF.entries.toList, x.2 = fileOne) ∧
    published.2.2.toOption.isSome = true ∧
      (foldedAfter published).toOption.map (·.tree) = some treeF ∧
      (fetchContent platform published.1 published.2.1 fileOne).toOption = some (asBytes "one") ∧
      (convergeAdopt platform account env "dev-a" (published.1.on
        (convergeFoldOn platform account (quiet posix) "dev-a" bothOnDisk published.1
          published.2.1).1) published.2.1).2.2.toOption.isSome = true := by
  decide +kernel

/-- What the publication with `g` evicted is seen to do. -/
lemma publishedEvicted_observed :
    (∀ x ∈ oneOnDisk.files.toList, 0 ≤ x.2.mtimeSecs) ∧
    publishedEvicted.2.2.toOption.isSome = true ∧
      (foldedAfter publishedEvicted).toOption.map (·.tree) = some treeF ∧
      (fetchContent platform publishedEvicted.1 publishedEvicted.2.1 fileOne).toOption.isSome =
        true ∧
      (convergeFoldOn platform account (quiet posix) "dev-a" oneOnDisk publishedEvicted.1
        publishedEvicted.2.1).2.toOption.isNone = true := by
  decide +kernel

/-- The one file of the folded tree. -/
lemma eq_fileOne_of_treeF {p : String} {e : FileEntry} (h : treeF.entries[p]? = some e) :
    e = fileOne := by
  obtain ⟨⟨-, -, hall⟩, -⟩ := published_observed
  exact hall (p, e) (Std.ExtTreeMap.mem_toList_iff_getElem?_eq_some.2 h)

lemma foldReached_of_observed {d : Device} {s : SyncServer}
    {x : Device × SyncServer × Except SyncError FrontierReport}
    (hx : backupFrontier platform account env.refuse env.fault "dev-a" d s = x)
    (hok : x.2.2.toOption.isSome = true) {out : FoldOutcome} (hout : foldedAfter x = .ok out) :
    FoldReached platform account env "dev-a" d s x.1 x.2.1 out where
  published := by
    obtain ⟨report, hr⟩ := Option.isSome_iff_exists.1 hok
    exact ⟨report, hx.trans (Prod.ext rfl (Prod.ext rfl (toOption_eq_some.1 hr)))⟩
  folded := by
    obtain ⟨trees, htrees, h⟩ := bind_eq_ok.1 hout
    obtain ⟨base, hbase, hfold⟩ := bind_eq_ok.1 h
    exact ⟨trees, base, htrees, hbase, hfold⟩

lemma exists_out {x : Except SyncError FoldOutcome} (h : x.toOption.map (·.tree) = some treeF) :
    ∃ out, x = .ok out ∧ out.tree = treeF := by
  obtain ⟨out, hx, htree⟩ := Option.map_eq_some_iff.1 h
  exact ⟨out, toOption_eq_some.1 hx, htree⟩

lemma prefixFree_treeF : PrefixFree treeF := by
  have honly : ∀ a : String, treeF.entries[a]? ≠ none → a = "f" := by
    intro a ha
    by_contra hne
    apply ha
    have hget : treeF.entries[a]? = (∅ : Entries)[a]? := by
      simp [treeF, treeOf, Std.ExtTreeMap.insertMany_list_eq_foldl, Ne.symm hne]
    rw [hget]
    simp
  intro a b ha hb h
  exact h.ne ((honly a ha).trans (honly b hb).symm)

end TwoDevices

lemma TwoDevices.installs_removed : Installs TwoDevices.platform (quiet posix) TwoDevices.bothOnDisk
    (logicalTree TwoDevices.platform (TwoDevices.settledA.on TwoDevices.bothOnDisk)).1.entries
    (logicalTree TwoDevices.platform (TwoDevices.settledA.on TwoDevices.bothOnDisk)).2.index
    (fun _ => asBytes "one") TwoDevices.treeF.entries := by
  obtain ⟨⟨hnone, hall, -⟩, -⟩ := TwoDevices.published_observed
  refine ⟨by simp [hnone], by simp [hnone], fun p hm ht => ⟨?_, rfl⟩⟩
  obtain ⟨e, he⟩ := Option.ne_none_iff_exists'.1 hm
  exact hall (p, e) (Std.ExtTreeMap.mem_toList_iff_getElem?_eq_some.2 he) ht

/-- With `g` on disk the converge removes it and publishes the tree with `f` alone. -/
theorem converge_publishes_fold_iff_removed :
    ∃ disk' d' s' report, convergeOn TwoDevices.platform TwoDevices.account TwoDevices.env
        (quiet posix) "dev-a" TwoDevices.bothOnDisk TwoDevices.settledA TwoDevices.account4 =
          (disk', d', s', .ok report) ∧
      TwoDevices.treeF.contentId TwoDevices.platform.crypto TwoDevices.platform.codec =
        .ok report.fsManifestCid ∧
      d'.base = some report.fsManifestCid := by
  obtain ⟨-, hok, hfold, hcontent, hadopt⟩ := TwoDevices.published_observed
  obtain ⟨out, hout, htree⟩ := TwoDevices.exists_out hfold
  have hreach := TwoDevices.foldReached_of_observed (x := TwoDevices.published)
    (d := TwoDevices.settledA.on TwoDevices.bothOnDisk) (s := TwoDevices.account4) rfl hok hout
  have h := converge_publishes_fold_iff TwoDevices.lawful TwoDevices.account TwoDevices.env
    (quiet posix) "dev-a" TwoDevices.bothOnDisk TwoDevices.settledA TwoDevices.published.1
    TwoDevices.account4 TwoDevices.published.2.1 out (fun _ => asBytes "one") hreach
    (by rw [htree]; exact TwoDevices.prefixFree_treeF) ?_ ?_
  · rw [htree] at h
    exact h.2 TwoDevices.installs_removed
  · intro p e he
    rw [htree] at he
    rw [TwoDevices.eq_fileOne_of_treeF he]
    exact toOption_eq_some.1 hcontent
  · intro disk' m hrun
    rw [show disk' = _ from (congrArg Prod.fst hrun).symm]
    obtain ⟨report, hr⟩ := Option.isSome_iff_exists.1 hadopt
    exact ⟨report, toOption_eq_some.1 hr⟩

/-- With `g` evicted the converge fails when it comes to remove it. -/
theorem evicted_file_stops_converge :
    ¬ ∀ (P : Platform), P.Lawful → ∀ (F : FileSystem) (key : Keypair) (around : SyncEnv)
      (deviceId : String) (disk : Disk F) (d d' : Device) (s s' : SyncServer) (out : FoldOutcome),
      FoldReached P key around deviceId (d.on disk) s d' s' out → PrefixFree out.tree →
      (∀ (p : String) f, disk.files[p]? = some f → 0 ≤ f.mtimeSecs) →
      (∀ (p : String) e, out.tree.entries[p]? = some e →
        0 ≤ e.mtimeSecs ∧ ∃ content, fetchContent P d' s' e = .ok content) →
      (∀ disk' m, convergeFoldOn P key (quiet F) deviceId disk d' s' = (disk', .ok m) →
        ∃ report, (convergeAdopt P key around deviceId (d'.on disk') s').2.2 = .ok report) →
      ∃ disk' d'' s'' report,
        convergeOn P key around (quiet F) deviceId disk d s = (disk', d'', s'', .ok report) ∧
        out.tree.contentId P.crypto P.codec = .ok report.fsManifestCid ∧
        d''.base = some report.fsManifestCid := by
  intro hclaim
  obtain ⟨hall, hok, hfold, hcontent, hfails⟩ := TwoDevices.publishedEvicted_observed
  obtain ⟨out, hout, htree⟩ := TwoDevices.exists_out hfold
  have hreach := TwoDevices.foldReached_of_observed (x := TwoDevices.publishedEvicted)
    (d := TwoDevices.evictedA.on TwoDevices.oneOnDisk) (s := TwoDevices.account4) rfl hok hout
  have hstops : ∀ disk' m, convergeFoldOn TwoDevices.platform TwoDevices.account (quiet posix)
      "dev-a" TwoDevices.oneOnDisk TwoDevices.publishedEvicted.1 TwoDevices.publishedEvicted.2.1 ≠
        (disk', .ok m) := by
    intro disk' m hrun
    rw [hrun] at hfails
    cases hfails
  have hmtime : ∀ (p : String) f, TwoDevices.oneOnDisk.files[p]? = some f → 0 ≤ f.mtimeSecs :=
    fun p f hf => hall (p, f) (Std.ExtTreeMap.mem_toList_iff_getElem?_eq_some.2 hf)
  have hfetch : ∀ (p : String) e, out.tree.entries[p]? = some e → 0 ≤ e.mtimeSecs ∧
      ∃ content, fetchContent TwoDevices.platform TwoDevices.publishedEvicted.1
        TwoDevices.publishedEvicted.2.1 e = .ok content := by
    intro p e he
    rw [htree] at he
    obtain rfl : e = fileOne := TwoDevices.eq_fileOne_of_treeF he
    obtain ⟨content, hc⟩ := Option.isSome_iff_exists.1 hcontent
    exact ⟨by decide, content, toOption_eq_some.1 hc⟩
  obtain ⟨disk', d'', s'', report, hrun, -⟩ := hclaim TwoDevices.platform TwoDevices.lawful posix
    TwoDevices.account TwoDevices.env "dev-a" TwoDevices.oneOnDisk TwoDevices.evictedA
    TwoDevices.publishedEvicted.1 TwoDevices.account4 TwoDevices.publishedEvicted.2.1 out hreach
    (by rw [htree]; exact TwoDevices.prefixFree_treeF) hmtime hfetch fun disk' m hrun =>
      absurd hrun (hstops disk' m)
  obtain ⟨r, hpub⟩ := hreach.published
  obtain ⟨m, -, hmid, -⟩ := (convergeOn_eq_ok hpub).1 hrun
  exact hstops disk' m hmid

end Ciss
