import Ciss.Sync.KeepSet
import Ciss.Sync.Verdict

/-!
# A converged change and the heads that lag behind

After a converge the device's base is the tree it has just published.  A device that has not
converged since still has its older head in the frontier, and the next fold compares that head
with the new base: what it lacks looks deleted, what it has in an older version looks edited.

`Settled` says that no head lags behind at a path, and `converged_entry_stays` that a path stays
as a converge left it through every run in which each further fold of the device finds it
settled.  What carries it is `Converged`: the device's file, its tree, its base and its published
head all agree at the path.
-/

namespace Ciss

/-! ## The fold at a settled path -/

section

variable (trees : Heads) (base : Option FsManifest) (δ : FileEntry → String) (p : String)

/-- Where the device has the entry `e`, every head has its content and the last one, in device
order, has the entry itself; where the device has nothing, no head has anything and no conflict
is copied there. -/
def Settled : Option FileEntry → Prop
  | some e =>
      (∀ (d : String) (t : FsManifest), trees[d]? = some t →
        ∃ e', t.entries[p]? = some e' ∧ sameContent e e' = true) ∧
      ∃ (d : String) (t : FsManifest), trees[d]? = some t ∧ t.entries[p]? = some e ∧
        ∀ d' ∈ trees, d' ≤ d
  | none =>
      (∀ (d : String) (t : FsManifest), trees[d]? = some t → t.entries[p]? = none) ∧
      ∀ q d e, Loses trees base q δ d e → p ≠ conflictPath q d

/-- The fold brings nothing new to a path whose temporary file is `p`. -/
def TempFree (mine : Entries) : Prop :=
  ∀ r e, tmpPath r = p →
    (kept trees base r δ = some e ∨ ∃ q d, Loses trees base q δ d e ∧ r = conflictPath q d) →
      mine[r]? = some e

end

section

variable {C : Crypto} {K : Codec} {trees : Heads} {base : Option FsManifest} {p : String}
  {x : Option FileEntry} {out : FoldOutcome} {mine : Entries}

/-- A settled path folds to what the base has there. -/
lemma Settled.fold_eq (hs : Settled trees base (digestOf C K) p x) (hbase : baseEntry base p = x)
    (h : fold C K trees base = .ok out) : out.tree.entries[p]? = x := by
  cases x with
  | some e =>
      obtain ⟨hall, d, t, ht, he, hlast⟩ := hs
      have hnone : ∀ d e, ¬ Brings trees base p d e := by
        rintro d' e' ⟨⟨t', ht', he'⟩, hc⟩
        obtain ⟨e'', he'', hsame⟩ := hall d' t' ht'
        rw [he'] at he''
        obtain rfl := Option.some.inj he''
        have hun := isChanged_some_iff.mpr ⟨e, hbase, hsame⟩
        rw [hc] at hun
        simp at hun
      have hdel : deletedAt trees base p = false := by
        rw [← Bool.not_eq_true, deletedAt_eq_true_iff]
        rintro ⟨-, d', t', ht', hmiss⟩
        obtain ⟨e', he', -⟩ := hall d' t' ht'
        rw [hmiss] at he'
        simp at he'
      have hun : unchangedAt trees base p = some e := by
        refine unchangedAt_eq_some_iff.mpr (Or.inl ⟨d, ⟨⟨t, ht, he⟩, ?_⟩, ?_⟩)
        · exact isChanged_some_iff.mpr ⟨e, hbase, sameContent_refl e⟩
        · rintro d' e' ⟨⟨t', ht', -⟩, -⟩
          refine hlast d' ?_
          rw [Std.ExtTreeMap.mem_iff_isSome_getElem?, ht']
          rfl
      exact (fold_tree h).mpr (Or.inl (kept_eq_some_iff.mpr (Or.inr ⟨hnone, hdel, hun⟩)))
  | none =>
      obtain ⟨hall, hcopies⟩ := hs
      refine (fold_getElem?_eq_none_iff h).mpr ⟨(kept_eq_none_iff _).mpr ⟨?_, Or.inl hbase⟩, hcopies⟩
      rintro d e ⟨⟨t, ht, he⟩, -⟩
      rw [hall d t ht] at he
      simp at he

/-- No rewritten path has its temporary file at `p`. -/
lemma TempFree.tmpPath_ne (hf : TempFree trees base (digestOf C K) p mine)
    (h : fold C K trees base = .ok out) {r : String} {e : FileEntry}
    (hr : out.tree.entries[r]? = some e) (hmine : mine[r]? ≠ some e) : tmpPath r ≠ p := by
  intro htmp
  refine hmine (hf r e htmp ?_)
  rcases (fold_tree h).mp hr with hk | ⟨-, q, d, hl, hq, -⟩
  · exact Or.inl hk
  · exact Or.inr ⟨q, d, hl, hq⟩

end

/-! ## Materializing -/

/-- A short path is no temporary file. -/
lemma tmpPath_ne_of_length {p : String} (hp : p.length < 18) (r : String) : tmpPath r ≠ p := by
  rintro rfl
  have hinfix : ".ciss-restore-".toList.length = 14 := by decide
  have hsuffix : ".tmp".toList.length = 4 := by decide
  rw [tmpPath, String.length_ofList, List.length_append, List.length_append, List.length_append,
    hinfix, hsuffix] at hp
  omega

section

variable {P : Platform} {env : SyncEnv} {d : Device} {s : SyncServer} {mine tree : Entries}
  {p : String} {files files' : LocalFiles} {r : Except SyncError Nat}

/-- Writing leaves alone what is neither rewritten nor the temporary file of what is. -/
lemma writeFiles_getElem? {l : List (String × FileEntry)}
    (hl : ∀ x ∈ l, mine[x.1]? ≠ some x.2 → x.1 ≠ p ∧ tmpPath x.1 ≠ p)
    (h : writeFiles P env d s mine l files = (files', r)) : files'[p]? = files[p]? := by
  induction l generalizing files r with
  | nil =>
      obtain ⟨rfl, -⟩ := Prod.mk.inj h
      rfl
  | cons y l ih =>
      obtain ⟨path, entry⟩ := y
      have hl' : ∀ x ∈ l, mine[x.1]? ≠ some x.2 → x.1 ≠ p ∧ tmpPath x.1 ≠ p :=
        fun x hx => hl x (List.mem_cons_of_mem _ hx)
      unfold writeFiles at h
      split at h
      · exact ih hl' h
      rename_i hdiff
      obtain ⟨hne, htmp⟩ := hl (path, entry) (by simp) hdiff
      split at h
      · obtain ⟨rfl, -⟩ := Prod.mk.inj h
        rfl
      rename_i content _
      have hwrite : (writeVerifiedFile env path entry content files).1[p]? = files[p]? := by
        unfold writeVerifiedFile
        split
        · rfl
        · split
          · rfl
          · simp [Std.ExtTreeMap.getElem?_insert, Std.ExtTreeMap.getElem?_erase, hne, htmp]
      split at h
      · rename_i hw
        obtain ⟨rfl, -⟩ := Prod.mk.inj h
        rw [hw] at hwrite
        exact hwrite
      · rename_i files₁ hw
        rw [hw] at hwrite
        split at h
        · rename_i hrest
          obtain ⟨rfl, -⟩ := Prod.mk.inj h
          rw [ih hl' hrest, hwrite]
        · rename_i hrest
          obtain ⟨rfl, -⟩ := Prod.mk.inj h
          rw [ih hl' hrest, hwrite]

/-- Removing leaves alone what the tree keeps. -/
lemma removeFiles_getElem? {l : List String} (hl : ∀ q ∈ l, q ∉ tree → q ≠ p)
    (h : removeFiles tree l files = (files', r)) : files'[p]? = files[p]? := by
  induction l generalizing files r with
  | nil =>
      obtain ⟨rfl, -⟩ := Prod.mk.inj h
      rfl
  | cons q l ih =>
      have hl' : ∀ q ∈ l, q ∉ tree → q ≠ p :=
        fun q hq => hl q (List.mem_cons_of_mem _ hq)
      unfold removeFiles at h
      split at h
      · exact ih hl' h
      rename_i hc
      have hne : q ≠ p := hl q (by simp) (by rwa [← Std.ExtTreeMap.contains_iff_mem])
      have herase : (files.erase q)[p]? = files[p]? := by
        simp [Std.ExtTreeMap.getElem?_erase, hne]
      split at h
      · split at h
        · rename_i hrest
          obtain ⟨rfl, -⟩ := Prod.mk.inj h
          rw [ih hl' hrest, herase]
        · rename_i hrest
          obtain ⟨rfl, -⟩ := Prod.mk.inj h
          rw [ih hl' hrest, herase]
      · obtain ⟨rfl, -⟩ := Prod.mk.inj h
        rfl

end

/-! ## Reading the frontier -/

section

variable {P : Platform} {verifier : VerifyingKey} {s : SyncServer} {cid : String} {tree : FsManifest}

lemma fetchManifest_named (h : fetchManifest P s cid = .ok tree) : TreeNamed P cid tree := by
  unfold fetchManifest at h
  obtain ⟨bytes, hget, h⟩ := bind_eq_ok.mp h
  obtain ⟨-, -, h⟩ := bind_eq_ok.mp h
  exact ⟨bytes, SyncServer.get_eq_ok hget, h⟩

lemma fetchHead_named (h : fetchHead P verifier s cid = .ok tree) :
    ∃ head, HeadNamed P cid head ∧ TreeNamed P head.fsRoot tree := by
  unfold fetchHead at h
  obtain ⟨bytes, hget, h⟩ := bind_eq_ok.mp h
  obtain ⟨head, hdec, h⟩ := bind_eq_ok.mp h
  exact ⟨head, ⟨bytes, SyncServer.get_eq_ok hget, DeviceHead.decodeVerified_eq_ok hdec⟩,
    fetchManifest_named h⟩

lemma foldlM_fetchHead {l : List (String × String)} {trees trees' : Heads} {device : String}
    (h : l.foldlM (fun (trees : Heads) x => do
      let tree ← fetchHead P verifier s x.2
      return trees.insert x.1 tree) trees = .ok trees') (hc : lastWrite device l = some cid) :
    ∃ tree, fetchHead P verifier s cid = .ok tree ∧ trees'[device]? = some tree := by
  induction l using List.reverseRecOn generalizing trees' with
  | nil => simp at hc
  | append_singleton l x ih =>
      rw [List.foldlM_append] at h
      obtain ⟨mid, hmid, h⟩ := bind_eq_ok.mp h
      rw [List.foldlM_cons] at h
      obtain ⟨last, hx, hlast⟩ := bind_eq_ok.mp h
      obtain ⟨tree, htree, hins⟩ := bind_eq_ok.mp hx
      obtain rfl := Except.ok.inj hlast
      obtain rfl := Except.ok.inj hins
      rw [lastWrite_append, lastWrite_cons, lastWrite_nil, Option.none_or] at hc
      by_cases hd : x.1 = device
      · rw [if_pos hd, Option.some_or] at hc
        obtain rfl := Option.some.inj hc
        exact ⟨tree, htree, by simp [hd]⟩
      · rw [if_neg hd, Option.none_or] at hc
        obtain ⟨tree', htree', hmem⟩ := ih hmid hc
        exact ⟨tree', htree', by simp [Std.ExtTreeMap.getElem?_insert, hd, hmem]⟩

/-- Every head of the frontier is among the fetched trees. -/
lemma fetchHeads_getElem? {heads : HeadCids} {trees : Heads} {device : String}
    (h : fetchHeads P verifier s heads = .ok trees) (hc : heads[device]? = some cid) :
    ∃ tree, fetchHead P verifier s cid = .ok tree ∧ trees[device]? = some tree := by
  refine foldlM_fetchHead h ?_
  have hnodup : heads.toList.Pairwise fun w w' => w.1 ≠ w'.1 := by
    refine heads.ordered_keys_toList.imp ?_
    intro w w' hlt heq
    rw [heq] at hlt
    simp at hlt
  rw [lastWrite_eq_some_iff_of_nodup hnodup]
  exact Std.ExtTreeMap.mem_toList_iff_getElem?_eq_some.mpr hc

end

/-! ## The invariant -/

/-- What the fold of device `A` finds before it is carried out: the trees of the frontier and the
base, if both can be read, are settled at `p`. -/
def FoldSettled (P : Platform) (key : Keypair) (A p : String) (w : SyncWorld) : Prop :=
  ∀ trees base, fetchHeads P key.verifyingKey w.server w.server.heads = .ok trees →
    fetchBase P w.server (w.devices A).base = .ok base →
      Settled trees base (digestOf P.crypto P.codec) p ((w.devices A).entryAt P p) ∧
        TempFree trees base (digestOf P.crypto P.codec) p
          (trees[A]?.getD FsManifest.new).entries

/-- The step does not change `p` on device `A`, and if it is a fold of `A` it finds `p` settled. -/
def Undisturbed (P : Platform) (key : Keypair) (A p : String) (w : SyncWorld) :
    SyncAction → Prop
  | .write device path _ => device = A → path ≠ p
  | .remove device path => device = A → path ≠ p
  | .fold device _ => device = A → FoldSettled P key A p w
  | _ => True

/-- The file, the tree, the base and the published head of device `A` agree at `p`. -/
structure Converged (P : Platform) (A p : String) (f : Option LocalFile) (x : Option FileEntry)
    (w : SyncWorld) : Prop where
  file : (w.devices A).files[p]? = f
  entry : (w.devices A).entryAt P p = x
  base : ∃ cid tree, (w.devices A).base = some cid ∧ TreeNamed P cid tree ∧ tree.entries[p]? = x
  head : ∃ cid head tree, w.server.heads[A]? = some cid ∧ HeadNamed P cid head ∧
    TreeNamed P head.fsRoot tree ∧ tree.entries[p]? = x

section

variable {P : Platform} {key : Keypair} {A p : String} {f : Option LocalFile}
  {x : Option FileEntry} {w : SyncWorld}

lemma Device.entryAt_congr {d : Device} {files : LocalFiles} (h : files[p]? = d.files[p]?) :
    ({ d with files := files } : Device).entryAt P p = d.entryAt P p := by
  simp [Device.entryAt, h]

/-- **A fold that finds the path settled leaves it alone.** -/
lemma Converged.convergeFold (hP : P.Lawful) (h : Converged P A p f x w)
    (hs : FoldSettled P key A p w) (env : SyncEnv) :
    ∃ files : LocalFiles, files[p]? = (w.devices A).files[p]? ∧
      (convergeFold P key env A (w.devices A) w.server).1 = { w.devices A with files := files } := by
  unfold Ciss.convergeFold
  rcases hfr : w.server.frontier with _ | frontier
  · exact ⟨_, rfl, rfl⟩
  have hheads : frontier.heads = w.server.heads := by simp [SyncServer.heads, hfr]
  dsimp only
  rcases hfetch : fetchHeads P key.verifyingKey w.server frontier.heads with e | trees
  · exact ⟨_, rfl, rfl⟩
  dsimp only
  rcases hbase : fetchBase P w.server (w.devices A).base with e | base
  · exact ⟨_, rfl, rfl⟩
  dsimp only
  rcases hfold : fold P.crypto P.codec trees base with e | out
  · exact ⟨_, rfl, rfl⟩
  dsimp only
  rw [hheads] at hfetch
  obtain ⟨hsettled, htemp⟩ := hs trees base hfetch hbase
  rw [h.entry] at hsettled
  -- the fetched base and the fetched own head are the recorded ones
  have hb : baseEntry base p = x := by
    obtain ⟨cid, tree, hcid, hnamed, hx⟩ := h.base
    rw [hcid] at hbase
    cases hm : fetchManifest P w.server cid with
    | error e => simp [fetchBase, hm, Except.map] at hbase
    | ok tree' =>
        obtain rfl : some tree' = base := by simpa [fetchBase, hm, Except.map] using hbase
        rw [← (fetchManifest_named hm).unique hP hnamed] at hx
        simpa [baseEntry] using hx
  have hmine : (trees[A]?.getD FsManifest.new).entries[p]? = x := by
    obtain ⟨cid, head, tree, hcid, hnamed, hroot, hx⟩ := h.head
    obtain ⟨tree', hget, htree'⟩ := fetchHeads_getElem? hfetch hcid
    obtain ⟨head', hnamed', hroot'⟩ := fetchHead_named hget
    obtain rfl := hnamed.unique hP hnamed'
    obtain rfl := hroot.unique hP hroot'
    simpa [htree'] using hx
  have htree : out.tree.entries[p]? = x := hsettled.fold_eq hb hfold
  have hw : ∀ y ∈ out.tree.entries.toList, (trees[A]?.getD FsManifest.new).entries[y.1]? ≠ some y.2 →
      y.1 ≠ p ∧ tmpPath y.1 ≠ p := by
    rintro ⟨r, e⟩ hy hne
    have hr : out.tree.entries[r]? = some e :=
      Std.ExtTreeMap.mem_toList_iff_getElem?_eq_some.mp hy
    refine ⟨?_, htemp.tmpPath_ne hfold hr hne⟩
    rintro rfl
    exact hne (hmine.trans (htree.symm.trans hr))
  have hrm : ∀ q ∈ (trees[A]?.getD FsManifest.new).entries.keys, q ∉ out.tree.entries → q ≠ p := by
    rintro q hq hnot rfl
    rw [Std.ExtTreeMap.mem_keys, Std.ExtTreeMap.mem_iff_isSome_getElem?, hmine] at hq
    rw [Std.ExtTreeMap.mem_iff_isSome_getElem?, htree] at hnot
    exact hnot hq
  rcases hwr : writeFiles P env (w.devices A) w.server (trees[A]?.getD FsManifest.new).entries
    out.tree.entries.toList (w.devices A).files with ⟨files, e | written⟩
  · exact ⟨files, writeFiles_getElem? hw hwr, rfl⟩
  · dsimp only
    rcases hdel : removeFiles out.tree.entries (trees[A]?.getD FsManifest.new).entries.keys files
      with ⟨files', e | deleted⟩
    · exact ⟨files', (removeFiles_getElem? hrm hdel).trans (writeFiles_getElem? hw hwr), rfl⟩
    · exact ⟨files', (removeFiles_getElem? hrm hdel).trans (writeFiles_getElem? hw hwr), rfl⟩

end

section

variable {P : Platform} {key : Keypair} {A p : String} {f : Option LocalFile}
  {x : Option FileEntry} {w : SyncWorld} {a : SyncAction}

/-- The published head of `A` agrees with its tree at `p`, whoever commits. -/
lemma Converged.step_head (hP : P.Lawful) (h : Converged P A p f x w) (key : Keypair)
    (a : SyncAction) :
    ∃ cid head tree, (SyncWorld.step P key w a).server.heads[A]? = some cid ∧
      HeadNamed P cid head ∧ TreeNamed P head.fsRoot tree ∧ tree.entries[p]? = x := by
  rcases step_slot hP key w a with hslot | ⟨device, report, m, -, hm, hacc⟩
  · have hheads : (SyncWorld.step P key w a).server.heads = w.server.heads := by
      simp [SyncServer.heads, SyncServer.frontier, hslot]
    rw [hheads]
    exact h.head
  · have hheads : (SyncWorld.step P key w a).server.heads =
        w.server.heads.insert device report.deviceHeadCid := by
      simp [SyncServer.heads, SyncServer.frontier, hm, hacc.heads]
    rw [hheads, Std.ExtTreeMap.getElem?_insert]
    by_cases hd : device = A
    · subst hd
      obtain ⟨head, hnamed, hroot, -⟩ := hacc.head
      refine ⟨report.deviceHeadCid, head, _, by simp, hnamed, hroot ▸ hacc.tree, ?_⟩
      rw [logicalTree_getElem?, h.entry]
    · rw [if_neg (by simpa using hd)]
      exact h.head

lemma Converged.step (hP : P.Lawful) (h : Converged P A p f x w)
    (hu : Undisturbed P key A p w a) : Converged P A p f x (SyncWorld.step P key w a) := by
  have hhead := h.step_head hP key a
  -- a step that changes other files of `A` only
  have hfiles : ∀ files : LocalFiles, files[p]? = (w.devices A).files[p]? →
      (SyncWorld.step P key w a).devices A = { w.devices A with files := files } →
      Converged P A p f x (SyncWorld.step P key w a) := by
    intro files hf hd
    refine ⟨?_, ?_, ?_, hhead⟩
    · rw [hd]
      exact hf.trans h.file
    · rw [hd, Device.entryAt_congr hf, h.entry]
    · rw [hd]
      exact h.base
  rcases step_device hP key w a A with hsame | ⟨path, file, rfl, hd⟩ |
    ⟨path, rfl, hd⟩ | ⟨env, rfl, hd⟩ | ⟨d, cid, hsame, hd, htree⟩
  · refine ⟨?_, ?_, ?_, hhead⟩
    · rw [hsame.files, h.file]
    · rw [hsame.entryAt, h.entry]
    · rw [hsame.base]
      exact h.base
  · have hne : path ≠ p := hu rfl
    exact hfiles _ (by simp [Std.ExtTreeMap.getElem?_insert, hne]) hd
  · have hne : path ≠ p := hu rfl
    exact hfiles _ (by simp [Std.ExtTreeMap.getElem?_erase, hne]) hd
  · obtain ⟨files, hf, hfold⟩ := h.convergeFold hP (hu rfl) env
    exact hfiles files hf (hd.trans hfold)
  · refine ⟨?_, ?_, ⟨cid, _, ?_, htree, ?_⟩, hhead⟩
    · rw [hd]
      exact (congrArg (·[p]?) hsame.files).trans h.file
    · rw [hd]
      exact (hsame.entryAt p).trans h.entry
    · rw [hd]
    · rw [logicalTree_getElem?, h.entry]

/-- A converge that is accepted leaves its device converged, at every path. -/
lemma converged_of_adopt (hP : P.Lawful) {env : SyncEnv} {report : FrontierReport}
    (hphase : w.phase A = .materialized)
    (hok : (convergeAdopt P key env A (w.devices A) w.server).2.2 = .ok report) (p : String) :
    Converged P A p ((w.devices A).files[p]?) ((w.devices A).entryAt P p)
      (SyncWorld.step P key w (.adopt A env)) := by
  unfold SyncWorld.step
  dsimp only
  rw [if_pos hphase]
  unfold convergeAdopt at hok ⊢
  rcases hb : backupFrontier P key env.refuse env.fault A (w.devices A) w.server with
    ⟨d, s, e | report'⟩
  · rw [hb] at hok
    simp at hok
  obtain ⟨hsame, ⟨-, e, he⟩ | ⟨report'', m, hr, hm, hacc⟩⟩ := backupFrontier_spec hP hb
  · simp at he
  obtain rfl := Except.ok.inj hr
  obtain ⟨head, hnamed, hroot, -⟩ := hacc.head
  refine ⟨?_, ?_, ⟨report'.pushed.fsManifestCid, _, ?_, hacc.tree, logicalTree_getElem?⟩,
    ⟨report'.deviceHeadCid, head, _, ?_, hnamed, hroot ▸ hacc.tree, logicalTree_getElem?⟩⟩
  · simp [hsame.files]
  · simpa [Device.entryAt] using hsame.entryAt p
  · simp
  · simp [SyncServer.heads, SyncServer.frontier, hm, hacc.heads]

/-- **A converged path stays as it is while no head lags behind.**  After a converge of `A` was
accepted, its file and its entry at `p` survive every run of any devices in which `A` itself does
not touch `p` and every further fold of `A` finds `p` settled. -/
theorem converged_entry_stays (hP : P.Lawful) (key : Keypair) (w : SyncWorld) (A p : String)
    (env : SyncEnv) (report : FrontierReport) (hphase : w.phase A = .materialized)
    (hok : (convergeAdopt P key env A (w.devices A) w.server).2.2 = .ok report)
    (acts : List SyncAction)
    (h : Along (SyncWorld.step P key) (Undisturbed P key A p)
      (SyncWorld.step P key w (.adopt A env)) acts) :
    let first := SyncWorld.step P key w (.adopt A env)
    let last := run (SyncWorld.step P key) first acts
    (last.devices A).files[p]? = (first.devices A).files[p]? ∧
      (last.devices A).entryAt P p = (first.devices A).entryAt P p := by
  have hfirst := converged_of_adopt hP hphase hok p
  have hlast := run_invariant (fun w a hw hu => Converged.step hP hw hu) hfirst h
  exact ⟨hlast.file.trans hfirst.file.symm, hlast.entry.trans hfirst.entry.symm⟩

end

/-! ### Two devices, again -/

namespace TwoDevices

/-- The second fold of `dev-a` finds `f` settled: both heads have it. -/
lemma foldSettled_f : FoldSettled platform account "dev-a" "f" (world 8) := by
  intro trees base htrees hbase
  obtain ⟨-, -, ⟨-, -, hentry, -⟩, hheads, -⟩ := observed
  rw [htrees] at hheads
  have hlist : trees.toList = [("dev-a", treeFG), ("dev-b", treeF)] := Option.some.inj hheads
  have hmem : ∀ (d : String) (t : FsManifest), trees[d]? = some t ↔
      (d, t) ∈ [("dev-a", treeFG), ("dev-b", treeF)] := by
    intro d t
    rw [← hlist, Std.ExtTreeMap.mem_toList_iff_getElem?_eq_some]
  rw [hentry]
  refine ⟨⟨?_, "dev-b", treeF, ?_, by decide +kernel, ?_⟩, ?_⟩
  · intro d t ht
    have hall : ∀ x ∈ [("dev-a", treeFG), ("dev-b", treeF)], x.2.entries["f"]? = some fileOne := by
      decide +kernel
    exact ⟨fileOne, hall (d, t) ((hmem d t).mp ht), sameContent_refl fileOne⟩
  · exact (hmem _ _).mpr (by simp)
  · intro d hd
    rw [Std.ExtTreeMap.mem_iff_isSome_getElem?] at hd
    obtain ⟨t, ht⟩ := Option.isSome_iff_exists.mp hd
    have hle : ∀ x ∈ [("dev-a", treeFG), ("dev-b", treeF)], x.1 ≤ "dev-b" := by decide +kernel
    exact hle (d, t) ((hmem d t).mp ht)
  · intro r e htmp
    exact absurd htmp (tmpPath_ne_of_length (by decide) r)

lemma undisturbed_f : Along (SyncWorld.step platform account)
    (Undisturbed platform account "dev-a" "f") (world 7) (convergeSteps "dev-a" env) := by
  refine ⟨trivial, ?_, trivial, trivial⟩
  rw [← world_eight]
  exact fun _ => foldSettled_f

lemma adopt_isOk : ∃ report, (convergeAdopt platform account env "dev-a"
    ((world 6).devices "dev-a") (world 6).server).2.2 = .ok report := by
  obtain ⟨-, ⟨-, hok⟩, -⟩ := observed
  cases h : (convergeAdopt platform account env "dev-a" ((world 6).devices "dev-a")
      (world 6).server).2.2 with
  | error e =>
      rw [h] at hok
      simp [Except.toOption] at hok
  | ok report => exact ⟨report, rfl⟩

end TwoDevices

/-- The second converge of `dev-a` leaves `f` alone, which both heads have. -/
theorem converged_entry_stays_example :
    ((TwoDevices.world 7).devices "dev-a").entryAt TwoDevices.platform "f" = some fileOne ∧
      ((run (SyncWorld.step TwoDevices.platform TwoDevices.account) (TwoDevices.world 7)
        (convergeSteps "dev-a" TwoDevices.env)).devices "dev-a").entryAt TwoDevices.platform "f" =
          some fileOne := by
  obtain ⟨-, ⟨hphase, -⟩, ⟨hentry, -⟩, -⟩ := TwoDevices.observed
  obtain ⟨report, hok⟩ := TwoDevices.adopt_isOk
  have hstay := converged_entry_stays TwoDevices.lawful TwoDevices.account (TwoDevices.world 6)
    "dev-a" "f" TwoDevices.env report hphase hok (convergeSteps "dev-a" TwoDevices.env)
  dsimp only at hstay
  rw [← TwoDevices.world_seven] at hstay
  exact ⟨hentry, (hstay TwoDevices.undisturbed_f).2.trans hentry⟩

/-- `dev-a` has added `g` and converged; nobody has changed `g` since, and the head of `dev-b` is
the one from before.  The second converge of `dev-a` removes `g`. -/
theorem second_converge_removes_added_file :
    (TwoDevices.world 6).phase "dev-a" = .materialized ∧
      (∃ report, (convergeAdopt TwoDevices.platform TwoDevices.account TwoDevices.env "dev-a"
        ((TwoDevices.world 6).devices "dev-a") (TwoDevices.world 6).server).2.2 = .ok report) ∧
      ((TwoDevices.world 7).devices "dev-a").entryAt TwoDevices.platform "g" = some fileTwo ∧
      ((run (SyncWorld.step TwoDevices.platform TwoDevices.account) (TwoDevices.world 7)
        (convergeSteps "dev-a" TwoDevices.env)).devices "dev-a").entryAt TwoDevices.platform "g" =
          none := by
  obtain ⟨-, ⟨hphase, -⟩, ⟨-, hbefore, -, hafter⟩, -⟩ := TwoDevices.observed
  rw [← TwoDevices.world_ten]
  exact ⟨hphase, TwoDevices.adopt_isOk, hbefore, hafter⟩

end Ciss
