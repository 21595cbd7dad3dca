import Ciss.Sync.Materialize
import Ciss.Sync.Restore

/-!
# Restore undoes scan

A tree that was scanned is restored into an empty directory, from a server that has all its
chunks.  The files are written in the order of their paths, each through the name
`.ciss-restore-<name>.tmp` in its own directory.  That name may belong to the tree: a file that has
it and comes before is overwritten and moved away, and a directory that has it stops the restore.

`restore_undoes_scan_iff` says that nothing else can go wrong, a name too long for the temporary
file apart.
-/

namespace Ciss

variable {F : FileSystem}

/-- `scan_tree`: every file is read. -/
def Disk.scan (P : Platform) (disk : Disk F) : Option FsManifest :=
  if disk.files.toList.all fun x => F.readable (x.2.mode % 4096) then
    some ⟨fsManifestKind, scanTree P disk.files⟩
  else none

/-- `restore` into a directory on disk. -/
def restoreOn (P : Platform) (env : DiskEnv F) (s : SyncServer) (fsManifestCid : Option String)
    (disk : Disk F) : Disk F × Except SyncError RestoreReport :=
  match locateFsManifest P s fsManifestCid with
  | .error e => (disk, .error e)
  | .ok (cid, manifestBytes) =>
      match FsManifest.decode P.codec manifestBytes with
      | .error e => (disk, .error e)
      | .ok manifest =>
          match materialize env (restoreContent P s) (fun _ => false) manifest.entries.toList disk with
          | (disk, .error e) => (disk, .error e)
          | (disk, .ok written) =>
              (disk, .ok
                { files := manifest.entries.size
                  chunksFetched := (written.map fun x => x.1.chunks.length).sum
                  bytesFetched := (written.map fun x => x.2.length).sum
                  fsManifestCid := cid })

section

variable {P : Platform} {s : SyncServer} {env : DiskEnv F} {disk : Disk F} {tree : FsManifest}
  {bytes : Bytes} {p : String} {e : FileEntry}

lemma Disk.scan_eq_some_iff : disk.scan P = some tree ↔
    tree = ⟨fsManifestKind, scanTree P disk.files⟩ ∧
      ∀ (p : String) f, disk.files[p]? = some f → F.readable (f.mode % 4096) = true := by
  have hall : (disk.files.toList.all fun x => F.readable (x.2.mode % 4096)) = true ↔
      ∀ (p : String) f, disk.files[p]? = some f → F.readable (f.mode % 4096) = true := by
    rw [List.all_eq_true]
    constructor
    · intro h p f hf
      exact h (p, f) (Std.ExtTreeMap.mem_toList_iff_getElem?_eq_some.2 hf)
    · intro h x hx
      exact h x.1 x.2 (Std.ExtTreeMap.mem_toList_iff_getElem?_eq_some.1 hx)
  rw [Disk.scan, ← hall]
  split
  · rename_i h
    rw [Option.some.injEq, and_iff_left h, eq_comm]
  · rename_i h
    exact iff_of_false (by simp) fun h' => h h'.2

lemma getElem?_scanTree (files : LocalFiles) : (scanTree P files)[p]? =
    files[p]?.map (fileEntryFor P) := by
  simp [scanTree]

/-- The server gives back the content of a file whose chunks it holds. -/
lemma restoreContent_fileEntryFor (hP : P.Lawful) (hcut : P.CutsWhole) (f : LocalFile)
    (hs : ∀ c ∈ (fileEntryFor P f).chunks, s.Holds P c.sha256) :
    restoreContent P s (fileEntryFor P f) = .ok f.bytes := by
  have hget : ∀ piece, s.Holds P (P.crypto.sha256Hex piece) →
      s.get P (P.crypto.sha256Hex piece) = .ok piece ∧
        verifyContent P.crypto (P.crypto.sha256Hex piece) piece = .ok () := by
    rintro piece ⟨b, hb, hsha⟩
    obtain rfl := hP.sha256Hex_injective hsha
    exact ⟨SyncServer.get_of_getElem? hb rfl, by simp [verifyContent, verifyServerCid]⟩
  have hfold : ∀ (pieces : List Bytes) (content : Bytes),
      (∀ piece ∈ pieces, s.Holds P (P.crypto.sha256Hex piece)) →
      (pieces.map (chunkRefOf P)).foldlM (fun content c => do
        let bytes ← s.get P c.sha256
        verifyContent P.crypto c.sha256 bytes
        return content ++ bytes) content = Except.ok (content ++ pieces.flatten) := by
    intro pieces
    induction pieces with
    | nil =>
        intro content _
        rw [List.flatten_nil, List.append_nil]
        rfl
    | cons piece pieces ih =>
        intro content hall
        obtain ⟨hg, hv⟩ := hget piece (hall piece List.mem_cons_self)
        have hrest := ih (content ++ piece) fun x hx => hall x (List.mem_cons_of_mem _ hx)
        rw [List.append_assoc] at hrest
        rw [List.map_cons, List.foldlM_cons, List.flatten_cons, ← hrest, chunkRefOf, hg]
        simp only [bind, Except.bind, hv, pure, Except.pure]
  rw [restoreContent, chunks_fileEntryFor, hfold]
  · rw [List.nil_append, hcut.flatten_pieces]
  · intro piece hpiece
    exact hs (chunkRefOf P piece) (by
      rw [chunks_fileEntryFor]
      exact List.mem_map_of_mem hpiece)

/-- What is written from the entry of a file has that entry. -/
lemma fileEntryFor_landed {f : LocalFile} (hf : f.Stamped F) (hmtime : 0 ≤ f.mtimeSecs) :
    fileEntryFor P (landed env (fileEntryFor P f) f.bytes) = fileEntryFor P f := by
  have hstamp : F.stamp ((fileEntryFor P f).mtimeSecs, (fileEntryFor P f).mtimeNanos) =
      (f.mtimeSecs, f.mtimeNanos) := hf
  have hneg : ¬ (fileEntryFor P f).mtimeSecs < 0 := by
    change ¬ f.mtimeSecs < 0
    omega
  rw [landed, if_neg hneg, hstamp]
  simp [fileEntryFor]

lemma mem_scanTree_toList {files : LocalFiles} {x : String × FileEntry} :
    x ∈ (scanTree P files).toList ↔ ∃ f, files[x.1]? = some f ∧ x.2 = fileEntryFor P f := by
  rw [Std.ExtTreeMap.mem_toList_iff_getElem?_eq_some, getElem?_scanTree, Option.map_eq_some_iff]
  simp only [eq_comm]

/-- The restore of a tree that is on the server is the loop over its entries. -/
lemma restoreOn_ok_iff (hP : P.Lawful) (hkind : tree.kind = fsManifestKind)
    (henc : tree.encode P.codec = .ok bytes) (hroot : s.Holds P (P.crypto.sha256Hex bytes))
    {target : Disk F} :
    (∃ report, restoreOn P env s (some (P.crypto.sha256Hex bytes)) disk = (target, .ok report)) ↔
      ∃ written, materialize env (restoreContent P s) (fun _ => false) tree.entries.toList disk =
        (target, .ok written) := by
  obtain ⟨b, hb, hsha⟩ := hroot
  obtain rfl := hP.sha256Hex_injective hsha
  have hlocate : locateFsManifest P s (some (P.crypto.sha256Hex b)) =
      .ok (P.crypto.sha256Hex b, b) := by
    simp [locateFsManifest, SyncServer.get_of_getElem? hb rfl, verifyContent, verifyServerCid, bind,
      Except.bind, pure, Except.pure]
  have hdecode : FsManifest.decode P.codec b = .ok tree := by
    obtain ⟨b', hb', hd⟩ := treeNamed_of_encode hP hkind henc
    rwa [hP.sha256Hex_injective hb'] at hd
  rw [restoreOn, hlocate]
  dsimp only
  rw [hdecode]
  dsimp only
  rcases materialize env (restoreContent P s) (fun _ => false) tree.entries.toList disk with
    ⟨disk', e | written⟩
  · simp
  · simp

end

/-! ## The entries of a directory, written into an empty one -/

section

variable {P : Platform} {env : DiskEnv F} {source : Disk F} {content : FileEntry → Bytes}

/-- The scan of what is left is the scan of the source exactly when every file stays. -/
lemma scan_lay_iff {target : Disk F}
    (hmtime : ∀ (p : String) f, source.files[p]? = some f → 0 ≤ f.mtimeSecs)
    (hread : ∀ (p : String) f, source.files[p]? = some f → F.readable (f.mode % 4096) = true)
    (hcontent : ∀ (p : String) f, source.files[p]? = some f →
      content (fileEntryFor P f) = f.bytes)
    (htarget : target.files = lay env content (scanTree P source.files).toList ∅) :
    target.scan P = some ⟨fsManifestKind, scanTree P source.files⟩ ↔
      (∀ x ∈ (scanTree P source.files).toList,
          target.files[x.1]? = some (landed env x.2 (content x.2))) ∧
        ∀ q, (∀ x ∈ (scanTree P source.files).toList, x.1 ≠ q) →
          target.files[q]? = (∅ : LocalFiles)[q]? := by
  -- outside the tree nothing is written
  have hout : ∀ q : String, source.files[q]? = none → target.files[q]? = none := by
    intro q hq
    rw [htarget]
    refine lay_eq_none (fun x hx heq => ?_) (by simp)
    obtain ⟨f, hf, -⟩ := mem_scanTree_toList.1 hx
    rw [heq, hq] at hf
    cases hf
  rw [Disk.scan_eq_some_iff]
  constructor
  · rintro ⟨heq, -⟩
    refine ⟨fun x hx => ?_, fun q hq => ?_⟩
    · have hnodup : (scanTree P source.files).toList.Pairwise fun x y => x.1 ≠ y.1 :=
        Std.ExtTreeMap.ordered_keys_toList.imp fun h => ne_of_compare_lt h
      rw [htarget]
      refine (lay_self_cases hnodup hx).resolve_right fun hnone => ?_
      obtain ⟨f, hf, -⟩ := mem_scanTree_toList.1 hx
      have hentry := congrArg (fun t : FsManifest => t.entries[x.1]?) heq
      simp only [getElem?_scanTree, hf, htarget, hnone] at hentry
      cases hentry
    · rw [hout q, Std.ExtTreeMap.getElem?_empty]
      rcases hf : source.files[q]? with _ | f
      · rfl
      · exact absurd rfl (hq (q, fileEntryFor P f) (mem_scanTree_toList.2 ⟨f, hf, rfl⟩))
  · rintro ⟨hself, -⟩
    have hat : ∀ (q : String) f, source.files[q]? = some f →
        target.files[q]? = some (landed env (fileEntryFor P f) f.bytes) := by
      intro q f hf
      have h := hself (q, fileEntryFor P f) (mem_scanTree_toList.2 ⟨f, hf, rfl⟩)
      rwa [hcontent q f hf] at h
    constructor
    · congr 1
      refine Std.ExtTreeMap.ext_getElem? fun q => ?_
      rw [getElem?_scanTree, getElem?_scanTree]
      rcases hf : source.files[q]? with _ | f
      · rw [hout q hf]
      · rw [hat q f hf, Option.map_some, Option.map_some,
          fileEntryFor_landed (source.stamped q f hf) (hmtime q f hf)]
    · intro q g hg
      rcases hf : source.files[q]? with _ | f
      · rw [hout q hf] at hg
        cases hg
      · rw [hat q f hf] at hg
        obtain rfl := Option.some.inj hg
        have hmode : (landed env (fileEntryFor P f) f.bytes).mode % 4096 = f.mode % 4096 :=
          Nat.mod_mod _ _
        rw [hmode]
        exact hread q f hf

/-- Between the writes of a scanned tree only the temporary names can meet. -/
lemma clear_scanTree_iff {p : String} {f : LocalFile} (hf : source.files[p]? = some f)
    (hread : F.readable (f.mode % 4096) = true) (hcontent : content (fileEntryFor P f) = f.bytes) :
    Clear env content ∅ (· ∈ (Disk.empty F).dirs) (scanTree P source.files).toList
        (p, fileEntryFor P f) ↔
      env.fault p = none ∧ F.names (tmpPath p) = true ∧
        ∀ q ∈ source.files, compare q p = .lt → q ≠ tmpPath p ∧ ¬DirPrefix (tmpPath p) q := by
  have hp : p ∈ source.files := Disk.mem_of_getElem? hf
  constructor
  · intro h
    refine ⟨h.fault, h.names_tmp, fun q hq hlt => ?_⟩
    obtain ⟨g, hg⟩ := Disk.exists_of_mem hq
    exact h.apart (q, fileEntryFor P g) (mem_scanTree_toList.2 ⟨g, hg, rfl⟩) hlt
  · rintro ⟨hfault, htmp, hapart⟩
    refine ⟨by rw [hcontent]; rfl, ?_, hfault, source.named p (Or.inl hp), htmp,
      Std.ExtTreeSet.not_mem_empty, Std.ExtTreeSet.not_mem_empty, by simp, fun _ => ?_, ?_⟩
    · intro a ha
      exact ⟨source.named a (Or.inr (source.parents p a (Or.inl hp) ha)), by simp⟩
    · have hmode : (fileEntryFor P f).mode % 4096 = f.mode % 4096 := Nat.mod_mod _ _
      rw [hmode]
      exact hread
    · intro y hy hlt
      obtain ⟨g, hg, -⟩ := mem_scanTree_toList.1 hy
      exact hapart y.1 (Disk.mem_of_getElem? hg) hlt

end

/-- **Restore undoes scan** unless a temporary name is in the way.  The restore of a scanned tree
into an empty directory succeeds and gives a directory with the same scan, exactly when each
temporary file can be created, and no path of the tree that comes before its own is the temporary
name or lies below it. -/
theorem restore_undoes_scan_iff {P : Platform} (hP : P.Lawful) (hcut : P.CutsWhole)
    (env : DiskEnv F) (source : Disk F) (s : SyncServer) {tree : FsManifest} {bytes : Bytes}
    (hmtime : ∀ (p : String) f, source.files[p]? = some f → 0 ≤ f.mtimeSecs)
    (hscan : source.scan P = some tree) (henc : tree.encode P.codec = .ok bytes)
    (hroot : s.Holds P (P.crypto.sha256Hex bytes))
    (hchunks : ∀ (p : String) e, tree.entries[p]? = some e → ∀ c ∈ e.chunks, s.Holds P c.sha256) :
    (∃ target report, restoreOn P env s (some (P.crypto.sha256Hex bytes)) (Disk.empty F) =
        (target, .ok report) ∧ target.scan P = some tree) ↔
      ∀ p ∈ source.files, env.fault p = none ∧ F.names (tmpPath p) = true ∧
        ∀ q ∈ source.files, compare q p = .lt → q ≠ tmpPath p ∧ ¬DirPrefix (tmpPath p) q := by
  obtain ⟨rfl, hread⟩ := Disk.scan_eq_some_iff.1 hscan
  let content : FileEntry → Bytes := fun e => (restoreContent P s e).toOption.getD []
  have hfetched : ∀ (p : String) f, source.files[p]? = some f →
      restoreContent P s (fileEntryFor P f) = .ok f.bytes := fun p f hf =>
    restoreContent_fileEntryFor hP hcut f
      (hchunks p _ (by rw [getElem?_scanTree, hf, Option.map_some]))
  have hcontent : ∀ (p : String) f, source.files[p]? = some f →
      content (fileEntryFor P f) = f.bytes := by
    intro p f hf
    simp only [content, hfetched p f hf, Except.toOption, Option.getD_some]
  have hmem : ∀ x ∈ (scanTree P source.files).toList, x.1 ∈ source.files := fun x hx =>
    Disk.mem_of_getElem? (mem_scanTree_toList.1 hx).choose_spec.1
  obtain ⟨hgoes, hstops⟩ := materialize_spec env content (scanTree P source.files).toList
    (fun x hx => F.names_normal _ (source.named _ (Or.inl (hmem x hx))))
    (by
      intro x hx
      obtain ⟨f, hf, hxf⟩ := mem_scanTree_toList.1 hx
      rw [hxf, hcontent x.1 f hf]
      exact hfetched x.1 f hf)
    (Disk.empty F)
  have hkept := landsAll_kept_iff env content ∅ (· ∈ (Disk.empty F).dirs)
    (l := (scanTree P source.files).toList) Std.ExtTreeMap.ordered_keys_toList
    (fun x hx y hy h => source.apart x.1 (hmem x hx)
      (source.parents y.1 x.1 (Or.inl (hmem y hy)) h))
  calc (∃ target report, restoreOn P env s (some (P.crypto.sha256Hex bytes)) (Disk.empty F) =
        (target, .ok report) ∧ target.scan P = some ⟨fsManifestKind, scanTree P source.files⟩)
      ↔ ∃ target written, materialize env (restoreContent P s) (fun _ => false)
            (scanTree P source.files).toList (Disk.empty F) = (target, .ok written) ∧
          target.scan P = some ⟨fsManifestKind, scanTree P source.files⟩ := by
        refine exists_congr fun target => ?_
        rw [exists_and_right, exists_and_right, restoreOn_ok_iff hP rfl henc hroot]
    _ ↔ ∀ x ∈ (scanTree P source.files).toList, Clear env content ∅ (· ∈ (Disk.empty F).dirs)
          (scanTree P source.files).toList x := by
        rw [← hkept]
        constructor
        · rintro ⟨target, written, hrun, hsame⟩
          by_cases hl : LandsAll env content (scanTree P source.files).toList
              (Disk.empty F).files (· ∈ (Disk.empty F).dirs)
          · obtain ⟨target', hrun', hfiles, -⟩ := hgoes hl
            obtain rfl := (Prod.mk.inj (hrun.symm.trans hrun')).1
            have h := (scan_lay_iff hmtime hread hcontent hfiles).1 hsame
            rw [hfiles] at h
            exact ⟨hl, h⟩
          · obtain ⟨target', e, hrun'⟩ := hstops hl
            cases (Prod.mk.inj (hrun.symm.trans hrun')).2
        · rintro ⟨hl, hstay⟩
          obtain ⟨target, hrun, hfiles, -⟩ := hgoes hl
          refine ⟨target, _, hrun, (scan_lay_iff hmtime hread hcontent hfiles).2 ?_⟩
          rw [hfiles]
          exact hstay
    _ ↔ _ := by
        constructor
        · intro h p hp
          obtain ⟨f, hf⟩ := Disk.exists_of_mem hp
          exact (clear_scanTree_iff hf (hread p f hf) (hcontent p f hf)).1
            (h (p, fileEntryFor P f) (mem_scanTree_toList.2 ⟨f, hf, rfl⟩))
        · rintro h ⟨p, e⟩ hx
          obtain ⟨f, hf, rfl⟩ := mem_scanTree_toList.1 hx
          exact (clear_scanTree_iff hf (hread p f hf) (hcontent p f hf)).2
            (h p (Disk.mem_of_getElem? hf))

/-! ### A file that is called like a temporary file

Next to the file `a` lies a file `.ciss-restore-a.tmp`, which comes first. -/

namespace TempName

/-- Two files that do not meet. -/
def nested : Disk posix :=
  diskOf [("a", ⟨420, 1, 0, asBytes "two"⟩), ("d/b", ⟨420, 1, 0, asBytes "one"⟩)]

def nestedTree : FsManifest := treeOf [("a", fileTwo), ("d/b", fileOne)]

def clash : Disk posix :=
  diskOf [("a", ⟨420, 1, 0, asBytes "two"⟩), (".ciss-restore-a.tmp", ⟨420, 1, 0, asBytes "one"⟩)]

def clashTree : FsManifest := treeOf [(".ciss-restore-a.tmp", fileOne), ("a", fileTwo)]

/-- What SHA-256 is applied to, and its digests. -/
def digests : List (Bytes × String) :=
  [(asBytes "one", TwoDevices.fileOneCid), (asBytes "two", TwoDevices.fileTwoCid),
    (nestedTree.toCbor, "d90490a210fe202bf7f39213c479c36634aa2234e8e9215bc924d22f333dd8d5"),
    (clashTree.toCbor, "152786796b520fcd937868c3d3288aff7d668a87e125a8dc5ac5dc22be9cb495")]

def platform : Platform :=
  { TwoDevices.platform with
    crypto := { TwoDevices.platform.crypto with sha256Hex := tabulatedHash digests }
    codec := dagCbor [nestedTree, clashTree] [] }

/-- A server with both trees and their chunks. -/
def server : SyncServer :=
  ⟨(∅ : ByCid Bytes).insertMany
    ([asBytes "one", asBytes "two", nestedTree.toCbor, clashTree.toCbor].map fun b =>
      (platform.crypto.sha256Hex b, b)), ⟨.active, none⟩⟩

/-- What the samples are seen to be: the digests differ, the server has what it was given, the two
disks scan to the two trees and these encode, and what stands next to the files of the nested one
lets it be restored. -/
lemma observed :
    ((digests.map fun x => (asBytes x.2).take 4).Nodup ∧
      ∀ x ∈ digests, (asBytes x.2).head? ≠ some xByte) ∧
    (∀ b ∈ [asBytes "one", asBytes "two", nestedTree.toCbor, clashTree.toCbor],
      server.blobs[platform.crypto.sha256Hex b]? = some b) ∧
    (TwoDevices.fileOneCid = platform.crypto.sha256Hex (asBytes "one") ∧
      TwoDevices.fileTwoCid = platform.crypto.sha256Hex (asBytes "two")) ∧
    (∀ x ∈ [(nested, nestedTree), (clash, clashTree)],
      (∀ y ∈ x.1.files.toList, 0 ≤ y.2.mtimeSecs) ∧ x.1.scan platform = some x.2 ∧
      x.2.encode platform.codec = .ok x.2.toCbor ∧
      ∀ y ∈ x.2.entries.toList, ∀ c ∈ y.2.chunks,
        c.sha256 = TwoDevices.fileOneCid ∨ c.sha256 = TwoDevices.fileTwoCid) ∧
    (∀ x ∈ nested.files.toList, (quiet posix).fault x.1 = none ∧
      posix.names (tmpPath x.1) = true ∧ ∀ y ∈ nested.files.toList,
        compare y.1 x.1 = .lt → y.1 ≠ tmpPath x.1 ∧ ¬ DirPrefix (tmpPath x.1) y.1) ∧
    (restoreOn platform (quiet posix) server (some (platform.crypto.sha256Hex clashTree.toCbor))
      (Disk.empty posix)).1.scan platform ≠ some clashTree := by
  decide +kernel

lemma lawful : platform.Lawful where
  sha256Hex_injective :=
    tabulatedHash_injective (distinctDigests_of_take 4 observed.1.1 observed.1.2)
  decode_encodeManifest _ _ h := decodeAmong_encodeAmong h
  decode_encodeHead head bytes (h : encodeAmong DeviceHead.toCbor [] head = .ok bytes) :=
    decodeAmong_encodeAmong h

lemma cutsWhole : platform.CutsWhole :=
  ⟨TwoDevices.cutsWhole.flatten, TwoDevices.cutsWhole.nonempty⟩

lemma holds {b : Bytes} (h : b ∈ [asBytes "one", asBytes "two", nestedTree.toCbor,
    clashTree.toCbor]) : server.Holds platform (platform.crypto.sha256Hex b) := by
  obtain ⟨-, hblobs, -⟩ := observed
  exact ⟨b, hblobs b h, rfl⟩

lemma forall_mem_files {files : LocalFiles} {Q : String → Prop} :
    (∀ p ∈ files, Q p) ↔ ∀ x ∈ files.toList, Q x.1 := by
  constructor
  · intro h x hx
    exact h x.1 (Disk.mem_of_getElem? (Std.ExtTreeMap.mem_toList_iff_getElem?_eq_some.1 hx))
  · intro h p hp
    obtain ⟨f, hf⟩ := Disk.exists_of_mem hp
    exact h (p, f) (Std.ExtTreeMap.mem_toList_iff_getElem?_eq_some.2 hf)

lemma mtime_nonneg {disk : Disk posix} (h : ∀ x ∈ disk.files.toList, 0 ≤ x.2.mtimeSecs) (p : String)
    (f : LocalFile) (hf : disk.files[p]? = some f) : 0 ≤ f.mtimeSecs :=
  h (p, f) (Std.ExtTreeMap.mem_toList_iff_getElem?_eq_some.2 hf)

lemma chunks_held {tree : FsManifest} (h : ∀ x ∈ tree.entries.toList, ∀ c ∈ x.2.chunks,
      c.sha256 = TwoDevices.fileOneCid ∨ c.sha256 = TwoDevices.fileTwoCid) (p : String)
    (e : FileEntry) (he : tree.entries[p]? = some e) (c : ChunkRef) (hc : c ∈ e.chunks) :
    server.Holds platform c.sha256 := by
  obtain ⟨-, -, ⟨hone, htwo⟩, -⟩ := observed
  rcases h (p, e) (Std.ExtTreeMap.mem_toList_iff_getElem?_eq_some.2 he) c hc with hcid | hcid
  · rw [hcid, hone]
    exact holds (by simp)
  · rw [hcid, htwo]
    exact holds (by simp)

end TempName

theorem restore_undoes_scan_iff_nested :
    ∃ target report, restoreOn TempName.platform (quiet posix) TempName.server
        (some (TempName.platform.crypto.sha256Hex TempName.nestedTree.toCbor)) (Disk.empty posix) =
      (target, .ok report) ∧ target.scan TempName.platform = some TempName.nestedTree :=
  (restore_undoes_scan_iff TempName.lawful TempName.cutsWhole (quiet posix) TempName.nested
    TempName.server (TempName.mtime_nonneg (by decide +kernel)) (by decide +kernel)
    (by decide +kernel) (TempName.holds (by simp)) (TempName.chunks_held (by decide +kernel))).2
    (by
      simp only [TempName.forall_mem_files]
      decide +kernel)

/-- The restore of the other tree succeeds, and one of its two files is gone. -/
theorem restore_loses_file :
    ¬ ∀ (P : Platform), P.Lawful → P.CutsWhole → ∀ (F : FileSystem) (source : Disk F)
      (s : SyncServer) (tree : FsManifest) (bytes : Bytes),
      (∀ (p : String) f, source.files[p]? = some f → 0 ≤ f.mtimeSecs) →
      source.scan P = some tree → tree.encode P.codec = .ok bytes →
      s.Holds P (P.crypto.sha256Hex bytes) →
      (∀ (p : String) e, tree.entries[p]? = some e → ∀ c ∈ e.chunks, s.Holds P c.sha256) →
      ∃ target report, restoreOn P (quiet F) s (some (P.crypto.sha256Hex bytes)) (Disk.empty F) =
        (target, .ok report) ∧ target.scan P = some tree := by
  intro h
  obtain ⟨-, -, -, hdisks, -, hlost⟩ := TempName.observed
  obtain ⟨hmtime, hread, hencode, hchunks⟩ :=
    hdisks (TempName.clash, TempName.clashTree) (by simp)
  obtain ⟨target, report, hrun, hscan⟩ := h TempName.platform TempName.lawful TempName.cutsWhole
    posix TempName.clash TempName.server TempName.clashTree TempName.clashTree.toCbor
    (TempName.mtime_nonneg hmtime) hread hencode (TempName.holds (by simp))
    (TempName.chunks_held hchunks)
  rw [show target = _ from (congrArg Prod.fst hrun).symm] at hscan
  exact hlost hscan

end Ciss
