import Ciss.Sync.ConvergeDisk
import Ciss.Sync.Footprint
import Ciss.Sync.ScanRestore

/-!
# Eviction and the logical tree

An eviction takes a file off the disk and leaves its entry in the placeholder table, a hydration
goes the other way, and the logical tree is what the two together say.  Here both act on a
directory on disk, in which a write or a removal may fail; the chunks come from a cache that keeps
what it likes, or from a server that answers as it likes.

`eviction_invisible` says that no such run changes the logical tree, as long as no write breaks off
halfway: that would leave its temporary file behind, which the next scan takes for a file of the
tree.  An eviction records the placeholder before it removes the file, so a removal that fails
leaves both (`failed_eviction_leaves_placeholder`).
-/

namespace Ciss

variable {F : FileSystem}

/-- A synced directory and its state. -/
structure SyncDir (F : FileSystem) where
  disk : Disk F
  device : Device

/-- What surrounds an eviction or a hydration. -/
structure FootEnv (F : FileSystem) extends DiskEnv F where
  /-- What the cache makes of itself when it is used for a path, with so many chunks to go: it takes
  in what it is offered, drops what it has no room for, or fails. -/
  tend : String → Nat → ByCid Bytes → ByCid Bytes × Except SyncError Unit

/-- Take one path after the other, up to the first failure; returns how many, and their bytes. -/
def eachPath {σ : Type} (f : String → σ → σ × Except SyncError Nat) :
    List String → σ → σ × Except SyncError (Nat × Nat)
  | [], w => (w, .ok (0, 0))
  | path :: paths, w =>
      match f path w with
      | (w, .error e) => (w, .error e)
      | (w, .ok size) =>
          match eachPath f paths w with
          | (w, .error e) => (w, .error e)
          | (w, .ok (count, total)) => (w, .ok (count + 1, total + size))

/-! ## The commands -/

/-- Evict one file of the tree: read it, check that every chunk is backed, offer the chunks to the
cache, record the placeholder, and remove the file, in this order. -/
def evictFileOn (P : Platform) (env : FootEnv F) (haveSet keep : String → Bool) (path : String)
    (w : SyncDir F) : SyncDir F × Except SyncError Nat :=
  match w.disk.files[path]? with
  | none => (w, .error (.io path))
  | some f =>
      if ¬F.readable (f.mode % 4096) then (w, .error (.io path))
      else
        let entry := fileEntryFor P f
        let missing := (entry.chunks.map ChunkRef.sha256).filter fun c => !haveSet c || !keep c
        if missing ≠ [] then (w, .error (.evictUnbacked path missing))
        else
          match env.tend path entry.chunks.length w.device.cache with
          | (cache, .error e) => (⟨w.disk, { w.device with cache := cache }⟩, .error e)
          | (cache, .ok ()) =>
              let device :=
                { w.device with
                  cache := cache
                  placeholders := w.device.placeholders.insert path entry }
              match removeFile env.toDiskEnv path w.disk with
              | (disk, .error e) => (⟨disk, device⟩, .error e)
              | (disk, .ok ()) => (⟨disk, device⟩, .ok entry.size)

/-- `evict`; the have-set and the keep-set are read first. -/
def evictOn (P : Platform) (env : FootEnv F)
    (backing : Except SyncError ((String → Bool) × (String → Bool))) (paths : List String)
    (w : SyncDir F) : SyncDir F × Except SyncError EvictReport :=
  match backing with
  | .error e => (w, .error e)
  | .ok (haveSet, keep) =>
      match eachPath (evictFileOn P env haveSet keep) paths w with
      | (w, .error e) => (w, .error e)
      | (w, .ok (evicted, bytesFreed)) => (w, .ok ⟨evicted, bytesFreed⟩)

/-- One chunk, from the cache if it is intact there, else from the server. -/
def fetchChunk (P : Platform) (d : Device) (s : SyncServer) (cid : String) :
    Except SyncError Bytes :=
  match cacheGet P d cid with
  | some bytes => .ok bytes
  | none => do
      let bytes ← s.get P cid
      verifyContent P.crypto cid bytes
      return bytes

/-- The content of a list of chunks, with a cache that changes on the way. -/
def fetchThrough (P : Platform) (tend : Nat → ByCid Bytes → ByCid Bytes × Except SyncError Unit)
    (s : SyncServer) : List ChunkRef → Device → Device × Except SyncError Bytes
  | [], d => (d, .ok [])
  | c :: chunks, d =>
      match fetchChunk P d s c.sha256 with
      | .error e => (d, .error e)
      | .ok bytes =>
          match tend chunks.length d.cache with
          | (cache, .error e) => ({ d with cache := cache }, .error e)
          | (cache, .ok ()) =>
              match fetchThrough P tend s chunks { d with cache := cache } with
              | (d, .error e) => (d, .error e)
              | (d, .ok content) => (d, .ok (bytes ++ content))

/-- Hydrate one file; the placeholder is dropped after the file has landed. -/
def hydrateFileOn (P : Platform) (env : FootEnv F) (s : SyncServer) (path : String)
    (w : SyncDir F) : SyncDir F × Except SyncError Nat :=
  match w.device.placeholders[path]? with
  | none => (w, .error (.noPlaceholder path))
  | some entry =>
      if path ∈ w.disk.files ∨ path ∈ w.disk.dirs then (w, .error (.hydrateWouldOverwrite path))
      else
        match fetchThrough P (env.tend path) s entry.chunks w.device with
        | (device, .error e) => (⟨w.disk, device⟩, .error e)
        | (device, .ok content) =>
            match writeVerified env.toDiskEnv path entry content w.disk with
            | (disk, .error e) => (⟨disk, device⟩, .error e)
            | (disk, .ok ()) =>
                (⟨disk, { device with placeholders := device.placeholders.erase path }⟩,
                  .ok entry.size)

/-- `hydrate`; without a list of paths it takes every placeholder. -/
def hydrateOn (P : Platform) (env : FootEnv F) (s : SyncServer) (paths : Option (List String))
    (w : SyncDir F) : SyncDir F × Except SyncError HydrateReport :=
  match eachPath (hydrateFileOn P env s) (hydrateTargets w.device paths) w with
  | (w, .error e) => (w, .error e)
  | (w, .ok (files, bytesWritten)) => (w, .ok ⟨files, bytesWritten⟩)

/-- A scan can look at the file: the index knows it, or it can be read. -/
def Scannable (F : FileSystem) (index : Entries) (path : String) (f : LocalFile) : Bool :=
  (indexLookup index path f).isSome || F.readable (f.mode % 4096)

/-- `logical_tree` of a directory.  When a file cannot be read, the index has learned what the walk
has reached before. -/
def logicalTreeOn (P : Platform) (reached : String → Bool) (w : SyncDir F) :
    SyncDir F × Option FsManifest :=
  if w.disk.files.toList.all fun x => Scannable F w.device.index x.1 x.2 then
    (⟨w.disk, (logicalTree P (w.device.on w.disk)).2⟩,
      some (logicalTree P (w.device.on w.disk)).1)
  else
    let seen := w.disk.files.filter fun p f => reached p && Scannable F w.device.index p f
    (⟨w.disk, { w.device with index := w.device.index ∪ seen.map (scanEntry P w.device.index) }⟩,
      none)

/-! ## Runs -/

/-- What is done with a directory and its state. -/
inductive FootAction (F : FileSystem) where
  | evict (env : FootEnv F) (backing : Except SyncError ((String → Bool) × (String → Bool)))
      (paths : List String)
  | hydrate (env : FootEnv F) (s : SyncServer) (paths : Option (List String))
  /-- Any operation on the cache. -/
  | cache (cache : ByCid Bytes)
  | logicalTree (reached : String → Bool)

namespace SyncDir

/-- One command, whatever comes of it. -/
def step (P : Platform) (w : SyncDir F) : FootAction F → SyncDir F
  | .evict env backing paths => (evictOn P env backing paths w).1
  | .hydrate env s paths => (hydrateOn P env s paths w).1
  | .cache cache => { w with device := { w.device with cache := cache } }
  | .logicalTree reached => (logicalTreeOn P reached w).1

/-- The entry that stands for a path: that of the file, or the placeholder. -/
def entryAt (P : Platform) (w : SyncDir F) (p : String) : Option FileEntry :=
  (w.disk.files[p]?.map (fileEntryFor P)).or w.device.placeholders[p]?

/-- The scan index is up to date, no time lies before the epoch, and no name in the tree is that of
a temporary file.  What was evicted before was a file of this kind. -/
structure UpToDate (P : Platform) (w : SyncDir F) : Prop where
  mtime : ∀ (p : String) f, w.disk.files[p]? = some f → 0 ≤ f.mtimeSecs
  index : ∀ (p : String) f, w.disk.files[p]? = some f →
    w.device.index[p]? = some (fileEntryFor P f)
  tmp : ∀ p q : String, p ∈ w.disk.files ∨ p ∈ w.device.placeholders → p ≠ tmpPath q
  evicted : ∀ (p : String) e, p ∉ w.disk.files → w.device.placeholders[p]? = some e →
    F.names p = true ∧ ∃ f : LocalFile, f.Stamped F ∧ 0 ≤ f.mtimeSecs ∧
      F.readable (f.mode % 4096) = true ∧ e = fileEntryFor P f ∧
      scanEntry P w.device.index p f = e

end SyncDir

/-- An eviction takes paths of a scan, and no write breaks off halfway. -/
def FootAction.Proper : FootAction F → Prop
  | .evict _ _ paths => ∀ p ∈ paths, NormalPath p
  | .hydrate env _ _ => ∀ p n, env.fault p ≠ some (.cut n)
  | .cache _ => True
  | .logicalTree _ => True

/-! ## What the commands do to the directory -/

section

variable {env : DiskEnv F} {disk disk' : Disk F} {path : String} {entry : FileEntry}
  {content : Bytes} {e : SyncError}

lemma removeFile_error (hpath : NormalPath path) (hmem : path ∈ disk.files)
    (h : removeFile env path disk = (disk', .error e)) :
    disk' = disk ∧ env.stuck path = true := by
  rw [removeFile, if_neg (not_not.2 hpath)] at h
  by_cases hstuck : env.stuck path = true
  · rw [if_pos hstuck] at h
    exact ⟨(Prod.mk.inj h).1.symm, hstuck⟩
  · rw [if_neg hstuck, Disk.remove, if_pos hmem] at h
    cases (Prod.mk.inj h).2

/-- Making directories touches no file. -/
lemma Disk.createDirAll_files (l : List String) (disk : Disk F) :
    (disk.createDirAll l).1.files = disk.files := by
  induction l generalizing disk with
  | nil => rfl
  | cons a l ih =>
      rw [createDirAll]
      rcases hmake : disk.mkdir a with _ | disk₁
      · rfl
      · have hfiles : disk₁.files = disk.files := by
          rw [mkdir] at hmake
          split at hmake
          · rw [Option.some.inj hmake]
          · split at hmake
            · rw [← Option.some.inj hmake]
            · cases hmake
        exact (ih disk₁).trans hfiles

/-- A write that is not broken off halfway, of a file with a mode that can be read, to a place
where a file can stand, lands or changes no file. -/
lemma writeVerified_error (hnames : F.names path = true) (hfree : path ∉ disk.dirs)
    (hread : F.readable (entry.mode % 4096) = true) (hcut : ∀ n, env.fault path ≠ some (.cut n))
    (h : writeVerified env path entry content disk = (disk', .error e)) :
    disk'.files = disk.files := by
  have hpath : NormalPath path := F.names_normal path hnames
  rw [writeVerified] at h
  by_cases hsize : content.length = entry.size
  swap
  · rw [if_pos hsize] at h
    rw [← (Prod.mk.inj h).1]
  rw [if_neg (not_not.2 hsize), if_neg (not_not.2 hpath)] at h
  have hfiles := Disk.createDirAll_files (ancestors path) disk
  rcases hmake : disk.createDirAll (ancestors path) with ⟨disk₁, made | made⟩
  · rw [hmake] at h hfiles
    rw [← (Prod.mk.inj h).1]
    exact hfiles
  rw [hmake] at h hfiles
  dsimp only at h hfiles
  -- the directories are there, and the path is not one of them
  have hcan : disk₁.CanHold path := by
    obtain ⟨hgo, hstop⟩ := disk.createDirAll_ancestors path
    by_cases hall : ∀ a, DirPrefix a path → F.names a = true ∧ a ∉ disk.files
    · obtain ⟨disk₂, h₂, -, hdirs⟩ := hgo hall
      obtain rfl := (Prod.mk.inj (hmake.symm.trans h₂)).1
      refine ⟨hnames, ?_, fun a ha => (hdirs a).2 (Or.inr (mem_ancestors.1 ha))⟩
      rw [hdirs]
      rintro (hmem | hlt)
      · exact hfree hmem
      · exact hlt.ne rfl
    · obtain ⟨disk₂, h₂⟩ := hstop hall
      cases (Prod.mk.inj (hmake.symm.trans h₂)).2
  rw [← hfiles]
  rcases hfault : env.fault path with _ | _ | n
  · by_cases hgo : disk₁.CanHold (tmpPath path) ∧
        ∀ f, disk₁.files[tmpPath path]? = some f → F.writable (f.mode % 4096) = true
    · obtain ⟨disk₂, h₂, -⟩ := (replaceFile_spec env path entry content disk₁).1
        ⟨hfault, hgo.1, hgo.2, fun _ => hread, hcan⟩
      cases (Prod.mk.inj (h.symm.trans h₂)).2
    · rw [replaceFile, hfault] at h
      dsimp only at h
      rw [(disk₁.write_spec env.newMode env.now content).2 hgo] at h
      rw [← (Prod.mk.inj h).1]
  · rw [replaceFile, hfault] at h
    rw [← (Prod.mk.inj h).1]
  · exact absurd hfault (hcut n)

end

/-! ## What is fetched -/

section

variable {P : Platform} {s : SyncServer} {d d' : Device} {cid : String} {bytes content : Bytes}
  {tend : Nat → ByCid Bytes → ByCid Bytes × Except SyncError Unit} {f g : LocalFile}

/-- Whoever the chunk comes from, it has the address. -/
lemma fetchChunk_ok (h : fetchChunk P d s cid = .ok bytes) : P.crypto.sha256Hex bytes = cid := by
  rw [fetchChunk] at h
  rcases hc : cacheGet P d cid with _ | b
  · rw [hc] at h
    obtain ⟨b, -, h⟩ := bind_eq_ok.1 h
    obtain ⟨_, hverify, hb⟩ := bind_eq_ok.1 h
    obtain rfl : b = bytes := Except.ok.inj hb
    rw [verifyContent, verifyServerCid] at hverify
    split at hverify
    · exact Eq.symm (by assumption)
    · cases hverify
  · rw [hc] at h
    obtain rfl := Except.ok.inj h
    rw [cacheGet] at hc
    simpa using (Option.filter_eq_some_iff.1 hc).2

/-- A fetch changes the cache and nothing else. -/
lemma fetchThrough_device (P : Platform)
    (tend : Nat → ByCid Bytes → ByCid Bytes × Except SyncError Unit) (s : SyncServer)
    (chunks : List ChunkRef) (d : Device) :
    ∃ cache, (fetchThrough P tend s chunks d).1 = { d with cache := cache } := by
  induction chunks generalizing d with
  | nil => exact ⟨d.cache, rfl⟩
  | cons c chunks ih =>
      rw [fetchThrough]
      rcases fetchChunk P d s c.sha256 with e | bytes
      · exact ⟨d.cache, rfl⟩
      dsimp only
      rcases tend chunks.length d.cache with ⟨cache, e | u⟩
      · exact ⟨cache, rfl⟩
      dsimp only
      obtain ⟨cache', hc⟩ := ih { d with cache := cache }
      rcases hrest : fetchThrough P tend s chunks { d with cache := cache } with ⟨d₁, e | rest⟩
      · rw [hrest] at hc
        exact ⟨cache', hc⟩
      · rw [hrest] at hc
        exact ⟨cache', hc⟩

lemma fetchThrough_pieces (hP : P.Lawful) (pieces : List Bytes)
    (h : fetchThrough P tend s (pieces.map (chunkRefOf P)) d = (d', .ok content)) :
    content = pieces.flatten := by
  induction pieces generalizing d d' content with
  | nil => exact (Except.ok.inj (Prod.mk.inj h).2).symm
  | cons piece pieces ih =>
      rw [List.map_cons, fetchThrough] at h
      rcases hc : fetchChunk P d s (chunkRefOf P piece).sha256 with e | bytes
      · rw [hc] at h
        cases (Prod.mk.inj h).2
      obtain rfl : bytes = piece := hP.sha256Hex_injective (fetchChunk_ok hc)
      rw [hc] at h
      dsimp only at h
      rcases ht : tend (pieces.map (chunkRefOf P)).length d.cache with ⟨cache, e | u⟩
      · rw [ht] at h
        cases (Prod.mk.inj h).2
      rw [ht] at h
      dsimp only at h
      rcases hrest : fetchThrough P tend s (pieces.map (chunkRefOf P))
        { d with cache := cache } with ⟨d₁, e | rest⟩
      · rw [hrest] at h
        cases (Prod.mk.inj h).2
      rw [hrest] at h
      rw [← Except.ok.inj (Prod.mk.inj h).2, ih hrest, List.flatten_cons]

/-- **What is fetched for the entry of a file is the content of the file.** -/
lemma fetchThrough_fileEntryFor (hP : P.Lawful) (hcut : P.CutsWhole)
    (h : fetchThrough P tend s (fileEntryFor P f).chunks d = (d', .ok content)) :
    content = f.bytes := by
  rw [chunks_fileEntryFor] at h
  rw [fetchThrough_pieces hP _ h, hcut.flatten_pieces]

/-- Files with the same entry have the same content. -/
lemma bytes_eq_of_fileEntryFor (hP : P.Lawful) (hcut : P.CutsWhole)
    (h : fileEntryFor P g = fileEntryFor P f) : g.bytes = f.bytes := by
  have hinj : Function.Injective (chunkRefOf P) := fun a b hab =>
    hP.sha256Hex_injective (congrArg ChunkRef.sha256 hab)
  have hchunks := congrArg FileEntry.chunks h
  rw [chunks_fileEntryFor, chunks_fileEntryFor] at hchunks
  have hpieces := congrArg List.flatten (List.map_injective_iff.2 hinj hchunks)
  rwa [hcut.flatten_pieces, hcut.flatten_pieces] at hpieces

/-- With a cache that stays as it is, the fetch is `fetchContent`. -/
lemma fetchThrough_idle (entry : FileEntry) :
    fetchThrough P (fun _ cache => (cache, .ok ())) s entry.chunks d =
      (d, fetchContent P d s entry) := by
  have hsteps : fetchContent P d s entry = entry.chunks.foldlM
      (fun content c => (fetchChunk P d s c.sha256).map (content ++ ·)) [] := by
    rw [fetchContent]
    congr 1
    funext content c
    rw [fetchChunk]
    rcases cacheGet P d c.sha256 with _ | b
    · rcases s.get P c.sha256 with e | b
      · rfl
      · simp only [bind, Except.bind]
        rcases verifyContent P.crypto c.sha256 b with e | u
        · rfl
        · rfl
    · rfl
  have hfold : ∀ (chunks : List ChunkRef) (content : Bytes),
      chunks.foldlM (fun content c => (fetchChunk P d s c.sha256).map (content ++ ·)) content =
          (fetchThrough P (fun _ cache => (cache, .ok ())) s chunks d).2.map (content ++ ·) ∧
        (fetchThrough P (fun _ cache => (cache, .ok ())) s chunks d).1 = d := by
    intro chunks
    induction chunks with
    | nil =>
        intro content
        rw [fetchThrough, Except.map, List.append_nil]
        exact ⟨rfl, rfl⟩
    | cons c chunks ih =>
        intro content
        rw [List.foldlM_cons, fetchThrough]
        rcases fetchChunk P d s c.sha256 with e | b
        · exact ⟨rfl, rfl⟩
        obtain ⟨hrest, hd⟩ := ih (content ++ b)
        simp only [Except.map, bind, Except.bind] at hrest ⊢
        rw [hrest]
        rcases hf : fetchThrough P (fun _ cache => (cache, .ok ())) s chunks d with ⟨d₁, e | r⟩
        · rw [hf] at hd
          exact ⟨rfl, hd⟩
        · rw [hf] at hd
          exact ⟨by simp, hd⟩
  obtain ⟨hcontent, hd⟩ := hfold entry.chunks []
  rw [hsteps, hcontent]
  refine Prod.ext hd ?_
  rcases (fetchThrough P (fun _ cache => (cache, .ok ())) s entry.chunks d).2 with e | r
  · rfl
  · rfl

end

/-! ## What one command does -/

section

variable {P : Platform} {env : FootEnv F} {haveSet keep : String → Bool} {s : SyncServer}
  {path : String} {w w' : SyncDir F} {r : Except SyncError Nat}

/-- **One eviction.**  It is refused and changes only the cache, or records the entry of the file
and then removes it, if it can. -/
lemma evictFileOn_cases (hpath : NormalPath path)
    (h : evictFileOn P env haveSet keep path w = (w', r)) :
    (∃ e cache, r = .error e ∧ w' = ⟨w.disk, { w.device with cache := cache }⟩) ∨
    ∃ f cache, w.disk.files[path]? = some f ∧ F.readable (f.mode % 4096) = true ∧
      w'.device = { w.device with
        cache := cache, placeholders := w.device.placeholders.insert path (fileEntryFor P f) } ∧
      ((∃ e, r = .error e) ∧ env.stuck path = true ∧ w'.disk = w.disk ∨
        r = .ok f.bytes.length ∧ w'.disk.files = w.disk.files.erase path ∧
          w'.disk.dirs = w.disk.dirs) := by
  rw [evictFileOn] at h
  rcases hf : w.disk.files[path]? with _ | f
  · rw [hf] at h
    obtain ⟨rfl, rfl⟩ := Prod.mk.inj h
    exact Or.inl ⟨_, w.device.cache, rfl, rfl⟩
  rw [hf] at h
  dsimp only at h
  by_cases hread : F.readable (f.mode % 4096) = true
  swap
  · rw [if_pos hread] at h
    obtain ⟨rfl, rfl⟩ := Prod.mk.inj h
    exact Or.inl ⟨_, w.device.cache, rfl, rfl⟩
  rw [if_neg (not_not.2 hread)] at h
  split at h
  · obtain ⟨rfl, rfl⟩ := Prod.mk.inj h
    exact Or.inl ⟨_, w.device.cache, rfl, rfl⟩
  rcases htend : env.tend path (fileEntryFor P f).chunks.length w.device.cache with ⟨cache, e | u⟩
  · rw [htend] at h
    obtain ⟨rfl, rfl⟩ := Prod.mk.inj h
    exact Or.inl ⟨_, cache, rfl, rfl⟩
  rw [htend] at h
  dsimp only at h
  refine Or.inr ⟨f, cache, rfl, hread, ?_⟩
  have hmem := Disk.mem_of_getElem? hf
  rcases hremove : removeFile env.toDiskEnv path w.disk with ⟨disk', e | u⟩
  · rw [hremove] at h
    obtain ⟨rfl, rfl⟩ := Prod.mk.inj h
    obtain ⟨hdisk, hstuck⟩ := removeFile_error hpath hmem hremove
    exact ⟨rfl, Or.inl ⟨⟨e, rfl⟩, hstuck, hdisk⟩⟩
  · rw [hremove] at h
    obtain ⟨rfl, rfl⟩ := Prod.mk.inj h
    obtain ⟨hgo, hstop⟩ := removeFile_spec env.toDiskEnv hpath w.disk
    by_cases hok : path ∈ w.disk.files ∧ env.stuck path = false
    · obtain ⟨disk₁, h₁, hfiles, hdirs⟩ := hgo hok
      obtain rfl := (Prod.mk.inj (hremove.symm.trans h₁)).1
      exact ⟨rfl, Or.inr ⟨rfl, hfiles, hdirs⟩⟩
    · obtain ⟨disk₁, e, h₁⟩ := hstop hok
      cases (Prod.mk.inj (hremove.symm.trans h₁)).2

/-- **One hydration** of an entry that was read off a file.  It fails and changes no file, or writes
the file and drops the placeholder. -/
lemma hydrateFileOn_cases (hP : P.Lawful) (hcut : P.CutsWhole)
    (hnames : ∀ e, w.device.placeholders[path]? = some e → F.names path = true)
    (hentry : ∀ e, path ∉ w.disk.files → w.device.placeholders[path]? = some e →
      F.readable (e.mode % 4096) = true ∧ ∃ f : LocalFile, e = fileEntryFor P f)
    (hwhole : ∀ n, env.fault path ≠ some (.cut n))
    (h : hydrateFileOn P env s path w = (w', r)) :
    (∃ e cache, r = .error e ∧ w'.disk.files = w.disk.files ∧
      w'.device = { w.device with cache := cache }) ∨
    ∃ f cache, w.disk.files[path]? = none ∧
      w.device.placeholders[path]? = some (fileEntryFor P f) ∧
      w'.disk.files = (w.disk.files.erase (tmpPath path)).insert path
        (landed env.toDiskEnv (fileEntryFor P f) f.bytes) ∧
      w'.device = { w.device with
        cache := cache, placeholders := w.device.placeholders.erase path } ∧
      r = .ok f.bytes.length := by
  rw [hydrateFileOn] at h
  rcases he : w.device.placeholders[path]? with _ | entry
  · rw [he] at h
    obtain ⟨rfl, rfl⟩ := Prod.mk.inj h
    exact Or.inl ⟨_, w.device.cache, rfl, rfl, rfl⟩
  rw [he] at h
  dsimp only at h
  by_cases hthere : path ∈ w.disk.files ∨ path ∈ w.disk.dirs
  · rw [if_pos hthere] at h
    obtain ⟨rfl, rfl⟩ := Prod.mk.inj h
    exact Or.inl ⟨_, w.device.cache, rfl, rfl, rfl⟩
  rw [if_neg hthere] at h
  obtain ⟨hfile, hdir⟩ := not_or.1 hthere
  obtain ⟨hread, f, rfl⟩ := hentry entry hfile he
  obtain ⟨cache, hcache⟩ :=
    fetchThrough_device P (env.tend path) s (fileEntryFor P f).chunks w.device
  rcases hfetch : fetchThrough P (env.tend path) s (fileEntryFor P f).chunks w.device with
    ⟨device, e | content⟩
  · rw [hfetch] at h hcache
    obtain ⟨rfl, rfl⟩ := Prod.mk.inj h
    exact Or.inl ⟨e, cache, rfl, rfl, hcache⟩
  rw [hfetch] at h hcache
  obtain rfl : device = _ := hcache
  obtain rfl := fetchThrough_fileEntryFor hP hcut hfetch
  dsimp only at h
  rcases hwrite : writeVerified env.toDiskEnv path (fileEntryFor P f) f.bytes w.disk with
    ⟨disk', e | u⟩
  · rw [hwrite] at h
    obtain ⟨rfl, rfl⟩ := Prod.mk.inj h
    exact Or.inl ⟨e, cache, rfl,
      writeVerified_error (hnames _ he) hdir hread hwhole hwrite, rfl⟩
  · rw [hwrite] at h
    obtain ⟨rfl, rfl⟩ := Prod.mk.inj h
    refine Or.inr ⟨f, cache, Disk.not_mem_iff.1 hfile, rfl, ?_, rfl, rfl⟩
    obtain ⟨hgo, hstop⟩ := writeVerified_spec env.toDiskEnv (fileEntryFor P f) f.bytes
      (F.names_normal path (hnames _ he)) w.disk
    by_cases hl : Lands env.toDiskEnv w.disk.files (· ∈ w.disk.dirs) path (fileEntryFor P f) f.bytes
    · obtain ⟨disk₁, h₁, hfiles, -⟩ := hgo hl
      obtain rfl := (Prod.mk.inj (hwrite.symm.trans h₁)).1
      exact hfiles
    · obtain ⟨disk₁, e, h₁⟩ := hstop hl
      cases (Prod.mk.inj (hwrite.symm.trans h₁)).2

/-- Where the file can be read and the cache takes in nothing, this is `evictFile`. -/
lemma evictFileOn_eq_evictFile (hpath : NormalPath path)
    (hread : ∀ f, w.disk.files[path]? = some f → F.readable (f.mode % 4096) = true)
    (htend : ∀ n cache, env.tend path n cache = (cache, .ok ())) :
    evictFile P haveSet keep env.stuck path (w.device.on w.disk) =
      ((evictFileOn P env haveSet keep path w).1.device.on
        (evictFileOn P env haveSet keep path w).1.disk,
        (evictFileOn P env haveSet keep path w).2) := by
  have hfiles : (w.device.on w.disk).files = w.disk.files := rfl
  rw [evictFile, evictFileOn, hfiles]
  rcases hf : w.disk.files[path]? with _ | f
  · rfl
  dsimp only
  rw [if_neg (not_not.2 (hread f hf))]
  split
  · rfl
  rw [htend]
  dsimp only
  have hmem := Disk.mem_of_getElem? hf
  rw [removeFile, if_neg (not_not.2 hpath)]
  by_cases hstuck : env.stuck path = true
  · rw [if_pos hstuck, if_pos hstuck]
    rfl
  · rw [if_neg hstuck, if_neg hstuck, Disk.remove, if_pos hmem]
    rfl

/-- Where nothing is in the way of the file and the cache takes in nothing, this is
`hydrateFile`. -/
lemma hydrateFileOn_eq_hydrateFile (around : SyncEnv) (hpath : NormalPath path)
    (htend : ∀ n cache, env.tend path n cache = (cache, .ok ()))
    (hfree : path ∉ w.disk.dirs) (hopen : around.blocked path = false)
    (hnow : around.now = F.stamp env.now)
    (hlands : ∀ entry content, w.device.placeholders[path]? = some entry →
      fetchContent P w.device s entry = .ok content →
      Lands env.toDiskEnv w.disk.files (· ∈ w.disk.dirs) path entry content ∧
        F.stamp (entry.mtimeSecs, entry.mtimeNanos) = (entry.mtimeSecs, entry.mtimeNanos)) :
    hydrateFile P around s path (w.device.on w.disk) =
      ((hydrateFileOn P env s path w).1.device.on (hydrateFileOn P env s path w).1.disk,
        (hydrateFileOn P env s path w).2) := by
  have hplace : (w.device.on w.disk).placeholders = w.device.placeholders := rfl
  have hfiles : (w.device.on w.disk).files = w.disk.files := rfl
  have hfetch : ∀ entry, fetchContent P (w.device.on w.disk) s entry =
      fetchContent P w.device s entry := fun _ => rfl
  have htend' : env.tend path = fun _ cache => (cache, .ok ()) := funext fun n => funext (htend n)
  rw [hydrateFile, hydrateFileOn, hplace, hfiles]
  rcases he : w.device.placeholders[path]? with _ | entry
  · rfl
  dsimp only
  by_cases hmem : path ∈ w.disk.files
  · rw [if_pos (Std.ExtTreeMap.mem_iff_contains.1 hmem), if_pos (Or.inl hmem)]
  rw [if_neg fun h => hmem (Std.ExtTreeMap.mem_iff_contains.2 h), if_neg (not_or.2 ⟨hmem, hfree⟩),
    htend', fetchThrough_idle, hfetch]
  rcases hcontent : fetchContent P w.device s entry with e | content
  · rfl
  obtain ⟨hl, hstamp⟩ := hlands entry content he hcontent
  obtain ⟨disk', hon, hin⟩ := writeVerified_eq_writeVerifiedFile around hpath hl hopen hstamp hnow
  dsimp only
  rw [hon, hin]
  rfl

/-- What one path keeps, a list of paths keeps, also one that fails halfway. -/
lemma eachPath_preserves {σ : Type} {I : σ → Prop} {f : String → σ → σ × Except SyncError Nat}
    (paths : List String) (hfile : ∀ path ∈ paths, ∀ w, I w → I (f path w).1) {w : σ} (h : I w) :
    I (eachPath f paths w).1 := by
  induction paths generalizing w with
  | nil => exact h
  | cons path paths ih =>
      have hone := hfile path List.mem_cons_self w h
      rw [eachPath]
      rcases he : f path w with ⟨w₁, e | size⟩
      · rwa [he] at hone
      · rw [he] at hone
        have hrest := ih (fun p hp => hfile p (List.mem_cons_of_mem _ hp)) hone
        dsimp only at hrest ⊢
        rcases hr : eachPath f paths w₁ with ⟨w₂, e | x⟩
        · rwa [hr] at hrest
        · rwa [hr] at hrest

end

/-! ## The invariant -/

/-- Every entry of the tree was read off a file that can come back as it was, and no name is that of
a temporary file. -/
structure Restorable (P : Platform) (F : FileSystem) (tree : Entries) : Prop where
  names : ∀ (p : String) e, tree[p]? = some e → F.names p = true
  tmp : ∀ q, tree[tmpPath q]? = none
  read : ∀ (p : String) e, tree[p]? = some e →
    ∃ f : LocalFile, f.Stamped F ∧ 0 ≤ f.mtimeSecs ∧ e = fileEntryFor P f

/-- The files and the placeholders make up the tree, and a scan sees the files as they are. -/
structure SyncDir.Steady (P : Platform) (tree : Entries) (w : SyncDir F) : Prop where
  entry : ∀ p, w.entryAt P p = tree[p]?
  /-- The index has no other entry for a file of the tree. -/
  index : ∀ p f, tree[p]? = some (fileEntryFor P f) →
    scanEntry P w.device.index p f = fileEntryFor P f
  scannable : ∀ (p : String) f, w.disk.files[p]? = some f → Scannable F w.device.index p f = true
  /-- What was evicted can be read again when it is back. -/
  readable : ∀ (p : String) e, w.disk.files[p]? = none → w.device.placeholders[p]? = some e →
    F.readable (e.mode % 4096) = true

section

variable {P : Platform} {w w' : SyncDir F} {tree : Entries} {p : String} {e : FileEntry}
  {f g : LocalFile} {index : Entries}

lemma SyncDir.entryAt_of_file (h : w.disk.files[p]? = some f) :
    w.entryAt P p = some (fileEntryFor P f) := by
  rw [SyncDir.entryAt, h]
  rfl

lemma SyncDir.entryAt_of_none (h : w.disk.files[p]? = none) :
    w.entryAt P p = w.device.placeholders[p]? := by
  rw [SyncDir.entryAt, h]
  rfl

/-- The scan looks at no more of a file than its entry shows. -/
lemma scanEntry_congr (h : fileEntryFor P g = fileEntryFor P f) :
    scanEntry P index p g = scanEntry P index p f := by
  have hsecs : g.mtimeSecs = f.mtimeSecs := congrArg FileEntry.mtimeSecs h
  have hnanos : g.mtimeNanos = f.mtimeNanos := congrArg FileEntry.mtimeNanos h
  have hsize : g.bytes.length = f.bytes.length := congrArg FileEntry.size h
  rw [scanEntry, scanEntry, indexLookup, indexLookup, hsecs, hnanos, hsize, h]

lemma indexLookup_of_row (h : index[p]? = some (fileEntryFor P f)) :
    indexLookup index p f = some (fileEntryFor P f) := by
  rw [indexLookup, h, Option.filter_some, if_pos (by simp [fileEntryFor])]

lemma scanEntry_of_row (h : index[p]? = some (fileEntryFor P f)) :
    scanEntry P index p f = fileEntryFor P f := by
  rw [scanEntry, indexLookup_of_row h]
  rfl

namespace SyncDir

/-- **The start.**  What is there and what was evicted make up a tree that can be kept. -/
lemma UpToDate.steady (h : w.UpToDate P) :
    Restorable P F (logicalTree P (w.device.on w.disk)).1.entries ∧
      w.Steady P (logicalTree P (w.device.on w.disk)).1.entries := by
  have hscan : ∀ (p : String) f, w.disk.files[p]? = some f →
      scanEntry P w.device.index p f = fileEntryFor P f := fun p f hf =>
    scanEntry_of_row (h.index p f hf)
  have htree : ∀ p : String, (logicalTree P (w.device.on w.disk)).1.entries[p]? =
      w.entryAt P p := by
    intro p
    rw [logicalTree_getElem?, Device.entryAt, entryAt]
    change (w.disk.files[p]?.map (scanEntry P w.device.index p)).or _ = _
    rcases hf : w.disk.files[p]? with _ | f
    · rfl
    · rw [Option.map_some, Option.map_some, hscan p f hf]
      rfl
  -- every entry is that of a file, or of an evicted one
  have hcases : ∀ (p : String) e, w.entryAt P p = some e →
      (∃ f, w.disk.files[p]? = some f ∧ e = fileEntryFor P f) ∨
        p ∉ w.disk.files ∧ w.device.placeholders[p]? = some e := by
    intro p e he
    rcases hf : w.disk.files[p]? with _ | f
    · exact Or.inr ⟨Disk.not_mem_iff.2 hf, (entryAt_of_none hf).symm.trans he⟩
    · exact Or.inl ⟨f, rfl, Option.some.inj (he.symm.trans (entryAt_of_file hf))⟩
  constructor
  · constructor
    · intro p e he
      rcases hcases p e ((htree p).symm.trans he) with ⟨f, hf, -⟩ | ⟨hf, hp⟩
      · exact w.disk.named p (Or.inl (Disk.mem_of_getElem? hf))
      · exact (h.evicted p e hf hp).1
    · intro q
      rcases he : w.entryAt P (tmpPath q) with _ | e
      · rw [htree, he]
      · rcases hcases _ e he with ⟨f, hf, -⟩ | ⟨-, hp⟩
        · exact absurd rfl (h.tmp _ q (Or.inl (Disk.mem_of_getElem? hf)))
        · refine absurd rfl (h.tmp _ q (Or.inr ?_))
          rw [Std.ExtTreeMap.mem_iff_isSome_getElem?, hp]
          rfl
    · intro p e he
      rcases hcases p e ((htree p).symm.trans he) with ⟨f, hf, hef⟩ | ⟨hf, hp⟩
      · exact ⟨f, w.disk.stamped p f hf, h.mtime p f hf, hef⟩
      · obtain ⟨-, f, hstamp, hmtime, -, hef, -⟩ := h.evicted p e hf hp
        exact ⟨f, hstamp, hmtime, hef⟩
  · constructor
    · exact fun p => (htree p).symm
    · intro p g hg
      rcases hcases p _ ((htree p).symm.trans hg) with ⟨f, hf, hgf⟩ | ⟨hf, hp⟩
      · rw [scanEntry_congr hgf, hscan p f hf, hgf]
      · obtain ⟨-, f, -, -, -, hgf, hrow⟩ := h.evicted p _ hf hp
        rw [scanEntry_congr hgf, hrow]
    · intro p f hf
      rw [Scannable, indexLookup_of_row (h.index p f hf)]
      rfl
    · intro p e hf hp
      obtain ⟨-, f, -, -, hread, rfl, -⟩ := h.evicted p e (Disk.not_mem_iff.2 hf) hp
      have hmode : (fileEntryFor P f).mode % 4096 = f.mode % 4096 := Nat.mod_mod _ _
      rw [hmode]
      exact hread

/-- The logical tree is the tree, and the state learns nothing that is not in it. -/
lemma Steady.logicalTreeOn (h : w.Steady P tree) (reached : String → Bool) :
    (logicalTreeOn P reached w).2 = some ⟨fsManifestKind, tree⟩ ∧
      (logicalTreeOn P reached w).1.Steady P tree := by
  have hall : (w.disk.files.toList.all fun x => Scannable F w.device.index x.1 x.2) = true := by
    rw [List.all_eq_true]
    exact fun x hx => h.scannable x.1 x.2 (Std.ExtTreeMap.mem_toList_iff_getElem?_eq_some.1 hx)
  have hscan : ∀ (p : String) f, w.disk.files[p]? = some f →
      scanEntry P w.device.index p f = fileEntryFor P f := fun p f hf =>
    h.index p f ((h.entry p).symm.trans (entryAt_of_file hf))
  have hscanned : ∀ p : String, (scanTreeIndexed P (w.device.on w.disk))[p]? =
      w.disk.files[p]?.map (fileEntryFor P) := by
    intro p
    have hmap : (scanTreeIndexed P (w.device.on w.disk))[p]? =
        w.disk.files[p]?.map (scanEntry P w.device.index p) := by
      simp [scanTreeIndexed, Device.on]
    rw [hmap]
    rcases hf : w.disk.files[p]? with _ | f
    · rfl
    · rw [Option.map_some, Option.map_some, hscan p f hf]
  rw [Ciss.logicalTreeOn, if_pos hall]
  constructor
  · have hentries : (logicalTree P (w.device.on w.disk)).1.entries = tree := by
      refine Std.ExtTreeMap.ext_getElem? fun {p} => ?_
      change (w.device.placeholders ∪ scanTreeIndexed P (w.device.on w.disk))[p]? = tree[p]?
      rw [Std.ExtTreeMap.getElem?_union, hscanned, ← h.entry p]
      rfl
    rw [← hentries]
    rfl
  · have hindex : ∀ p : String, (w.device.index ∪ scanTreeIndexed P (w.device.on w.disk))[p]? =
        (w.disk.files[p]?.map (fileEntryFor P)).or w.device.index[p]? := by
      intro p
      rw [Std.ExtTreeMap.getElem?_union, hscanned]
    have hplace : ∀ p : String, (w.device.placeholders.filter fun p _ =>
        !(scanTreeIndexed P (w.device.on w.disk)).contains p)[p]? =
          if w.disk.files[p]? = none then w.device.placeholders[p]? else none := by
      intro p
      rw [Std.ExtTreeMap.getElem?_filter', Std.ExtTreeMap.contains_eq_isSome_getElem?, hscanned]
      rcases w.disk.files[p]? with _ | f
      · cases w.device.placeholders[p]? <;> simp
      · simp
    constructor
    · intro p
      rw [← h.entry p]
      change (w.disk.files[p]?.map (fileEntryFor P)).or (w.device.placeholders.filter fun p _ =>
        !(scanTreeIndexed P (w.device.on w.disk)).contains p)[p]? = w.entryAt P p
      rw [hplace, entryAt]
      rcases w.disk.files[p]? with _ | f
      · rfl
      · rfl
    · intro p g hg
      rcases hf : w.disk.files[p]? with _ | f
      · have hrow : (w.device.index ∪ scanTreeIndexed P (w.device.on w.disk))[p]? =
            w.device.index[p]? := by
          rw [hindex, hf]
          rfl
        change scanEntry P (w.device.index ∪ scanTreeIndexed P (w.device.on w.disk)) p g = _
        rw [scanEntry, indexLookup, hrow]
        exact h.index p g hg
      · have hgf : fileEntryFor P g = fileEntryFor P f :=
          Option.some.inj (hg.symm.trans ((h.entry p).symm.trans (entryAt_of_file hf)))
        refine scanEntry_of_row ?_
        change (w.device.index ∪ scanTreeIndexed P (w.device.on w.disk))[p]? = _
        rw [hindex, hf, hgf]
        rfl
    · intro p f (hf : w.disk.files[p]? = some f)
      have hrow : (w.device.index ∪ scanTreeIndexed P (w.device.on w.disk))[p]? =
          some (fileEntryFor P f) := by
        rw [hindex, hf]
        rfl
      change Scannable F (w.device.index ∪ scanTreeIndexed P (w.device.on w.disk)) p f = true
      rw [Scannable, indexLookup_of_row hrow]
      rfl
    · intro p e (hf : w.disk.files[p]? = none) hp
      refine h.readable p e hf ?_
      change (w.device.placeholders.filter fun p _ =>
        !(scanTreeIndexed P (w.device.on w.disk)).contains p)[p]? = some e at hp
      rwa [hplace, if_pos hf] at hp

/-- Only the disk and the placeholders count, and what a command does to them at one path. -/
lemma Steady.withCache (h : w.Steady P tree) (cache : ByCid Bytes) :
    SyncDir.Steady P tree ⟨w.disk, { w.device with cache := cache }⟩ :=
  ⟨h.entry, h.index, h.scannable, h.readable⟩

lemma Steady.evictFileOn (h : w.Steady P tree) {env : FootEnv F} {haveSet keep : String → Bool}
    {path : String} (hpath : NormalPath path) :
    (evictFileOn P env haveSet keep path w).1.Steady P tree := by
  rcases hrun : Ciss.evictFileOn P env haveSet keep path w with ⟨w', r⟩
  rcases evictFileOn_cases hpath hrun with ⟨e, cache, -, rfl⟩ | ⟨f, cache, hf, hread, hdevice, hr⟩
  · exact h.withCache cache
  have hplace : ∀ p : String, w'.device.placeholders[p]? =
      if path = p then some (fileEntryFor P f) else w.device.placeholders[p]? := by
    intro p
    rw [hdevice, Std.ExtTreeMap.getElem?_insert]
    simp only [Std.LawfulEqCmp.compare_eq_iff_eq]
  have hindex : w'.device.index = w.device.index := by rw [hdevice]
  -- the file of the path is there or gone, and every other file is there
  have hfiles : ∀ p : String, w'.disk.files[p]? = w.disk.files[p]? ∨
      p = path ∧ w'.disk.files[p]? = none := by
    intro p
    rcases hr with ⟨-, -, hdisk⟩ | ⟨-, hdisk, -⟩
    · exact Or.inl (by rw [hdisk])
    · rw [hdisk, Std.ExtTreeMap.getElem?_erase]
      split
      · rename_i heq
        exact Or.inr ⟨(Std.LawfulEqCmp.eq_of_compare heq).symm, rfl⟩
      · exact Or.inl rfl
  constructor
  · intro p
    rw [← h.entry p]
    by_cases hp : path = p
    · subst hp
      rw [entryAt_of_file hf]
      rcases hfiles path with hsame | ⟨-, hgone⟩
      · exact entryAt_of_file (hsame.trans hf)
      · rw [entryAt_of_none hgone, hplace, if_pos rfl]
    · have hsame := (hfiles p).resolve_right fun hgone => hp hgone.1.symm
      rw [entryAt, entryAt, hsame, hplace, if_neg hp]
  · intro p g hg
    rw [hindex]
    exact h.index p g hg
  · intro p g hg
    rw [hindex]
    rcases hfiles p with hsame | ⟨-, hgone⟩
    · exact h.scannable p g (hsame.symm.trans hg)
    · rw [hgone] at hg
      cases hg
  · intro p e hnone hp
    rw [hplace] at hp
    split at hp
    · rw [← Option.some.inj hp]
      have hmode : (fileEntryFor P f).mode % 4096 = f.mode % 4096 := Nat.mod_mod _ _
      rw [hmode]
      exact hread
    · rename_i hne
      refine h.readable p e ?_ hp
      rcases hfiles p with hsame | ⟨hp, -⟩
      · exact hsame.symm.trans hnone
      · exact absurd hp.symm hne

/-- The file that stands for an entry, when it is written back. -/
lemma fileEntryFor_written (ht : Restorable P F tree) (h : tree[p]? = some (fileEntryFor P f))
    (env : DiskEnv F) :
    fileEntryFor P (landed env (fileEntryFor P f) f.bytes) = fileEntryFor P f := by
  obtain ⟨g, hstamp, hmtime, heq⟩ := ht.read p _ h
  have hsecs : f.mtimeSecs = g.mtimeSecs := congrArg FileEntry.mtimeSecs heq
  have hnanos : f.mtimeNanos = g.mtimeNanos := congrArg FileEntry.mtimeNanos heq
  apply fileEntryFor_landed
  · rwa [LocalFile.Stamped, hsecs, hnanos]
  · rwa [hsecs]

/-- **One hydration in a steady directory.** -/
lemma Steady.hydrateFileOn_cases (h : w.Steady P tree) (hP : P.Lawful) (hcut : P.CutsWhole)
    (ht : Restorable P F tree) {env : FootEnv F} {path : String}
    (hwhole : ∀ n, env.fault path ≠ some (.cut n)) {s : SyncServer} {r : Except SyncError Nat}
    (hrun : hydrateFileOn P env s path w = (w', r)) :
    (∃ e cache, r = .error e ∧ w'.disk.files = w.disk.files ∧
      w'.device = { w.device with cache := cache }) ∨
    ∃ f g cache, w.disk.files[path]? = none ∧ tree[path]? = some (fileEntryFor P f) ∧
      fileEntryFor P g = fileEntryFor P f ∧ g.mode = f.mode % 4096 ∧
      F.readable (g.mode % 4096) = true ∧ w'.disk.files = w.disk.files.insert path g ∧
      w'.device = { w.device with
        cache := cache, placeholders := w.device.placeholders.erase path } := by
  have hnone : ∀ q, w.disk.files[tmpPath q]? = none := by
    intro q
    rcases hf : w.disk.files[tmpPath q]? with _ | f
    · rfl
    · have := (h.entry (tmpPath q)).symm.trans (entryAt_of_file hf)
      rw [ht.tmp q] at this
      cases this
  have hnames : ∀ e, w.device.placeholders[path]? = some e → F.names path = true := by
    intro e he
    rcases hf : w.disk.files[path]? with _ | f
    · exact ht.names path e ((h.entry path).symm.trans ((entryAt_of_none hf).trans he))
    · exact w.disk.named path (Or.inl (Disk.mem_of_getElem? hf))
  have hentry : ∀ e, path ∉ w.disk.files → w.device.placeholders[path]? = some e →
      F.readable (e.mode % 4096) = true ∧ ∃ f : LocalFile, e = fileEntryFor P f := by
    intro e hf he
    have hf := Disk.not_mem_iff.1 hf
    obtain ⟨f, -, -, hef⟩ := ht.read path e
      ((h.entry path).symm.trans ((entryAt_of_none hf).trans he))
    exact ⟨h.readable path e hf he, f, hef⟩
  rcases Ciss.hydrateFileOn_cases hP hcut hnames hentry hwhole hrun with
    hstays | ⟨f, cache, hf, he, hfiles, hdevice, -⟩
  · exact Or.inl hstays
  have htree : tree[path]? = some (fileEntryFor P f) :=
    (h.entry path).symm.trans ((entryAt_of_none hf).trans he)
  refine Or.inr ⟨f, landed env.toDiskEnv (fileEntryFor P f) f.bytes, cache, hf, htree,
    fileEntryFor_written ht htree env.toDiskEnv, rfl, h.readable path _ hf he, ?_, hdevice⟩
  rw [hfiles]
  congr 1
  refine Std.ExtTreeMap.ext_getElem? fun {q} => ?_
  rw [Std.ExtTreeMap.getElem?_erase]
  split
  · rename_i heq
    rw [← Std.LawfulEqCmp.eq_of_compare heq, hnone]
  · rfl

lemma Steady.hydrateFileOn (h : w.Steady P tree) (hP : P.Lawful) (hcut : P.CutsWhole)
    (ht : Restorable P F tree) {env : FootEnv F} {path : String}
    (hwhole : ∀ n, env.fault path ≠ some (.cut n)) (s : SyncServer) :
    (hydrateFileOn P env s path w).1.Steady P tree := by
  rcases hrun : Ciss.hydrateFileOn P env s path w with ⟨w', r⟩
  rcases h.hydrateFileOn_cases hP hcut ht hwhole hrun with
    ⟨e, cache, -, hfiles, hdevice⟩ | ⟨f, g, cache, hnone, htree, hgf, -, hread, hfiles, hdevice⟩
  · constructor
    · intro p
      rw [← h.entry p, entryAt, entryAt, hfiles, hdevice]
    · intro p f hf
      rw [hdevice]
      exact h.index p f hf
    · intro p f hf
      rw [hfiles] at hf
      rw [hdevice]
      exact h.scannable p f hf
    · intro p e hf hp
      rw [hfiles] at hf
      rw [hdevice] at hp
      exact h.readable p e hf hp
  have hget : ∀ p : String, w'.disk.files[p]? = if path = p then some g else w.disk.files[p]? := by
    intro p
    rw [hfiles, Std.ExtTreeMap.getElem?_insert]
    simp only [Std.LawfulEqCmp.compare_eq_iff_eq]
  have hplace : ∀ p : String, w'.device.placeholders[p]? =
      if path = p then none else w.device.placeholders[p]? := by
    intro p
    rw [hdevice, Std.ExtTreeMap.getElem?_erase]
    simp only [Std.LawfulEqCmp.compare_eq_iff_eq]
  have hindex : w'.device.index = w.device.index := by rw [hdevice]
  constructor
  · intro p
    by_cases hp : path = p
    · subst hp
      rw [entryAt_of_file ((hget path).trans (if_pos rfl)), hgf, htree]
    · rw [← h.entry p, entryAt, entryAt, hget, hplace, if_neg hp, if_neg hp]
  · intro p f hf
    rw [hindex]
    exact h.index p f hf
  · intro p k hk
    rw [hindex]
    rw [hget] at hk
    split at hk
    · rw [← Option.some.inj hk, Scannable, hread, Bool.or_true]
    · exact h.scannable p k hk
  · intro p e hf hp
    rw [hget] at hf
    rw [hplace] at hp
    split at hf
    · cases hf
    · rename_i hne
      rw [if_neg hne] at hp
      exact h.readable p e hf hp

/-- **One command.** -/
lemma Steady.step (h : w.Steady P tree) (hP : P.Lawful) (hcut : P.CutsWhole)
    (ht : Restorable P F tree) {a : FootAction F} (ha : a.Proper) : (w.step P a).Steady P tree := by
  cases a with
  | evict env backing paths =>
      rcases backing with e | ⟨haveSet, keep⟩
      · exact h
      have hrun := eachPath_preserves (I := SyncDir.Steady P tree)
        (f := Ciss.evictFileOn P env haveSet keep) paths
        (fun path hpath w hw => hw.evictFileOn (ha path hpath)) h
      change (evictOn P env (.ok (haveSet, keep)) paths w).1.Steady P tree
      rw [evictOn]
      rcases hr : eachPath (Ciss.evictFileOn P env haveSet keep) paths w with ⟨w', e | x⟩
      · rwa [hr] at hrun
      · rwa [hr] at hrun
  | hydrate env s paths =>
      have hrun := eachPath_preserves (I := SyncDir.Steady P tree)
        (f := Ciss.hydrateFileOn P env s) (hydrateTargets w.device paths)
        (fun path _ w hw => hw.hydrateFileOn hP hcut ht (ha path) s) h
      change (hydrateOn P env s paths w).1.Steady P tree
      rw [hydrateOn]
      rcases hr : eachPath (Ciss.hydrateFileOn P env s) (hydrateTargets w.device paths) w with
        ⟨w', e | x⟩
      · rwa [hr] at hrun
      · rwa [hr] at hrun
  | cache cache => exact h.withCache cache
  | logicalTree reached => exact (h.logicalTreeOn reached).2

end SyncDir

end

/-- **Eviction is invisible to the logical tree.**  A directory with an up-to-date index has one
logical tree throughout every run of evictions, hydrations and cache operations in which no write
breaks off halfway.  An eviction that fails leaves every file where it is; the placeholders change
only when the file could not be removed, and then by its own entry.  A file that a hydration brings
back has the content, the mode bits and the time that it had at any earlier point of the run. -/
theorem eviction_invisible {P : Platform} (hP : P.Lawful) (hcut : P.CutsWhole) (w : SyncDir F)
    (hw : w.UpToDate P) :
    ∃ tree : FsManifest, ∀ acts, Along (SyncDir.step P) (fun _ a => a.Proper) w acts →
      (∀ reached, (logicalTreeOn P reached (run (SyncDir.step P) w acts)).2 = some tree) ∧
      (∀ env haveSet keep path w' e, NormalPath path →
        evictFileOn P env haveSet keep path (run (SyncDir.step P) w acts) = (w', .error e) →
        w'.disk = (run (SyncDir.step P) w acts).disk ∧
          (w'.device.placeholders = (run (SyncDir.step P) w acts).device.placeholders ∨
            env.stuck path = true ∧ ∃ f,
              (run (SyncDir.step P) w acts).disk.files[path]? = some f ∧
              w'.device.placeholders = (run (SyncDir.step P) w acts).device.placeholders.insert path
                (fileEntryFor P f))) ∧
      ∀ env s path w' size, (∀ n, env.fault path ≠ some (.cut n)) →
        hydrateFileOn P env s path (run (SyncDir.step P) w acts) = (w', .ok size) →
        ∃ g, w'.disk.files[path]? = some g ∧ tree.entries[path]? = some (fileEntryFor P g) ∧
          ∀ before f, before <+: acts →
            (run (SyncDir.step P) w before).disk.files[path]? = some f →
            g.bytes = f.bytes ∧ g.mode = f.mode % 4096 ∧ g.mtimeSecs = f.mtimeSecs ∧
              g.mtimeNanos = f.mtimeNanos := by
  obtain ⟨hrestorable, hstart⟩ := hw.steady
  have hsteady : ∀ acts, Along (SyncDir.step P) (fun _ a => a.Proper) w acts →
      (run (SyncDir.step P) w acts).Steady P (logicalTree P (w.device.on w.disk)).1.entries :=
    fun acts hacts => run_invariant (fun _ _ h ha => h.step hP hcut hrestorable ha) hstart hacts
  refine ⟨⟨fsManifestKind, (logicalTree P (w.device.on w.disk)).1.entries⟩, fun acts hacts =>
    ⟨fun reached => ((hsteady acts hacts).logicalTreeOn reached).1, ?_, ?_⟩⟩
  · intro env haveSet keep path w' e hpath hrun
    rcases evictFileOn_cases hpath hrun with ⟨e', cache, -, rfl⟩ | ⟨f, cache, hf, -, hdevice, hr⟩
    · exact ⟨rfl, Or.inl rfl⟩
    · rcases hr with ⟨-, hstuck, hdisk⟩ | ⟨hok, -⟩
      · exact ⟨hdisk, Or.inr ⟨hstuck, f, hf, by rw [hdevice]⟩⟩
      · cases hok
  · intro env s path w' size hwhole hrun
    rcases (hsteady acts hacts).hydrateFileOn_cases hP hcut hrestorable hwhole hrun with
      ⟨e, cache, hr, -⟩ | ⟨k, g, cache, -, htree, hgk, hmode, -, hfiles, -⟩
    · cases hr
    refine ⟨g, by rw [hfiles, Std.ExtTreeMap.getElem?_insert_self], by rw [hgk]; exact htree, ?_⟩
    intro before f hbefore hf
    obtain ⟨rest, rfl⟩ := hbefore
    have hentry := ((hsteady before (along_append.1 hacts).1).entry path).symm.trans
      (SyncDir.entryAt_of_file hf)
    have hkf : fileEntryFor P k = fileEntryFor P f := Option.some.inj (htree.symm.trans hentry)
    have hgf := hgk.trans hkf
    exact ⟨bytes_eq_of_fileEntryFor hP hcut hgf, hmode.trans (congrArg FileEntry.mode hkf),
      congrArg FileEntry.mtimeSecs hgf, congrArg FileEntry.mtimeNanos hgf⟩

/-! ### One file, evicted and hydrated -/

namespace TwoDevices

/-- `f` is on disk and in the index. -/
def scanned : SyncDir posix :=
  ⟨diskOf [("f", ⟨420, 1, 0, asBytes "one"⟩)],
    { fresh [] with index := (∅ : Entries).insert "f" fileOne }⟩

/-- Nothing fails, and the cache takes in nothing. -/
def atRest : FootEnv posix := { quiet posix with tend := fun _ _ cache => (cache, .ok ()) }

/-- The directory is read-only. -/
def readOnly : FootEnv posix := { atRest with stuck := fun _ => true }

/-- The disk is full after one byte. -/
def fullDisk : FootEnv posix := { atRest with fault := fun _ => some (.cut 1) }

def everything : Except SyncError ((String → Bool) × (String → Bool)) :=
  .ok (fun _ => true, fun _ => true)

lemma scanned_upToDate : scanned.UpToDate platform := by
  have hall : ∀ x ∈ scanned.disk.files.toList, x.1 = "f" ∧ 0 ≤ x.2.mtimeSecs ∧
      scanned.device.index[x.1]? = some (fileEntryFor platform x.2) := by
    decide +kernel
  have hfile : ∀ (p : String) f, scanned.disk.files[p]? = some f → p = "f" ∧ 0 ≤ f.mtimeSecs ∧
      scanned.device.index[p]? = some (fileEntryFor platform f) := fun p f hf =>
    hall (p, f) (Std.ExtTreeMap.mem_toList_iff_getElem?_eq_some.2 hf)
  have hplace : scanned.device.placeholders = ∅ := rfl
  constructor
  · exact fun p f hf => (hfile p f hf).2.1
  · exact fun p f hf => (hfile p f hf).2.2
  · intro p q hp
    rw [hplace] at hp
    obtain ⟨f, hf⟩ := Disk.exists_of_mem (hp.resolve_right (by simp))
    rw [(hfile p f hf).1]
    intro heq
    obtain ⟨parent, name, -, -, htmp, -⟩ := tmpPath_split q
    have hlen := congrArg (fun s => s.toList.length) (heq.trans htmp)
    have hf1 : ("f" : String).toList.length = 1 := by decide
    have h14 : (".ciss-restore-" : String).toList.length = 14 := by decide
    simp only [String.toList_append, List.length_append] at hlen
    omega
  · intro p e _ hp
    rw [hplace] at hp
    simp at hp

/-- Evicted, and hydrated again from the server. -/
def roundTrip : List (FootAction posix) :=
  [.evict atRest everything ["f"], .hydrate atRest account4 none]

/-- Evicted, and the hydration breaks off. -/
def brokenOff : List (FootAction posix) :=
  [.evict atRest everything ["f"], .hydrate fullDisk account4 none]

end TwoDevices

theorem eviction_invisible_round_trip :
    ∃ tree, (logicalTreeOn TwoDevices.platform (fun _ => true) TwoDevices.scanned).2 = some tree ∧
      (logicalTreeOn TwoDevices.platform (fun _ => true) (run (SyncDir.step TwoDevices.platform)
        TwoDevices.scanned TwoDevices.roundTrip)).2 = some tree := by
  obtain ⟨tree, h⟩ := eviction_invisible TwoDevices.lawful TwoDevices.cutsWhole TwoDevices.scanned
    TwoDevices.scanned_upToDate
  refine ⟨tree, (h [] trivial).1 _, (h TwoDevices.roundTrip ⟨?_, ?_, trivial⟩).1 _⟩
  · intro p hp
    obtain rfl := List.mem_singleton.1 hp
    decide +kernel
  · intro p n h
    cases h

/-- An eviction that cannot remove the file has recorded its placeholder; and a hydration that
breaks off leaves a file in the tree. -/
theorem failed_commands_leave_traces :
    (¬ ∀ (P : Platform), P.Lawful → P.CutsWhole → ∀ (F : FileSystem) (w w' : SyncDir F)
      (env : FootEnv F) (haveSet keep : String → Bool) (path : String) (e : SyncError),
      w.UpToDate P → NormalPath path →
      evictFileOn P env haveSet keep path w = (w', .error e) →
      w'.disk.files[path]? = w.disk.files[path]? ∧
        w'.device.placeholders[path]? = w.device.placeholders[path]?) ∧
    ¬ ∀ (P : Platform), P.Lawful → P.CutsWhole → ∀ (F : FileSystem) (w : SyncDir F)
      (acts : List (FootAction F)), w.UpToDate P →
      (logicalTreeOn P (fun _ => true) (run (SyncDir.step P) w acts)).2 =
        (logicalTreeOn P (fun _ => true) w).2 := by
  constructor
  · intro h
    rcases hrun : evictFileOn TwoDevices.platform TwoDevices.readOnly (fun _ => true)
      (fun _ => true) "f" TwoDevices.scanned with ⟨w', r⟩
    have hobserved : (evictFileOn TwoDevices.platform TwoDevices.readOnly (fun _ => true)
        (fun _ => true) "f" TwoDevices.scanned).2.toOption = none ∧
        (evictFileOn TwoDevices.platform TwoDevices.readOnly (fun _ => true)
          (fun _ => true) "f" TwoDevices.scanned).1.device.placeholders["f"]? ≠ none := by
      decide +kernel
    rw [hrun] at hobserved
    rcases r with e | size
    · exact hobserved.2 ((h _ TwoDevices.lawful TwoDevices.cutsWhole posix TwoDevices.scanned w'
        TwoDevices.readOnly _ _ "f" e TwoDevices.scanned_upToDate (by decide +kernel) hrun).2)
    · cases hobserved.1
  · intro h
    have hsame := h _ TwoDevices.lawful TwoDevices.cutsWhole posix TwoDevices.scanned
      TwoDevices.brokenOff TwoDevices.scanned_upToDate
    have hother : ((logicalTreeOn TwoDevices.platform (fun _ => true) (run
        (SyncDir.step TwoDevices.platform) TwoDevices.scanned TwoDevices.brokenOff)).2.map
          fun tree => tree.entries.size) ≠
        (logicalTreeOn TwoDevices.platform (fun _ => true) TwoDevices.scanned).2.map
          fun tree => tree.entries.size := by
      decide +kernel
    exact hother (by rw [hsame])

end Ciss
