import Ciss.Sync.Footprint
import Ciss.Sync.KeepSet
import Mathlib.Data.List.Forall2

/-!
# A committed backup is complete

A blob reaches the server along one of three ways: it was there, it is uploaded from its file, or
it is uploaded from the chunk cache because its file was evicted.  Between the scan and the
uploads the directory may change in any way.  A backup that returns went through all of them, so
that everything it lists for its own tree is on the server (`committed_backup_complete`).
-/

namespace Ciss

/-- What the client relies on in the cutter: a file is the concatenation of its pieces, and no
piece is empty. -/
structure Platform.CutsWhole (P : Platform) : Prop where
  flatten : ∀ bytes, bytes ≠ [] → (P.cut bytes).flatten = bytes
  nonempty : ∀ bytes, bytes ≠ [] → ∀ piece ∈ P.cut bytes, piece ≠ []

/-- The have-set names only what the server holds. -/
def TruthfulHave (s : SyncServer) (haveSet : String → Bool) : Prop :=
  ∀ cid, haveSet cid = true → cid ∈ s.blobs

/-- Bytes that hash to the address are on the server. -/
def SyncServer.Holds (P : Platform) (s : SyncServer) (cid : String) : Prop :=
  ∃ bytes, s.blobs[cid]? = some bytes ∧ P.crypto.sha256Hex bytes = cid

/-- The reference of a piece of a file. -/
def chunkRefOf (P : Platform) (piece : Bytes) : ChunkRef :=
  ⟨P.crypto.sha256Hex piece, P.blake3Hex piece, piece.length⟩

/-- The chunks of an entry, read from the server in order, have the recorded hashes and lengths
and add up to the recorded size. -/
def SyncServer.Assembles (P : Platform) (s : SyncServer) (entry : FileEntry) : Prop :=
  ∃ pieces : List Bytes, List.Forall₂ (fun c piece => s.blobs[c.sha256]? = some piece ∧
    c = chunkRefOf P piece) entry.chunks pieces ∧ pieces.flatten.length = entry.size

/-- What a committed push has to leave behind. -/
structure CompleteBackup (P : Platform) (s : SyncServer) (pushed : PushedTree) : Prop where
  /-- The committed manifest lists the blobs of the tree. -/
  listed : ∃ m, s.slot.manifest = some m ∧ ∀ x ∈ pushed.needed, m.Lists x.1
  /-- The server holds them. -/
  stored : ∀ x ∈ pushed.needed, s.Holds P x.1
  /-- The committed fs-manifest is one of them, and so are its chunks; each of its entries can be
  put together. -/
  tree : ∃ tree bytes, s.blobs[pushed.fsManifestCid]? = some bytes ∧
    FsManifest.decode P.codec bytes = .ok tree ∧
    (∃ n, (pushed.fsManifestCid, n) ∈ pushed.needed) ∧
    ∀ (path : String) (entry : FileEntry), tree.entries[path]? = some entry →
      s.Assembles P entry ∧ ∀ c ∈ entry.chunks, ∃ n, (c.sha256, n) ∈ pushed.needed

section

variable {P : Platform} {s s' : SyncServer} {env : PushEnv} {opened : Bool} {i : Install P}
  {d d' : Device} {w w' : Wire} {pushed : PushedTree} {cid : String} {key : Keypair}
  {fault : Option PersistError}

lemma SyncServer.Addressed.holds (ha : s.Addressed P) (hc : cid ∈ s.blobs) : s.Holds P cid := by
  rw [Std.ExtTreeMap.mem_iff_isSome_getElem?] at hc
  obtain ⟨bytes, hb⟩ := Option.isSome_iff_exists.mp hc
  exact ⟨bytes, hb, ha cid bytes hb⟩

/-- The chunks of an entry that was read off a file are the pieces of that file. -/
lemma chunks_fileEntryFor (f : LocalFile) : (fileEntryFor P f).chunks =
    (if f.bytes.isEmpty then [] else P.cut f.bytes).map (chunkRefOf P) := by
  unfold fileEntryFor chunkFile
  dsimp only
  split
  · rfl
  · rw [List.map_map]
    rfl

/-- A file is put together from its pieces, also an empty one. -/
lemma Platform.CutsWhole.flatten_pieces (hcut : P.CutsWhole) (bytes : Bytes) :
    (if bytes.isEmpty then [] else P.cut bytes).flatten = bytes := by
  split
  · rename_i hempty
    rw [List.isEmpty_iff.mp hempty]
    rfl
  · rename_i hempty
    exact hcut.flatten _ (by simpa [List.isEmpty_iff] using hempty)

/-- An entry that was read off a file can be put together when the server holds its chunks. -/
lemma assembles_of_holds (hP : P.Lawful) (hcut : P.CutsWhole) {entry : FileEntry}
    (hread : entry.Read P) (hs : ∀ c ∈ entry.chunks, s.Holds P c.sha256) :
    s.Assembles P entry := by
  obtain ⟨f, rfl⟩ := hread
  refine ⟨if f.bytes.isEmpty then [] else P.cut f.bytes, ?_, ?_⟩
  · rw [chunks_fileEntryFor, List.forall₂_map_left_iff, List.forall₂_same]
    intro piece hpiece
    obtain ⟨bytes, hb, hsha⟩ := hs (chunkRefOf P piece) (by
      rw [chunks_fileEntryFor]
      exact List.mem_map_of_mem hpiece)
    obtain rfl := hP.sha256Hex_injective hsha
    exact ⟨hb, rfl⟩
  · rw [hcut.flatten_pieces]
    rfl

/-- A commit of a push whose blobs are on the server. -/
lemma completeBackup_of_push (hP : P.Lawful) (hcut : P.CutsWhole) (ha : w.server.Addressed P)
    (htrue : TruthfulHave w.server env.haveSet)
    (hpush : pushOver P env opened i.device w = (d', w', .ok pushed))
    (hblobs : ∀ (cid : String) (b : Bytes), w'.server.blobs[cid]? = some b → s.blobs[cid]? = some b)
    (hlisted : ∃ m, s.slot.manifest = some m ∧ ∀ x ∈ pushed.needed, m.Lists x.1) :
    CompleteBackup P s pushed := by
  obtain ⟨bytes, henc, hcid, hneeded, hgrows, haddr, hall⟩ := pushOver_stored hpush
  have hstored : ∀ x ∈ pushed.needed, s.Holds P x.1 := by
    intro x hx
    have hmem : x.1 ∈ w'.server.blobs := by
      by_cases hhave : env.haveSet x.1 = true
      · exact hgrows.mem_blobs (htrue x.1 hhave)
      · exact hall x hx (by simpa using hhave)
    obtain ⟨b, hb, hsha⟩ := (haddr ha).holds hmem
    exact ⟨b, hblobs _ b hb, hsha⟩
  refine ⟨hlisted, hstored, ?_⟩
  have hmanifest : (pushed.fsManifestCid, bytes.length) ∈ pushed.needed := by
    rw [hneeded]
    simp
  obtain ⟨b, hb, hsha⟩ := hstored _ hmanifest
  obtain rfl : b = bytes := hP.sha256Hex_injective (hsha.trans hcid)
  have hkind : (logicalTreeWith P opened i.device).1.kind = fsManifestKind := by
    unfold logicalTreeWith
    split
    · rfl
    · rfl
  obtain ⟨b', hb', hdec⟩ := treeNamed_of_encode hP hkind henc
  obtain rfl := hP.sha256Hex_injective hb'
  refine ⟨_, b', hb, hdec, ⟨_, hmanifest⟩, ?_⟩
  intro path entry he
  have hchunk : ∀ c ∈ entry.chunks, ∃ n, (c.sha256, n) ∈ pushed.needed := by
    intro c hc
    obtain ⟨n, hn⟩ := mem_distinctChunks.mpr ⟨path, entry, he, c, hc, rfl⟩
    rw [hneeded]
    exact ⟨n, List.mem_append_left _ hn⟩
  refine ⟨assembles_of_holds hP hcut (logicalTreeWith_read i.recorded he) ?_, hchunk⟩
  intro c hc
  obtain ⟨n, hn⟩ := hchunk c hc
  exact hstored _ hn

/-- **What a keep-set commit can do.**  It is refused and changes nothing, or the slot holds the
leaves. -/
lemma commitKeepSet_cases {leaves : List (String × Nat)} {seq : Nat} {r : Except SyncError Unit}
    (h : commitKeepSet P key fault s leaves seq = (s', r)) :
    (s' = s ∧ ∃ e, r = .error e) ∨
      ∃ m, s' = { s with slot := { s.slot with manifest := some m } } ∧ r = .ok () ∧
        m.seq = seq ∧ ∀ x, x ∈ m.leaves ↔ (x.cid, x.size) ∈ leaves := by
  unfold commitKeepSet at h
  dsimp only at h
  rcases hp : opPutManifest P.crypto s.slot fault (deriveId P.crypto key.verifyingKey)
      key.publicKeyHex (some (buildManifest P.crypto (leaves.map fun x => ManifestLeaf.mk x.1 x.2)
        (deriveId P.crypto key.verifyingKey) key seq)) with ⟨slot, res⟩
  rw [hp] at h
  rcases opPutManifest_cases hp with ⟨rfl, e, rfl⟩ | ⟨m, _, hm, -, -, -, -, -, rfl, rfl⟩
  · simp only [Prod.mk.injEq] at h
    exact Or.inl ⟨h.1.symm, _, h.2.symm⟩
  · simp only [Prod.mk.injEq] at h
    obtain ⟨rfl, rfl⟩ := h
    obtain rfl := Option.some.inj hm
    refine Or.inr ⟨_, rfl, rfl, rfl, ?_⟩
    intro x
    obtain ⟨cid, size⟩ := x
    simp [buildManifest, Manifest.buildSigned, sortLeaves]

end

section

variable {P : Platform} {env : PushEnv} {opened : Bool} {i : Install P} {d' : Device}
  {w w' : Wire} {key : Keypair} {fault : Option PersistError} {deviceId : String}

/-- A plain backup that returns is complete. -/
lemma completeBackup_of_backup (hP : P.Lawful) (hcut : P.CutsWhole) (ha : w.server.Addressed P)
    (htrue : TruthfulHave w.server env.haveSet) {report : BackupReport}
    (h : backup P key env fault opened i.device w = (d', w', .ok report)) :
    CompleteBackup P w'.server report.pushed := by
  unfold backup at h
  rcases hpush : pushOver P env opened i.device w with ⟨d₁, w₁, e | pushed⟩
  · rw [hpush] at h
    simp at h
  rw [hpush] at h
  dsimp only at h
  rcases hc : commitKeepSet P key fault w₁.server pushed.needed
      ((w₁.server.slot.manifest.map Manifest.seq).elim 1 (· + 1)) with ⟨s, e | u⟩
  · rw [hc] at h
    simp at h
  rw [hc] at h
  simp only [Prod.mk.injEq, Except.ok.injEq] at h
  obtain ⟨-, rfl, rfl⟩ := h
  rcases commitKeepSet_cases hc with ⟨-, e, he⟩ | ⟨m, rfl, -, -, hleaves⟩
  · simp at he
  · refine completeBackup_of_push hP hcut ha htrue hpush (fun _ _ hb => hb) ⟨m, rfl, ?_⟩
    intro x hx
    exact ⟨⟨x.1, x.2⟩, (hleaves _).mpr hx, rfl⟩

/-- A frontier backup that returns is complete, and its head is on the server. -/
lemma completeBackup_of_frontier (hP : P.Lawful) (hcut : P.CutsWhole)
    (ha : w.server.Addressed P) (htrue : TruthfulHave w.server env.haveSet)
    {report : FrontierReport}
    (h : backupFrontierOver P key env fault deviceId i.device w = (d', w', .ok report)) :
    CompleteBackup P w'.server report.pushed ∧ w'.server.Holds P report.deviceHeadCid := by
  unfold backupFrontierOver at h
  rcases hpush : pushOver P env true i.device w with ⟨d₁, w₁, e | pushed⟩
  · rw [hpush] at h
    simp at h
  rw [hpush] at h
  dsimp only at h
  split at h
  · simp at h
  rename_i headBytes hhead
  have hspec := SyncServer.put_spec (P := P) w₁.server
    (env.refuse w₁.accepted.length (P.crypto.sha256Hex headBytes)) (P.crypto.sha256Hex headBytes)
    headBytes
  unfold Wire.put at h
  rcases hput : w₁.server.put P (env.refuse w₁.accepted.length (P.crypto.sha256Hex headBytes))
      (P.crypto.sha256Hex headBytes) headBytes with ⟨s₂, e | u⟩
  · rw [hput] at h
    simp at h
  rw [hput] at h hspec
  obtain ⟨hg, haddr, hmem⟩ := hspec
  dsimp only at h
  rcases hloop : commitLoop P key fault ⟨deviceId, pushed.needed, P.crypto.sha256Hex headBytes,
      headBytes.length⟩ maxCommitRetries s₂ with ⟨s₃, e | seq⟩
  · rw [hloop] at h
    simp at h
  rw [hloop] at h
  simp only [Prod.mk.injEq, Except.ok.injEq] at h
  obtain ⟨-, rfl, rfl⟩ := h
  rcases commitLoop_cases hloop with ⟨-, e, he⟩ | ⟨proposal, m, hprop, rfl, -, -, hleaves⟩
  · simp at he
  obtain ⟨hown, -, -⟩ := proposeCommit_lists hP hprop
  obtain ⟨-, -, -, -, -, haddr₁, -⟩ := pushOver_stored hpush
  refine ⟨completeBackup_of_push hP hcut ha htrue hpush hg.blobs ⟨m, rfl, ?_⟩,
    (haddr (haddr₁ ha)).holds (hmem rfl)⟩
  intro x hx
  obtain ⟨size, hsize⟩ := hown x hx
  exact ⟨⟨x.1, size⟩, (hleaves _).mpr hsize, rfl⟩

end

/-- **A committed backup is complete on the server.**  For every install, with any placeholders
and any cache, every truthful have-set, every directory at upload time and every pattern of
refusals: a `backup` or `backup_frontier` that returns has left every blob it listed for its own
tree on the server, and the chunks of the committed fs-manifest have for every entry the recorded
hashes and lengths. -/
theorem committed_backup_complete {P : Platform} (hP : P.Lawful) (hcut : P.CutsWhole)
    (key : Keypair) (env : PushEnv) (fault : Option PersistError) (i : Install P) (w : Wire)
    (ha : w.server.Addressed P) (htrue : TruthfulHave w.server env.haveSet) :
    (∀ opened d' w' report, backup P key env fault opened i.device w = (d', w', .ok report) →
        CompleteBackup P w'.server report.pushed) ∧
      ∀ deviceId d' w' report,
        backupFrontierOver P key env fault deviceId i.device w = (d', w', .ok report) →
          CompleteBackup P w'.server report.pushed ∧ w'.server.Holds P report.deviceHeadCid := by
  constructor
  · intro opened d' w' report h
    exact completeBackup_of_backup hP hcut ha htrue h
  · intro deviceId d' w' report h
    exact completeBackup_of_frontier hP hcut ha htrue h

/-! ### An evicted file the server lost

The file `f` of `dev-b` was evicted, its chunk is in the cache and the server has nothing. -/

namespace TwoDevices

lemma cutsWhole : platform.CutsWhole where
  flatten bytes _ := List.flatten_singleton
  nonempty bytes h piece hpiece := by
    rw [List.mem_singleton.mp hpiece]
    exact h

/-- `dev-b` after `f` was evicted. -/
def evicted : Install platform where
  device := { fresh [] with
    placeholders := (∅ : Entries).insert "f" fileOne
    cache := (∅ : ByCid Bytes).insert fileOneCid (asBytes "one") }
  recorded :=
    { index := by
        intro path e he
        simp [fresh] at he
      placeholders := by
        intro path e he
        rw [Std.ExtTreeMap.getElem?_insert] at he
        split at he
        · refine ⟨⟨420, 1, 0, asBytes "one"⟩, ?_⟩
          rw [← Option.some.inj he]
          decide +kernel
        · simp at he }

/-- An empty server that answers every put, and an empty directory. -/
def bare : PushEnv where
  haveSet _ := false
  disk _ := .absent
  refuse _ _ := none
  metered := true

/-- The backup of the evicted tree. -/
def recovered : Device × Wire × Except SyncError FrontierReport :=
  backupFrontierOver platform account bare none "dev-b" evicted.device ⟨init.server, []⟩

lemma recovered_isOk : recovered.2.2.toOption.isSome = true ∧
    recovered.2.1.accepted = [3, 174, 280] := by
  decide +kernel

end TwoDevices

/-- The backup recovers the chunk from the cache, returns, and is complete. -/
theorem committed_backup_complete_example :
    (∃ report, TwoDevices.recovered.2.2 = .ok report) ∧
      ∀ report, TwoDevices.recovered.2.2 = .ok report →
        CompleteBackup TwoDevices.platform TwoDevices.recovered.2.1.server report.pushed ∧
          TwoDevices.recovered.2.1.server.Holds TwoDevices.platform report.deviceHeadCid := by
  constructor
  · have h := TwoDevices.recovered_isOk.1
    rcases hr : TwoDevices.recovered.2.2 with e | report
    · rw [hr] at h
      simp [Except.toOption] at h
    · exact ⟨report, rfl⟩
  · have eq_of_result : ∀ (x : Device × Wire × Except SyncError FrontierReport)
        {c : Except SyncError FrontierReport}, x.2.2 = c → x = (x.1, x.2.1, c) := by
      rintro ⟨a, b, c⟩ _ rfl
      rfl
    intro report hr
    refine (committed_backup_complete TwoDevices.lawful TwoDevices.cutsWhole TwoDevices.account
      TwoDevices.bare none TwoDevices.evicted ⟨TwoDevices.init.server, []⟩ ?_ ?_).2 "dev-b"
      TwoDevices.recovered.1 TwoDevices.recovered.2.1 report ?_
    · intro cid b hb
      simp [TwoDevices.init, SyncWorld.init] at hb
    · intro cid hc
      simp [TwoDevices.bare] at hc
    · rw [← TwoDevices.recovered]
      exact eq_of_result _ hr

end Ciss
