import Ciss.Sync.Manifest
import Ciss.Server.Manifest
import Ciss.Framework.Firsts
import Mathlib.Data.String.Basic

/-!
# Pushing a tree

What a device keeps between runs, what the server keeps for the account, and the push: scan the
directory, merge the placeholders of evicted files, ask what the server has, and upload what it
lacks.

`Platform` collects what comes from libraries: the hashes, the signature scheme, the serializer
and the content-defined cutter.  The chunk cache and the spend ledgers are state of the device.
Uploads stop at the first failure and leave behind what was stored before it, so every operation
on the server returns the server's new state next to its result.
-/

namespace Ciss

/-- The libraries the sync engine rests on. -/
structure Platform where
  crypto : Crypto
  codec : Codec
  /-- The content-defined pieces of a non-empty file, in order. -/
  cut : Bytes → List Bytes
  /-- BLAKE3 of raw bytes, hex-encoded. -/
  blake3Hex : Bytes → String

/-! ## The device -/

/-- A regular file of the synced directory. -/
structure LocalFile where
  mode : Nat
  mtimeSecs : Int
  mtimeNanos : Nat
  bytes : Bytes
  deriving DecidableEq, Repr

/-- A spend ledger: its scope, its ceiling and what the current period has spent. -/
structure SpendLedger where
  scope : String
  ceilingCents : Option Nat
  spentBytes : Nat
  deriving DecidableEq, Repr

/-- One install: the directory and the per-tree state. -/
structure Device where
  files : Std.ExtTreeMap String LocalFile compare
  /-- The scan index: the entry each path had when it was last read. -/
  index : Entries
  /-- The entries of evicted files. -/
  placeholders : Entries
  cache : ByCid Bytes
  /-- The tree's ledger, then the profile's if one is attached. -/
  ledgers : List SpendLedger
  /-- `device_counter`, `last_head_cid` and `base_fs_root`. -/
  counter : Nat
  lastHead : Option String
  base : Option String

/-- Split a file at content-defined boundaries and name each piece both ways. -/
def chunkFile (P : Platform) (bytes : Bytes) : List (ChunkRef × Bytes) :=
  if bytes.isEmpty then []
  else (P.cut bytes).map fun piece =>
    (⟨P.crypto.sha256Hex piece, P.blake3Hex piece, piece.length⟩, piece)

/-- The entry of a file whose bytes are in hand; the mode keeps its permission bits. -/
def fileEntryFor (P : Platform) (f : LocalFile) : FileEntry where
  mode := f.mode % 4096
  mtimeSecs := f.mtimeSecs
  mtimeNanos := f.mtimeNanos
  size := f.bytes.length
  chunks := (chunkFile P f.bytes).map Prod.fst

/-- The indexed entry, if mtime and size still match. -/
def indexLookup (index : Entries) (path : String) (f : LocalFile) : Option FileEntry :=
  index[path]?.filter fun e =>
    e.mtimeSecs = f.mtimeSecs && e.mtimeNanos = f.mtimeNanos && e.size = f.bytes.length

/-- The entry a scan reports for a file. -/
def scanEntry (P : Platform) (index : Entries) (path : String) (f : LocalFile) : FileEntry :=
  (indexLookup index path f).getD (fileEntryFor P f)

/-- The scanned entries; a file's entry depends on that file and its index row alone. -/
def scanTreeIndexed (P : Platform) (d : Device) : Entries :=
  d.files.map (scanEntry P d.index)

/-- The logical tree, scanned files and placeholders; a file on disk drops its placeholder, and
the index learns what was read. -/
def logicalTree (P : Platform) (d : Device) : FsManifest × Device :=
  let scanned := scanTreeIndexed P d
  (⟨fsManifestKind, d.placeholders ∪ scanned⟩,
    { d with
      index := d.index ∪ scanned
      placeholders := d.placeholders.filter fun path _ => !scanned.contains path })

namespace SpendLedger

/-- The ceiling rule: only a transfer that adds priced spend past the ceiling is deferred. -/
def check (l : SpendLedger) (wantBytes : Nat) : Except SyncError Unit :=
  match l.ceilingCents with
  | none => .ok ()
  | some ceilingCents =>
      let spentCents := postageCents l.spentBytes
      let neededCents := postageCents (l.spentBytes + wantBytes)
      if neededCents > ceilingCents ∧ neededCents > spentCents then
        .error (.ceilingDeferred l.scope neededCents spentCents ceilingCents)
      else .ok ()

/-- Record a transfer in the current period. -/
def recordBytes (bytes : Nat) (l : SpendLedger) : SpendLedger :=
  { l with spentBytes := l.spentBytes + bytes }

end SpendLedger

/-- The cached bytes of an address, if they are intact. -/
def cacheGet (P : Platform) (d : Device) (cid : String) : Option Bytes :=
  d.cache[cid]?.filter fun bytes => P.crypto.sha256Hex bytes = cid

/-! ## The server -/

/-- The account's namespace on the server: its blobs by address, and its manifest slot. -/
structure SyncServer where
  blobs : ByCid Bytes
  slot : ManifestSlot

namespace SyncServer

/-- Store bytes under their address; a blob that is there already is kept.  `refuse` is the
server's answer when it does not accept the upload. -/
def put (P : Platform) (s : SyncServer) (refuse : Option ServerError) (cid : String)
    (bytes : Bytes) : SyncServer × Except SyncError Unit :=
  match refuse with
  | some e => (s, .error (.refused e))
  | none =>
      let got := P.crypto.sha256Hex bytes
      ({ s with blobs := s.blobs.insertIfNew got bytes }, verifyServerCid cid got)

/-- Fetch the bytes of an address, verified against it. -/
def get (P : Platform) (s : SyncServer) (cid : String) : Except SyncError Bytes :=
  match s.blobs[cid]? with
  | none => .error (.refused .notFound)
  | some bytes => do
      verifyContent P.crypto cid bytes
      return bytes

end SyncServer

/-! ## The push -/

/-- A tree push, short of a commit. -/
structure PushedTree where
  files : Nat
  chunksTotal : Nat
  chunksUploaded : Nat
  bytesUploaded : Nat
  fsManifestCid : String
  /-- Every blob the tree needs, `(cid, size)`. -/
  needed : List (String × Nat)
  deriving DecidableEq, Repr

/-- The distinct chunks of a tree, first seen first. -/
def distinctChunks (m : FsManifest) : List (String × Nat) :=
  firsts (fun x y => x.1 = y.1)
    (m.entries.toList.flatMap fun x => x.2.chunks.map fun c => (c.sha256, c.len))

/-- The uploads one file needs, in order: each address with its bytes, or the failure that stops
the push there. -/
def fileUploads (P : Platform) (d : Device) (want : String → Bool) (path : String)
    (entry : FileEntry) : List (String × Except SyncError Bytes) :=
  let cids := entry.chunks.map ChunkRef.sha256
  let wanted := cids.filter want
  if wanted.isEmpty then []
  else
    match d.files[path]? with
    | none =>
        -- an evicted file whose chunks the server lost: the cache is the only source
        wanted.map fun cid =>
          (cid, match cacheGet P d cid with
            | some bytes => .ok bytes
            | none => .error (.transport (String.join ["evicted file ", path, ": chunk ",
                String.ofList (cid.toList.take 12),
                " lost server-side and not in the local cache"])))
    | some f =>
        let rechunked := chunkFile P f.bytes
        let byCid (cid : String) : Option Bytes :=
          (rechunked.reverse.find? fun c => c.1.sha256 = cid).map Prod.snd
        if rechunked.length ≠ entry.chunks.length || cids.any fun c => (byCid c).isNone then
          [(path, .error (.changedDuringBackup path))]
        else wanted.filterMap fun cid => (byCid cid).map fun bytes => (cid, .ok bytes)

/-- Make the uploads one after the other; returns how many, and their bytes. -/
def runUploads (P : Platform) (refuse : String → Option ServerError) :
    List (String × Except SyncError Bytes) → SyncServer → SyncServer × Except SyncError (Nat × Nat)
  | [], s => (s, .ok (0, 0))
  | (_, .error e) :: _, s => (s, .error e)
  | (cid, .ok bytes) :: uploads, s =>
      match s.put P (refuse cid) cid bytes with
      | (s, .error e) => (s, .error e)
      | (s, .ok ()) =>
          match runUploads P refuse uploads s with
          | (s, .error e) => (s, .error e)
          | (s, .ok (count, total)) => (s, .ok (count + 1, total + bytes.length))

/-- Push the device's logical tree: upload the chunks and the fs-manifest the server lacks. -/
def pushTree (P : Platform) (refuse : String → Option ServerError) (d : Device) (s : SyncServer) :
    Device × SyncServer × Except SyncError PushedTree :=
  let (manifest, d) := logicalTree P d
  match manifest.encode P.codec with
  | .error e => (d, s, .error e)
  | .ok manifestBytes =>
      let cid := P.crypto.sha256Hex manifestBytes
      let chunks := distinctChunks manifest
      let needed := chunks ++ [(cid, manifestBytes.length)]
      let want (c : String) : Bool := !s.blobs.contains c
      let wantBytes := ((needed.filter fun x => want x.1).map Prod.snd).sum
      match d.ledgers.forM (·.check wantBytes) with
      | .error e => (d, s, .error e)
      | .ok () =>
          let uploads := manifest.entries.toList.flatMap fun x =>
            fileUploads P d want x.1 x.2
          match runUploads P refuse uploads s with
          | (s, .error e) => (d, s, .error e)
          | (s, .ok (count, bytes)) =>
              let last := if want cid then [(cid, .ok manifestBytes)] else []
              match runUploads P refuse last s with
              | (s, .error e) => (d, s, .error e)
              | (s, .ok (_, manifestUploaded)) =>
                  let uploaded := bytes + manifestUploaded
                  let d := if uploaded > 0
                    then { d with ledgers := d.ledgers.map (SpendLedger.recordBytes uploaded) }
                    else d
                  (d, s, .ok
                    { files := manifest.entries.size
                      chunksTotal := chunks.length
                      chunksUploaded := count
                      bytesUploaded := uploaded
                      fsManifestCid := cid
                      needed := needed })

/-! ## What a push does -/

/-- The slot is the same and every blob is still there, unchanged. -/
structure SyncServer.Grows (s s' : SyncServer) : Prop where
  slot : s'.slot = s.slot
  blobs : ∀ (cid : String) (b : Bytes), s.blobs[cid]? = some b → s'.blobs[cid]? = some b

/-- Every blob stands under its own digest. -/
def SyncServer.Addressed (P : Platform) (s : SyncServer) : Prop :=
  ∀ (cid : String) (b : Bytes), s.blobs[cid]? = some b → P.crypto.sha256Hex b = cid

/-- The entry of the logical tree at a path. -/
def Device.entryAt (P : Platform) (d : Device) (p : String) : Option FileEntry :=
  (d.files[p]?.map (scanEntry P d.index p)).or d.placeholders[p]?

section

variable {P : Platform} {s s' s'' : SyncServer} {d d' : Device} {cid p : String} {bytes : Bytes}
  {refuse : String → Option ServerError}

namespace SyncServer

lemma Grows.refl (s : SyncServer) : s.Grows s := ⟨rfl, fun _ _ h => h⟩

lemma Grows.trans (h : s.Grows s') (h' : s'.Grows s'') : s.Grows s'' :=
  ⟨h'.slot.trans h.slot, fun cid b hb => h'.blobs cid b (h.blobs cid b hb)⟩

lemma put_spec (s : SyncServer) (r : Option ServerError) (cid : String) (bytes : Bytes) :
    s.Grows (s.put P r cid bytes).1 ∧
      (s.Addressed P → (s.put P r cid bytes).1.Addressed P) ∧
      ((s.put P r cid bytes).2 = .ok () → cid ∈ (s.put P r cid bytes).1.blobs) := by
  unfold put
  cases r with
  | some e => exact ⟨Grows.refl s, id, by simp⟩
  | none =>
      dsimp only
      refine ⟨⟨rfl, ?_⟩, ?_, ?_⟩
      · intro c b hb
        rw [Std.ExtTreeMap.getElem?_insertIfNew]
        split
        · rename_i h
          obtain ⟨hc, hnew⟩ := h
          rw [byteCompare_eq_iff] at hc
          rw [hc, Std.ExtTreeMap.mem_iff_isSome_getElem?, hb] at hnew
          simp at hnew
        · exact hb
      · intro hs c b hb
        rw [Std.ExtTreeMap.getElem?_insertIfNew] at hb
        split at hb
        · rename_i h
          rw [← Option.some.inj hb]
          exact byteCompare_eq_iff.mp h.1
        · exact hs c b hb
      · intro hok
        unfold verifyServerCid at hok
        split at hok
        · rename_i h
          rw [h]
          simp
        · simp at hok

end SyncServer

lemma runUploads_spec (uploads : List (String × Except SyncError Bytes)) (s : SyncServer) :
    s.Grows (runUploads P refuse uploads s).1 ∧
      (s.Addressed P → (runUploads P refuse uploads s).1.Addressed P) ∧
      (∀ n, (runUploads P refuse uploads s).2 = .ok n →
        ∀ x ∈ uploads, x.1 ∈ (runUploads P refuse uploads s).1.blobs) := by
  induction uploads generalizing s with
  | nil => exact ⟨SyncServer.Grows.refl s, id, by simp⟩
  | cons x uploads ih =>
      obtain ⟨cid, _ | bytes⟩ := x
      · exact ⟨SyncServer.Grows.refl s, id, by simp [runUploads]⟩
      · obtain ⟨hg, ha, hput⟩ := SyncServer.put_spec (P := P) s (refuse cid) cid bytes
        unfold runUploads
        rcases hp : s.put P (refuse cid) cid bytes with ⟨s₁, e | u⟩
        · rw [hp] at hg ha
          exact ⟨hg, ha, by simp⟩
        · rw [hp] at hg ha hput
          obtain ⟨hg', ha', hup⟩ := ih s₁
          dsimp only
          rcases hr : runUploads P refuse uploads s₁ with ⟨s₂, e | n⟩
          · rw [hr] at hg' ha'
            exact ⟨hg.trans hg', fun h => ha' (ha h), by simp⟩
          · rw [hr] at hg' ha' hup
            refine ⟨hg.trans hg', fun h => ha' (ha h), ?_⟩
            intro _ _ x hx
            rcases List.mem_cons.mp hx with rfl | hx
            · have hmem : cid ∈ s₁.blobs := hput rfl
              rw [Std.ExtTreeMap.mem_iff_isSome_getElem?] at hmem ⊢
              obtain ⟨b, hb⟩ := Option.isSome_iff_exists.mp hmem
              rw [hg'.blobs _ b hb]
              rfl
            · exact hup n rfl x hx

/-! ### The logical tree -/

lemma logicalTree_getElem? : (logicalTree P d).1.entries[p]? = d.entryAt P p := by
  simp [logicalTree, Device.entryAt, scanTreeIndexed, Std.ExtTreeMap.getElem?_union]

/-- A second scan reports what the first one did: an indexed entry matches the file it was read
from. -/
lemma scanEntry_idem {index : Entries} {f : LocalFile} (h : index[p]? = some (scanEntry P d.index p f)) :
    scanEntry P index p f = scanEntry P d.index p f := by
  have hmatch : ∀ e, e = scanEntry P d.index p f → (e.mtimeSecs = f.mtimeSecs &&
      e.mtimeNanos = f.mtimeNanos && e.size = f.bytes.length) = true := by
    rintro e rfl
    unfold scanEntry indexLookup
    cases hi : d.index[p]? with
    | none => simp [fileEntryFor]
    | some e =>
        rw [Option.filter_some]
        split
        · rename_i hm
          exact hm
        · simp [fileEntryFor]
  rw [scanEntry, indexLookup, h, Option.filter_some, if_pos (hmatch _ rfl)]
  rfl

lemma entryAt_logicalTree : (logicalTree P d).2.entryAt P p = d.entryAt P p := by
  have hscan : (scanTreeIndexed P d)[p]? = d.files[p]?.map (scanEntry P d.index p) := by
    simp [scanTreeIndexed]
  unfold Device.entryAt logicalTree
  dsimp only
  cases hf : d.files[p]? with
  | none =>
      have hnot : (scanTreeIndexed P d).contains p = false := by
        rw [Std.ExtTreeMap.contains_eq_isSome_getElem?, hscan, hf]
        rfl
      rw [Std.ExtTreeMap.getElem?_filter']
      cases d.placeholders[p]? <;> simp [hnot]
  | some f =>
      rw [hf] at hscan
      have hidx : (d.index ∪ scanTreeIndexed P d)[p]? = some (scanEntry P d.index p f) := by
        rw [Std.ExtTreeMap.getElem?_union, hscan]
        rfl
      simp [scanEntry_idem hidx]

end

/-- The directory, the logical tree and the base are the same. -/
structure Device.SameTree (P : Platform) (d d' : Device) : Prop where
  files : d'.files = d.files
  entryAt : ∀ p, d'.entryAt P p = d.entryAt P p
  base : d'.base = d.base

section

variable {P : Platform} {s s' : SyncServer} {d d' : Device} {refuse : String → Option ServerError}
  {r : Except SyncError PushedTree} {pushed : PushedTree}

lemma sameTree_logicalTree (d : Device) : d.SameTree P (logicalTree P d).2 :=
  ⟨rfl, fun _ => entryAt_logicalTree, rfl⟩

/-- A ledger entry is no part of the tree. -/
lemma Device.SameTree.withLedgers (h : d.SameTree P d') (ledgers : List SpendLedger) :
    d.SameTree P { d' with ledgers := ledgers } :=
  ⟨h.files, h.entryAt, h.base⟩

/-- What a push leaves behind, whether it succeeds or not. -/
lemma pushTree_frame (h : pushTree P refuse d s = (d', s', r)) :
    s.Grows s' ∧ (s.Addressed P → s'.Addressed P) ∧ d.SameTree P d' := by
  unfold pushTree at h
  have hsame := sameTree_logicalTree (P := P) d
  rcases hl : logicalTree P d with ⟨m, d₁⟩
  rw [hl] at h hsame
  dsimp only at h hsame
  rcases hm : m.encode P.codec with e | bytes
  · rw [hm] at h
    simp only [Prod.mk.injEq] at h
    obtain ⟨rfl, rfl, -⟩ := h
    exact ⟨SyncServer.Grows.refl _, id, hsame⟩
  rw [hm] at h
  dsimp only at h
  split at h
  · simp only [Prod.mk.injEq] at h
    obtain ⟨rfl, rfl, -⟩ := h
    exact ⟨SyncServer.Grows.refl _, id, hsame⟩
  · split at h
    · rename_i hup
      simp only [Prod.mk.injEq] at h
      obtain ⟨rfl, rfl, -⟩ := h
      obtain ⟨hg, ha, -⟩ := hup ▸ runUploads_spec _ s
      exact ⟨hg, ha, hsame⟩
    · rename_i hup
      obtain ⟨hg, ha, -⟩ := hup ▸ runUploads_spec _ s
      split at h
      · rename_i hlast
        simp only [Prod.mk.injEq] at h
        obtain ⟨rfl, rfl, -⟩ := h
        obtain ⟨hg', ha', -⟩ := hlast ▸ runUploads_spec _ _
        exact ⟨hg.trans hg', fun h => ha' (ha h), hsame⟩
      · rename_i hlast
        simp only [Prod.mk.injEq] at h
        obtain ⟨rfl, rfl, -⟩ := h
        obtain ⟨hg', ha', -⟩ := hlast ▸ runUploads_spec _ _
        refine ⟨hg.trans hg', fun h => ha' (ha h), ?_⟩
        split
        · exact hsame.withLedgers _
        · exact hsame

end

section

variable {P : Platform} {s s' : SyncServer} {d d' : Device} {refuse : String → Option ServerError}
  {pushed : PushedTree} {cid : String}

lemma SyncServer.Grows.mem_blobs (h : s.Grows s') (hc : cid ∈ s.blobs) : cid ∈ s'.blobs := by
  rw [Std.ExtTreeMap.mem_iff_isSome_getElem?] at hc ⊢
  obtain ⟨b, hb⟩ := Option.isSome_iff_exists.mp hc
  rw [h.blobs _ b hb]
  rfl

/-- A successful push names the logical tree by its address, has stored its fs-manifest, and
needs exactly the tree's chunks and that fs-manifest. -/
lemma pushTree_ok (h : pushTree P refuse d s = (d', s', .ok pushed)) :
    ∃ bytes, (logicalTree P d).1.encode P.codec = .ok bytes ∧
      pushed.fsManifestCid = P.crypto.sha256Hex bytes ∧ pushed.fsManifestCid ∈ s'.blobs ∧
      pushed.needed = distinctChunks (logicalTree P d).1 ++ [(pushed.fsManifestCid, bytes.length)] := by
  unfold pushTree at h
  rcases hl : logicalTree P d with ⟨m, d₁⟩
  rw [hl] at h
  dsimp only at h ⊢
  rcases hm : m.encode P.codec with e | bytes
  · rw [hm] at h
    simp at h
  rw [hm] at h
  dsimp only at h
  split at h
  · simp at h
  · split at h
    · simp at h
    · rename_i hup
      obtain ⟨hg, -⟩ := hup ▸ runUploads_spec _ s
      split at h
      · simp at h
      · rename_i hlast
        obtain ⟨hg', -, hall⟩ := hlast ▸ runUploads_spec _ _
        simp only [Prod.mk.injEq, Except.ok.injEq] at h
        obtain ⟨-, rfl, rfl⟩ := h
        refine ⟨bytes, rfl, rfl, ?_, rfl⟩
        by_cases hc : P.crypto.sha256Hex bytes ∈ s.blobs
        · exact (hg.trans hg').mem_blobs hc
        · refine hall _ rfl (P.crypto.sha256Hex bytes, .ok bytes) ?_
          have hnot : s.blobs.contains (P.crypto.sha256Hex bytes) = false := by
            rwa [← Bool.not_eq_true, Std.ExtTreeMap.contains_iff_mem]
          simp [hnot]

/-- The chunks of a tree, without repetition but complete. -/
lemma mem_distinctChunks {m : FsManifest} :
    (∃ n, (cid, n) ∈ distinctChunks m) ↔
      ∃ (p : String) (e : FileEntry), m.entries[p]? = some e ∧ ∃ c ∈ e.chunks, c.sha256 = cid := by
  have hr : IsEquiv fun x y : String × Nat => decide (x.1 = y.1) :=
    ⟨by simp, by simp [eq_comm], by simp_all⟩
  have hmem : ∀ n, (cid, n) ∈ (m.entries.toList.flatMap fun x => x.2.chunks.map fun c =>
      (c.sha256, c.len)) ↔ ∃ (p : String) (e : FileEntry), m.entries[p]? = some e ∧
        ∃ c ∈ e.chunks, c.sha256 = cid ∧ c.len = n := by
    intro n
    simp only [List.mem_flatMap, List.mem_map, Prod.exists, Prod.mk.injEq,
      Std.ExtTreeMap.mem_toList_iff_getElem?_eq_some]
  constructor
  · rintro ⟨n, hn⟩
    obtain ⟨p, e, he, c, hc, hcid, -⟩ := (hmem n).mp (firsts_sublist.mem hn)
    exact ⟨p, e, he, c, hc, hcid⟩
  · rintro ⟨p, e, he, c, hc, hcid⟩
    obtain ⟨⟨cid', n⟩, hx, hs⟩ := exists_mem_firsts hr ((hmem c.len).mpr ⟨p, e, he, c, hc, hcid, rfl⟩)
    have : cid' = cid := by simpa using hs
    exact ⟨n, this ▸ hx⟩

end

end Ciss
