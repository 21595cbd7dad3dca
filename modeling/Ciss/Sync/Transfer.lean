import Ciss.Sync.Closure
import Ciss.Sync.Converge

/-!
# What a sync moves

`pushTree` in `Ciss.Sync.Push` is a push to a server that answers for itself, from a directory
that stands still.  Here the same push is taken with everything around it left open: the have-set
is what the transport reports, the directory may have changed since the scan, every single put may
be refused, the transport may be free of charge, and a plain backup may run without a state.

The bytes that go over the wire are part of the picture.  A `Wire` is a server together with the
lengths of the blobs its `put` has accepted, so that what was sent can be compared with what was
planned and with what the ledgers recorded.

`pushTree` and `backupFrontier` are the case of a truthful have-set and an unchanged directory
(`pushTree_eq_pushOver`, `backupFrontier_eq_over`).
-/

namespace Ciss

/-! ## The wire -/

/-- A server, and the lengths of the blobs that were put and accepted, oldest first. -/
structure Wire where
  server : SyncServer
  accepted : List Nat

/-- The bytes the accepted blobs add up to. -/
def Wire.acceptedBytes (w : Wire) : Nat := w.accepted.sum

/-- What a path holds when the upload gets to it. -/
inductive OnDisk where
  | absent
  | unreadable
  | file (bytes : Bytes)
  deriving DecidableEq, Repr

/-- What surrounds one push. -/
structure PushEnv where
  /-- The have-set the transport reports. -/
  haveSet : String → Bool
  /-- The directory while the uploads run. -/
  disk : String → OnDisk
  /-- The server's answer to a put, by how many it has accepted before. -/
  refuse : Nat → String → Option ServerError
  /-- Whether the transport is billed. -/
  metered : Bool

/-- Put one blob. -/
def Wire.put (P : Platform) (refuse : Nat → String → Option ServerError) (w : Wire) (cid : String)
    (bytes : Bytes) : Wire × Except SyncError Unit :=
  match w.server.put P (refuse w.accepted.length cid) cid bytes with
  | (s, .error e) => (⟨s, w.accepted⟩, .error e)
  | (s, .ok ()) => (⟨s, w.accepted ++ [bytes.length]⟩, .ok ())

/-! ## The plan -/

/-- `scan_tree`: every file is read. -/
def scanTree (P : Platform) (files : LocalFiles) : Entries := files.map fun _ => fileEntryFor P

/-- `logical_tree`; `opened` says whether a state was passed. -/
def logicalTreeWith (P : Platform) (opened : Bool) (d : Device) : FsManifest × Device :=
  if opened then logicalTree P d else (⟨fsManifestKind, scanTree P d.files⟩, d)

/-- What a push would transfer, computed without moving a byte. -/
structure PushPlan where
  manifest : FsManifest
  manifestBytes : Bytes
  fsManifestCid : String
  /-- Every blob the tree needs, `(cid, size)`. -/
  needed : List (String × Nat)
  /-- Those of them the server lacks. -/
  want : List (String × Nat)
  wantBytes : Nat
  chunksTotal : Nat
  chunksToUpload : Nat

/-- The blobs that are not in the have-set, in order. -/
def missingBlobs (blobs : List (String × Nat)) (haveSet : String → Bool) : List (String × Nat) :=
  blobs.filter fun x => !haveSet x.1

/-- Scan, list what the tree needs, and compare with what the server has. -/
def planPush (P : Platform) (haveSet : String → Bool) (opened : Bool) (d : Device) :
    Device × Except SyncError PushPlan :=
  let (manifest, d) := logicalTreeWith P opened d
  match manifest.encode P.codec with
  | .error e => (d, .error e)
  | .ok manifestBytes =>
      let cid := P.crypto.sha256Hex manifestBytes
      let chunks := distinctChunks manifest
      let needed := chunks ++ [(cid, manifestBytes.length)]
      let want := missingBlobs needed haveSet
      (d, .ok
        { manifest := manifest
          manifestBytes := manifestBytes
          fsManifestCid := cid
          needed := needed
          want := want
          wantBytes := (want.map Prod.snd).sum
          chunksTotal := chunks.length
          chunksToUpload := (want.filter fun x => x.1 ≠ cid).length })

/-! ## The uploads -/

/-- The bytes of a wanted chunk whose file is gone from disk: the cache is the only source, and
without a state there is none. -/
def recoverFromCache (P : Platform) (opened : Bool) (d : Device) (path cid : String) :
    Except SyncError Bytes :=
  if opened then
    match cacheGet P d cid with
    | some bytes => .ok bytes
    | none => .error (.transport (String.join ["evicted file ", path, ": chunk ",
        String.ofList (cid.toList.take 12), " lost server-side and not in the local cache"]))
  else .error (.transport (String.join ["evicted file ", path,
    " has chunks the server lost and no state/cache to recover from"]))

/-- The uploads one file needs, in order: each address with its bytes, or the failure that stops
the push there. -/
def entryUploads (P : Platform) (disk : String → OnDisk)
    (recover : String → String → Except SyncError Bytes) (want : String → Bool) (path : String)
    (entry : FileEntry) : List (String × Except SyncError Bytes) :=
  let cids := entry.chunks.map ChunkRef.sha256
  let wanted := cids.filter want
  if wanted.isEmpty then []
  else
    match disk path with
    | .absent => wanted.map fun cid => (cid, recover path cid)
    | .unreadable => [(path, .error (.io path))]
    | .file bytes =>
        let rechunked := chunkFile P bytes
        let byCid (cid : String) : Option Bytes :=
          (rechunked.reverse.find? fun c => c.1.sha256 = cid).map Prod.snd
        if rechunked.length ≠ entry.chunks.length || cids.any fun c => (byCid c).isNone then
          [(path, .error (.changedDuringBackup path))]
        else wanted.filterMap fun cid => (byCid cid).map fun bytes => (cid, .ok bytes)

namespace PushPlan

/-- Whether an address is in the want-set. -/
def wants (plan : PushPlan) (cid : String) : Bool := plan.want.any fun x => x.1 = cid

/-- The chunk uploads, file after file. -/
def chunkUploads (P : Platform) (env : PushEnv) (opened : Bool) (d : Device) (plan : PushPlan) :
    List (String × Except SyncError Bytes) :=
  plan.manifest.entries.toList.flatMap fun x =>
    entryUploads P env.disk (recoverFromCache P opened d) plan.wants x.1 x.2

/-- The fs-manifest, unless the server has it. -/
def manifestUpload (plan : PushPlan) : List (String × Except SyncError Bytes) :=
  if plan.wants plan.fsManifestCid then [(plan.fsManifestCid, .ok plan.manifestBytes)] else []

end PushPlan

/-- Put one blob after the other; returns how many, and their bytes. -/
def runTransfers (P : Platform) (refuse : Nat → String → Option ServerError) :
    List (String × Except SyncError Bytes) → Wire → Wire × Except SyncError (Nat × Nat)
  | [], w => (w, .ok (0, 0))
  | (_, .error e) :: _, w => (w, .error e)
  | (cid, .ok bytes) :: uploads, w =>
      match w.put P refuse cid bytes with
      | (w, .error e) => (w, .error e)
      | (w, .ok ()) =>
          match runTransfers P refuse uploads w with
          | (w, .error e) => (w, .error e)
          | (w, .ok (count, total)) => (w, .ok (count + 1, total + bytes.length))

/-! ## The push -/

/-- Every attached ledger is asked; only a billed transport with a state is. -/
def checkCeilings (env : PushEnv) (opened : Bool) (d : Device) (wantBytes : Nat) :
    Except SyncError Unit :=
  if env.metered && opened then d.ledgers.forM (·.check wantBytes) else .ok ()

/-- Every attached ledger records a billed transfer. -/
def recordSpendAll (env : PushEnv) (opened : Bool) (d : Device) (bytes : Nat) : Device :=
  if bytes > 0 && env.metered && opened then
    { d with ledgers := d.ledgers.map (SpendLedger.recordBytes bytes) }
  else d

/-- Push the logical tree: upload the chunks and the fs-manifest that are wanted. -/
def pushOver (P : Platform) (env : PushEnv) (opened : Bool) (d : Device) (w : Wire) :
    Device × Wire × Except SyncError PushedTree :=
  match planPush P env.haveSet opened d with
  | (d, .error e) => (d, w, .error e)
  | (d, .ok plan) =>
      match checkCeilings env opened d plan.wantBytes with
      | .error e => (d, w, .error e)
      | .ok () =>
          match runTransfers P env.refuse (plan.chunkUploads P env opened d) w with
          | (w, .error e) => (d, w, .error e)
          | (w, .ok (count, bytes)) =>
              match runTransfers P env.refuse plan.manifestUpload w with
              | (w, .error e) => (d, w, .error e)
              | (w, .ok (_, last)) =>
                  (recordSpendAll env opened d (bytes + last), w, .ok
                    { files := plan.manifest.entries.size
                      chunksTotal := plan.chunksTotal
                      chunksUploaded := count
                      bytesUploaded := bytes + last
                      fsManifestCid := plan.fsManifestCid
                      needed := plan.needed })

/-! ## The commands -/

/-- What a plain backup did. -/
structure BackupReport where
  pushed : PushedTree
  manifestSeq : Nat

/-- Put the leaves as a signed manifest without a frontier. -/
def commitKeepSet (P : Platform) (key : Keypair) (fault : Option PersistError) (s : SyncServer)
    (leaves : List (String × Nat)) (seq : Nat) : SyncServer × Except SyncError Unit :=
  let did := deriveId P.crypto key.verifyingKey
  let manifest := buildManifest P.crypto (leaves.map fun x => ManifestLeaf.mk x.1 x.2) did key seq
  match opPutManifest P.crypto s.slot fault did key.publicKeyHex (some manifest) with
  | (slot, .ok _) => ({ s with slot := slot }, .ok ())
  | (slot, .error e) => ({ s with slot := slot }, .error (.refused e))

/-- Push the tree, then commit its blobs as the keep-set at the next seq. -/
def backup (P : Platform) (key : Keypair) (env : PushEnv) (fault : Option PersistError)
    (opened : Bool) (d : Device) (w : Wire) : Device × Wire × Except SyncError BackupReport :=
  match pushOver P env opened d w with
  | (d, w, .error e) => (d, w, .error e)
  | (d, w, .ok pushed) =>
      let seq := (w.server.slot.manifest.map Manifest.seq).elim 1 (· + 1)
      match commitKeepSet P key fault w.server pushed.needed seq with
      | (s, .error e) => (d, ⟨s, w.accepted⟩, .error e)
      | (s, .ok ()) => (d, ⟨s, w.accepted⟩, .ok ⟨pushed, seq⟩)

/-- `backup_frontier`: push the tree, upload the head, commit the frontier. -/
def backupFrontierOver (P : Platform) (key : Keypair) (env : PushEnv) (fault : Option PersistError)
    (deviceId : String) (d : Device) (w : Wire) :
    Device × Wire × Except SyncError FrontierReport :=
  match pushOver P env true d w with
  | (d, w, .error e) => (d, w, .error e)
  | (d, w, .ok pushed) =>
      let head := DeviceHead.newSigned deviceId (d.counter + 1) pushed.fsManifestCid d.lastHead
        d.base key
      match head.encode P.codec with
      | .error e => (d, w, .error e)
      | .ok headBytes =>
          let headCid := P.crypto.sha256Hex headBytes
          match w.put P env.refuse headCid headBytes with
          | (w, .error e) => (d, w, .error e)
          | (w, .ok ()) =>
              let b : Pending := ⟨deviceId, pushed.needed, headCid, headBytes.length⟩
              match commitLoop P key fault b maxCommitRetries w.server with
              | (s, .error e) => (d, ⟨s, w.accepted⟩, .error e)
              | (s, .ok seq) =>
                  ({ d with counter := d.counter + 1, lastHead := some headCid }, ⟨s, w.accepted⟩,
                    .ok ⟨pushed, seq, headCid⟩)

/-- `converge`: publish, fold, publish the folded tree and record it as the base. -/
def convergeOver (P : Platform) (key : Keypair) (env env' : PushEnv) (around : SyncEnv)
    (deviceId : String) (d : Device) (w : Wire) :
    Device × Wire × Except SyncError ConvergeReport :=
  match backupFrontierOver P key env around.fault deviceId d w with
  | (d, w, .error e) => (d, w, .error e)
  | (d, w, .ok _) =>
      match convergeFold P key around deviceId d w.server with
      | (d, .error e) => (d, w, .error e)
      | (d, .ok m) =>
          match backupFrontierOver P key env' around.fault deviceId d w with
          | (d, w, .error e) => (d, w, .error e)
          | (d, w, .ok report) =>
              ({ d with base := some report.pushed.fsManifestCid }, w, .ok
                ⟨m.tree.entries.size, m.filesWritten, m.filesDeleted, m.conflicts,
                  report.pushed.fsManifestCid, report.manifestSeq⟩)

/-! ## What a list of uploads does -/

/-- The bytes an upload carries. -/
def payload (x : String × Except SyncError Bytes) : Nat := x.2.toOption.elim 0 List.length

/-- The upload ends the push, when `n` puts were accepted before it: its bytes cannot be had, or
the server refuses them. -/
def stops (refuse : Nat → String → Option ServerError) (n : Nat)
    (x : String × Except SyncError Bytes) : Bool :=
  x.2.toOption.isNone || (refuse n x.1).isSome

/-- The uploads before the first that ends the push, when `n` puts were accepted before. -/
def beforeStop (refuse : Nat → String → Option ServerError) :
    Nat → List (String × Except SyncError Bytes) → List (String × Except SyncError Bytes)
  | _, [] => []
  | n, x :: uploads => if stops refuse n x then [] else x :: beforeStop refuse (n + 1) uploads

/-- Every upload names its bytes by their digest. -/
def Named (P : Platform) (uploads : List (String × Except SyncError Bytes)) : Prop :=
  ∀ x ∈ uploads, ∀ bytes, x.2 = .ok bytes → P.crypto.sha256Hex bytes = x.1

section

variable {P : Platform} {refuse : Nat → String → Option ServerError} {w w' : Wire} {n : Nat}
  {uploads uploads' : List (String × Except SyncError Bytes)}
  {r : Except SyncError (Nat × Nat)}

@[simp] lemma Wire.acceptedBytes_append {s : SyncServer} {l l' : List Nat} :
    (Wire.mk s (l ++ l')).acceptedBytes = (Wire.mk s l).acceptedBytes + l'.sum := by
  simp [Wire.acceptedBytes]

lemma named_append : Named P (uploads ++ uploads') ↔ Named P uploads ∧ Named P uploads' := by
  simp only [Named, List.mem_append]
  constructor
  · intro h
    exact ⟨fun x hx => h x (Or.inl hx), fun x hx => h x (Or.inr hx)⟩
  · rintro ⟨h, h'⟩ x (hx | hx)
    · exact h x hx
    · exact h' x hx

/-- A put of named bytes is refused, or accepted and counted. -/
lemma Wire.put_named (refuse : Nat → String → Option ServerError) (w : Wire) {cid : String}
    {bytes : Bytes} (hcid : P.crypto.sha256Hex bytes = cid) :
    (∃ e, refuse w.accepted.length cid = some e ∧ w.put P refuse cid bytes = (w, .error (.refused e))) ∨
      (refuse w.accepted.length cid = none ∧ ∃ s, w.put P refuse cid bytes =
        (⟨s, w.accepted ++ [bytes.length]⟩, .ok ())) := by
  unfold Wire.put SyncServer.put
  cases hr : refuse w.accepted.length cid with
  | some e => exact Or.inl ⟨e, rfl, rfl⟩
  | none =>
      refine Or.inr ⟨rfl, { w.server with blobs := w.server.blobs.insertIfNew cid bytes }, ?_⟩
      simp [hcid, verifyServerCid]

/-- **What is accepted.**  The uploads before the first that ends the push are accepted, each with
its bytes; the transfer succeeds when there is no other. -/
lemma runTransfers_accepted (refuse : Nat → String → Option ServerError) (w : Wire)
    (hn : Named P uploads) :
    (runTransfers P refuse uploads w).1.accepted =
        w.accepted ++ (beforeStop refuse w.accepted.length uploads).map payload ∧
      ((∃ e, (runTransfers P refuse uploads w).2 = .error e) ∧
          (beforeStop refuse w.accepted.length uploads).length < uploads.length ∨
        beforeStop refuse w.accepted.length uploads = uploads ∧
          (runTransfers P refuse uploads w).2 =
            .ok (uploads.length, (uploads.map payload).sum)) := by
  induction uploads generalizing w with
  | nil => simp [runTransfers, beforeStop]
  | cons x uploads ih =>
      obtain ⟨cid, e | bytes⟩ := x
      · simp [runTransfers, beforeStop, stops, Except.toOption]
      · have hcid : P.crypto.sha256Hex bytes = cid := hn _ List.mem_cons_self bytes rfl
        have hrest : Named P uploads := fun y hy => hn y (List.mem_cons_of_mem _ hy)
        have hpay : payload (cid, .ok bytes) = bytes.length := rfl
        rcases Wire.put_named refuse w hcid with ⟨e, hr, hp⟩ | ⟨hr, s, hp⟩
        · have hstop : stops refuse w.accepted.length (cid, .ok bytes) = true := by
            simp [stops, hr]
          simp [runTransfers, hp, beforeStop, hstop]
        · have hstop : stops refuse w.accepted.length (cid, .ok bytes) = false := by
            simp [stops, hr, Except.toOption]
          have hlen : (w.accepted ++ [bytes.length]).length = w.accepted.length + 1 := by simp
          obtain ⟨hacc, hres⟩ := ih ⟨s, w.accepted ++ [bytes.length]⟩ hrest
          rw [hlen] at hacc hres
          have hstep : ∀ w₁ : Wire, w₁.accepted = w.accepted ++ [bytes.length] ++
              (beforeStop refuse (w.accepted.length + 1) uploads).map payload →
              w₁.accepted = w.accepted ++ ((cid, .ok bytes) ::
                beforeStop refuse (w.accepted.length + 1) uploads).map payload := by
            intro w₁ h
            rw [h, List.map_cons, hpay, List.append_assoc, List.singleton_append]
          simp only [runTransfers, hp, beforeStop, hstop, Bool.false_eq_true, if_false]
          rcases hrun : runTransfers P refuse uploads ⟨s, w.accepted ++ [bytes.length]⟩ with
            ⟨w₁, e | ⟨count, total⟩⟩
          · rw [hrun] at hacc hres
            rcases hres with ⟨-, hlt⟩ | ⟨-, hok⟩
            · refine ⟨hstep w₁ hacc, Or.inl ⟨⟨e, rfl⟩, ?_⟩⟩
              simpa using hlt
            · simp at hok
          · rw [hrun] at hacc hres
            rcases hres with ⟨⟨e, he⟩, -⟩ | ⟨hall, hok⟩
            · simp at he
            · refine ⟨hstep w₁ hacc, Or.inr ⟨by rw [hall], ?_⟩⟩
              obtain ⟨rfl, rfl⟩ := Prod.mk.inj (Except.ok.inj hok)
              simp [hpay, Nat.add_comm]

/-- What uploads leave on the server. -/
lemma runTransfers_server (refuse : Nat → String → Option ServerError)
    (uploads : List (String × Except SyncError Bytes)) (w : Wire) :
    w.server.Grows (runTransfers P refuse uploads w).1.server ∧
      (w.server.Addressed P → (runTransfers P refuse uploads w).1.server.Addressed P) ∧
      (∀ n, (runTransfers P refuse uploads w).2 = .ok n →
        ∀ x ∈ uploads, x.1 ∈ (runTransfers P refuse uploads w).1.server.blobs) := by
  induction uploads generalizing w with
  | nil => exact ⟨SyncServer.Grows.refl _, id, by simp⟩
  | cons x uploads ih =>
      obtain ⟨cid, e | bytes⟩ := x
      · exact ⟨SyncServer.Grows.refl _, id, by simp [runTransfers]⟩
      · obtain ⟨hg, ha, hput⟩ := SyncServer.put_spec (P := P) w.server
          (refuse w.accepted.length cid) cid bytes
        unfold runTransfers Wire.put
        rcases hp : w.server.put P (refuse w.accepted.length cid) cid bytes with ⟨s₁, e | u⟩
        · rw [hp] at hg ha
          exact ⟨hg, ha, by simp⟩
        · rw [hp] at hg ha hput
          obtain ⟨hg', ha', hup⟩ := ih ⟨s₁, w.accepted ++ [bytes.length]⟩
          dsimp only
          rcases hr : runTransfers P refuse uploads ⟨s₁, w.accepted ++ [bytes.length]⟩ with
            ⟨w₂, e | m⟩
          · rw [hr] at hg' ha'
            exact ⟨hg.trans hg', fun h => ha' (ha h), by simp⟩
          · rw [hr] at hg' ha' hup
            refine ⟨hg.trans hg', fun h => ha' (ha h), ?_⟩
            intro _ _ x hx
            rcases List.mem_cons.mp hx with rfl | hx
            · exact hg'.mem_blobs (hput rfl)
            · exact hup m rfl x hx

/-- Two lists of uploads in a row. -/
lemma runTransfers_append : runTransfers P refuse (uploads ++ uploads') w =
    match runTransfers P refuse uploads w with
    | (w, .error e) => (w, .error e)
    | (w, .ok (count, total)) =>
        match runTransfers P refuse uploads' w with
        | (w, .error e) => (w, .error e)
        | (w, .ok (count', total')) => (w, .ok (count + count', total + total')) := by
  induction uploads generalizing w with
  | nil =>
      rcases h : runTransfers P refuse uploads' w with ⟨w', e | ⟨count', total'⟩⟩ <;>
        simp [runTransfers, h]
  | cons x uploads ih =>
      obtain ⟨cid, e | bytes⟩ := x
      · rfl
      · simp only [List.cons_append, runTransfers]
        rcases w.put P refuse cid bytes with ⟨w₁, e | u⟩
        · rfl
        · simp only [ih]
          rcases runTransfers P refuse uploads w₁ with ⟨w₂, e | ⟨count, total⟩⟩
          · rfl
          · dsimp only
            rcases runTransfers P refuse uploads' w₂ with ⟨w₃, e | ⟨count', total'⟩⟩
            · rfl
            · simp only [Prod.mk.injEq, Except.ok.injEq, true_and]
              omega

end

/-! ## What a plan says -/

/-- The plan of a tree against a have-set. -/
structure PlanOf (P : Platform) (haveSet : String → Bool) (tree : FsManifest) (plan : PushPlan) :
    Prop where
  manifest : plan.manifest = tree
  encode : tree.encode P.codec = .ok plan.manifestBytes
  cid : plan.fsManifestCid = P.crypto.sha256Hex plan.manifestBytes
  needed : plan.needed = distinctChunks tree ++ [(plan.fsManifestCid, plan.manifestBytes.length)]
  want : plan.want = missingBlobs plan.needed haveSet
  wantBytes : plan.wantBytes = (plan.want.map Prod.snd).sum

/-- Everything the push puts, in order: the chunks, then the fs-manifest. -/
def PushPlan.uploads (P : Platform) (env : PushEnv) (opened : Bool) (d : Device)
    (plan : PushPlan) : List (String × Except SyncError Bytes) :=
  plan.chunkUploads P env opened d ++ plan.manifestUpload

section

variable {P : Platform} {env : PushEnv} {opened : Bool} {d d' : Device} {w w' : Wire}
  {haveSet : String → Bool} {plan : PushPlan} {tree : FsManifest} {cid path : String}
  {r : Except SyncError PushedTree}

lemma planPush_cases {e : Except SyncError PushPlan} (h : planPush P haveSet opened d = (d', e)) :
    d' = (logicalTreeWith P opened d).2 ∧ ((∃ err, e = .error err) ∨
      ∃ plan, e = .ok plan ∧ PlanOf P haveSet (logicalTreeWith P opened d).1 plan) := by
  unfold planPush at h
  rcases hl : logicalTreeWith P opened d with ⟨m, d₁⟩
  rw [hl] at h
  dsimp only at h ⊢
  rcases hm : m.encode P.codec with err | bytes
  · rw [hm] at h
    obtain ⟨rfl, rfl⟩ := Prod.mk.inj h
    exact ⟨rfl, Or.inl ⟨err, rfl⟩⟩
  · rw [hm] at h
    obtain ⟨rfl, rfl⟩ := Prod.mk.inj h
    exact ⟨rfl, Or.inr ⟨_, rfl, ⟨rfl, hm, rfl, rfl, rfl, rfl⟩⟩⟩

/-- A chunk of the tree is wanted when it is not in the have-set. -/
lemma PlanOf.wants_chunk (h : PlanOf P haveSet tree plan) {entry : FileEntry}
    (he : tree.entries[path]? = some entry) {c : ChunkRef} (hc : c ∈ entry.chunks) :
    plan.wants c.sha256 = !haveSet c.sha256 := by
  obtain ⟨n, hn⟩ := mem_distinctChunks.mpr ⟨path, entry, he, c, hc, rfl⟩
  have hmem : (c.sha256, n) ∈ plan.needed := by
    rw [h.needed]
    exact List.mem_append_left _ hn
  rw [Bool.eq_iff_iff, PushPlan.wants, h.want, missingBlobs, List.any_eq_true]
  constructor
  · rintro ⟨x, hx, hxc⟩
    have hxc' : x.1 = c.sha256 := by simpa using hxc
    rw [← hxc']
    exact (List.mem_filter.mp hx).2
  · intro hw
    exact ⟨_, List.mem_filter.mpr ⟨hmem, hw⟩, by simp⟩

/-- The fs-manifest is wanted when it is not in the have-set. -/
lemma PlanOf.wants_manifest (h : PlanOf P haveSet tree plan) :
    plan.wants plan.fsManifestCid = !haveSet plan.fsManifestCid := by
  rw [Bool.eq_iff_iff, PushPlan.wants, h.want, missingBlobs, List.any_eq_true]
  constructor
  · rintro ⟨x, hx, hxc⟩
    have hxc' : x.1 = plan.fsManifestCid := by simpa using hxc
    rw [← hxc']
    exact (List.mem_filter.mp hx).2
  · intro hw
    refine ⟨(plan.fsManifestCid, plan.manifestBytes.length), List.mem_filter.mpr ⟨?_, hw⟩, by simp⟩
    rw [h.needed]
    simp

/-- What is found among the pieces of a file has the address that was looked for. -/
lemma find_chunkFile {bytes piece : Bytes}
    (h : ((chunkFile P bytes).reverse.find? fun c => c.1.sha256 = cid).map Prod.snd = some piece) :
    P.crypto.sha256Hex piece = cid := by
  obtain ⟨x, hx, rfl⟩ := Option.map_eq_some_iff.mp h
  have hmem : x ∈ chunkFile P bytes := List.mem_reverse.mp (List.mem_of_find?_eq_some hx)
  have hcid : x.1.sha256 = cid := by simpa using List.find?_some hx
  unfold chunkFile at hmem
  split at hmem
  · simp at hmem
  · obtain ⟨b, -, rfl⟩ := List.mem_map.mp hmem
    exact hcid

lemma recoverFromCache_named {bytes : Bytes} (h : recoverFromCache P opened d path cid = .ok bytes) :
    P.crypto.sha256Hex bytes = cid := by
  unfold recoverFromCache cacheGet at h
  split at h
  · split at h
    · rename_i b hb
      obtain rfl := Except.ok.inj h
      obtain ⟨-, hb⟩ := Option.filter_eq_some_iff.mp hb
      simpa using hb
    · simp at h
  · simp at h

/-- Every wanted chunk of a file is uploaded, under its own name, unless the push ends at the
file. -/
lemma entryUploads_named {want : String → Bool} {entry : FileEntry}
    {recover : String → String → Except SyncError Bytes} {disk : String → OnDisk}
    (hrec : ∀ path cid bytes, recover path cid = .ok bytes → P.crypto.sha256Hex bytes = cid) :
    Named P (entryUploads P disk recover want path entry) := by
  intro x hx bytes hb
  unfold entryUploads at hx
  dsimp only at hx
  split at hx
  · simp at hx
  · split at hx
    · obtain ⟨cid, -, rfl⟩ := List.mem_map.mp hx
      exact hrec path cid bytes hb
    · obtain rfl := List.mem_singleton.mp hx
      simp at hb
    · split at hx
      · obtain rfl := List.mem_singleton.mp hx
        simp at hb
      · obtain ⟨cid, -, hx⟩ := List.mem_filterMap.mp hx
        obtain ⟨piece, hp, rfl⟩ := Option.map_eq_some_iff.mp hx
        obtain rfl := Except.ok.inj hb
        exact find_chunkFile hp

lemma PlanOf.uploads_named (h : PlanOf P haveSet tree plan) (env : PushEnv) (opened : Bool)
    (d : Device) : Named P (plan.uploads P env opened d) := by
  rw [PushPlan.uploads, named_append]
  constructor
  · intro x hx bytes hb
    obtain ⟨y, -, hx⟩ := List.mem_flatMap.mp hx
    exact entryUploads_named (fun _ _ _ => recoverFromCache_named) x hx bytes hb
  · intro x hx bytes hb
    unfold PushPlan.manifestUpload at hx
    split at hx
    · obtain rfl := List.mem_singleton.mp hx
      obtain rfl := Except.ok.inj hb
      exact h.cid.symm
    · simp at hx

/-- **What a push can do.**  It ends before anything moves; or the uploads run, and it ends with
the first that fails; or all of them are accepted and the ledgers record their bytes. -/
lemma pushOver_cases (h : pushOver P env opened d w = (d', w', r)) :
    (d' = (logicalTreeWith P opened d).2 ∧ w' = w ∧ (∃ e, r = .error e) ∧
        ((∃ e, (planPush P env.haveSet opened d).2 = .error e) ∨
          ∃ plan e, planPush P env.haveSet opened d = (d', .ok plan) ∧
            checkCeilings env opened d' plan.wantBytes = .error e)) ∨
      ∃ plan, planPush P env.haveSet opened d = ((logicalTreeWith P opened d).2, .ok plan) ∧
        PlanOf P env.haveSet (logicalTreeWith P opened d).1 plan ∧
        checkCeilings env opened (logicalTreeWith P opened d).2 plan.wantBytes = .ok () ∧
        w' = (runTransfers P env.refuse (plan.uploads P env opened (logicalTreeWith P opened d).2) w).1 ∧
        ((∃ e e', r = .error e ∧ (runTransfers P env.refuse
              (plan.uploads P env opened (logicalTreeWith P opened d).2) w).2 = .error e' ∧
            d' = (logicalTreeWith P opened d).2) ∨
          ∃ count total pushed, r = .ok pushed ∧ (runTransfers P env.refuse
              (plan.uploads P env opened (logicalTreeWith P opened d).2) w).2 = .ok (count, total) ∧
            d' = recordSpendAll env opened (logicalTreeWith P opened d).2 total ∧
            pushed.bytesUploaded = total ∧ pushed.fsManifestCid = plan.fsManifestCid ∧
            pushed.needed = plan.needed) := by
  unfold pushOver at h
  rcases hplan : planPush P env.haveSet opened d with ⟨d₁, e | plan⟩
  · obtain ⟨hd, -⟩ := planPush_cases hplan
    rw [hplan] at h
    simp only [Prod.mk.injEq] at h
    obtain ⟨rfl, rfl, rfl⟩ := h
    exact Or.inl ⟨hd, rfl, ⟨e, rfl⟩, Or.inl ⟨e, rfl⟩⟩
  obtain ⟨rfl, ⟨e, he⟩ | ⟨plan', hp, hof⟩⟩ := planPush_cases hplan
  · simp at he
  obtain rfl := Except.ok.inj hp
  rw [hplan] at h
  dsimp only at h
  rcases hceil : checkCeilings env opened (logicalTreeWith P opened d).2 plan.wantBytes with e | u
  · rw [hceil] at h
    simp only [Prod.mk.injEq] at h
    obtain ⟨rfl, rfl, rfl⟩ := h
    exact Or.inl ⟨rfl, rfl, ⟨e, rfl⟩, Or.inr ⟨plan, e, rfl, hceil⟩⟩
  rw [hceil] at h
  dsimp only at h
  refine Or.inr ⟨plan, rfl, hof, hceil, ?_⟩
  rw [PushPlan.uploads, runTransfers_append]
  rcases hup : runTransfers P env.refuse
      (plan.chunkUploads P env opened (logicalTreeWith P opened d).2) w with
    ⟨w₁, e | ⟨count, total⟩⟩
  · rw [hup] at h
    simp only [Prod.mk.injEq] at h
    obtain ⟨rfl, rfl, rfl⟩ := h
    exact ⟨rfl, Or.inl ⟨e, e, rfl, rfl, rfl⟩⟩
  rw [hup] at h
  dsimp only at h ⊢
  rcases hlast : runTransfers P env.refuse plan.manifestUpload w₁ with ⟨w₂, e | ⟨count', total'⟩⟩
  · rw [hlast] at h
    simp only [Prod.mk.injEq] at h
    obtain ⟨rfl, rfl, rfl⟩ := h
    exact ⟨rfl, Or.inl ⟨e, e, rfl, rfl, rfl⟩⟩
  · rw [hlast] at h
    simp only [Prod.mk.injEq] at h
    obtain ⟨rfl, rfl, rfl⟩ := h
    exact ⟨rfl, Or.inr ⟨_, _, _, rfl, rfl, rfl, rfl, rfl, rfl⟩⟩

/-- On the device, a push records what it scanned and what it spent. -/
lemma pushOver_device (h : pushOver P env opened d w = (d', w', r)) :
    ∃ ledgers, d' = { (logicalTreeWith P opened d).2 with ledgers := ledgers } := by
  obtain ⟨rfl, -⟩ | ⟨plan, -, -, -, -, ⟨e, e', -, -, rfl⟩ | ⟨count, total, pushed, -, -, rfl, -⟩⟩ :=
    pushOver_cases h
  · exact ⟨_, rfl⟩
  · exact ⟨_, rfl⟩
  · unfold recordSpendAll
    split
    · exact ⟨_, rfl⟩
    · exact ⟨_, rfl⟩

/-- On the server, a push adds blobs. -/
lemma pushOver_grows (h : pushOver P env opened d w = (d', w', r)) : w.server.Grows w'.server := by
  obtain ⟨-, rfl, -⟩ | ⟨plan, -, -, -, rfl, -⟩ := pushOver_cases h
  · exact SyncServer.Grows.refl _
  · exact (runTransfers_server _ _ _).1

end

/-! ## The push of a directory that stands still -/

/-- The directory as it is. -/
def onDisk (files : LocalFiles) (path : String) : OnDisk :=
  files[path]?.elim .absent fun f => .file f.bytes

/-- A push against what the server holds, from the directory as it is, on a billed transport;
whether a put is refused depends on the address alone. -/
def quietEnv (refuse : String → Option ServerError) (d : Device) (s : SyncServer) : PushEnv where
  haveSet := s.blobs.contains
  disk := onDisk d.files
  refuse _ := refuse
  metered := true

section

variable {P : Platform} {refuse : String → Option ServerError} {d : Device} {s : SyncServer}
  {w : Wire} {key : Keypair} {fault : Option PersistError} {deviceId : String}

lemma runUploads_eq_runTransfers (uploads : List (String × Except SyncError Bytes)) :
    runUploads P refuse uploads w.server = ((runTransfers P (fun _ => refuse) uploads w).1.server,
      (runTransfers P (fun _ => refuse) uploads w).2) := by
  induction uploads generalizing w with
  | nil => rfl
  | cons x uploads ih =>
      obtain ⟨cid, e | bytes⟩ := x
      · rfl
      · unfold runUploads runTransfers Wire.put
        rcases hp : w.server.put P (refuse cid) cid bytes with ⟨s₁, e | u⟩
        · rfl
        · have hrest := ih (w := ⟨s₁, w.accepted ++ [bytes.length]⟩)
          dsimp only at hrest ⊢
          rw [hrest]
          rcases runTransfers P (fun _ => refuse) uploads ⟨s₁, w.accepted ++ [bytes.length]⟩ with
            ⟨w₂, e | ⟨count, total⟩⟩
          · rfl
          · rfl

/-- The uploads of a file depend on its own chunks being wanted. -/
lemma entryUploads_congr {disk : String → OnDisk} {entry : FileEntry} {path : String}
    {recover : String → String → Except SyncError Bytes} {want want' : String → Bool}
    (h : ∀ c ∈ entry.chunks, want c.sha256 = want' c.sha256) :
    entryUploads P disk recover want path entry = entryUploads P disk recover want' path entry := by
  have hwanted : (entry.chunks.map ChunkRef.sha256).filter want =
      (entry.chunks.map ChunkRef.sha256).filter want' := by
    apply List.filter_congr
    intro cid hcid
    obtain ⟨c, hc, rfl⟩ := List.mem_map.mp hcid
    exact h c hc
  simp only [entryUploads, hwanted]

lemma fileUploads_eq_entryUploads {want : String → Bool} {path : String} {entry : FileEntry} :
    fileUploads P d want path entry =
      entryUploads P (onDisk d.files) (recoverFromCache P true d) want path entry := by
  unfold fileUploads entryUploads onDisk recoverFromCache
  rcases hf : d.files[path]? with _ | f
  · rfl
  · rfl

/-- **The push of `Ciss.Sync.Push`** is this one, against what the server holds and from a
directory that stands still. -/
theorem pushTree_eq_pushOver :
    pushTree P refuse d w.server =
      ((pushOver P (quietEnv refuse d w.server) true d w).1,
        (pushOver P (quietEnv refuse d w.server) true d w).2.1.server,
        (pushOver P (quietEnv refuse d w.server) true d w).2.2) := by
  have hfiles : (logicalTree P d).2.files = d.files := rfl
  unfold pushTree pushOver planPush logicalTreeWith
  rw [if_pos rfl]
  rcases hl : logicalTree P d with ⟨m, d₁⟩
  rw [hl] at hfiles
  dsimp only at hfiles ⊢
  rcases hm : m.encode P.codec with e | bytes
  · rfl
  dsimp only
  generalize hplan : (⟨m, bytes, P.crypto.sha256Hex bytes, _, _, _, _, _⟩ : PushPlan) = plan
  have hof : PlanOf P (quietEnv refuse d w.server).haveSet m plan := by
    rw [← hplan]
    exact ⟨rfl, hm, rfl, rfl, rfl, rfl⟩
  have hceil : ∀ n, checkCeilings (quietEnv refuse d w.server) true d₁ n =
      d₁.ledgers.forM (·.check n) := fun _ => rfl
  have hwant : missingBlobs (distinctChunks m ++ [(P.crypto.sha256Hex bytes, bytes.length)])
      (quietEnv refuse d w.server).haveSet = (distinctChunks m ++ [(P.crypto.sha256Hex bytes,
        bytes.length)]).filter fun x => !w.server.blobs.contains x.1 := rfl
  rw [hceil, hwant]
  generalize (((distinctChunks m ++ [(P.crypto.sha256Hex bytes, bytes.length)]).filter
    fun x => !w.server.blobs.contains x.1).map Prod.snd).sum = wantBytes
  rcases hc : d₁.ledgers.forM fun l => l.check wantBytes with e | u
  · rfl
  dsimp only
  have hchunks : (m.entries.toList.flatMap fun x =>
      fileUploads P d₁ (fun c => !w.server.blobs.contains c) x.1 x.2) =
      plan.chunkUploads P (quietEnv refuse d w.server) true d₁ := by
    rw [PushPlan.chunkUploads, hof.manifest]
    apply List.flatMap_congr
    intro x hx
    rw [fileUploads_eq_entryUploads, hfiles]
    apply entryUploads_congr
    intro c hc
    exact (hof.wants_chunk (Std.ExtTreeMap.mem_toList_iff_getElem?_eq_some.mp hx) hc).symm
  have hlast : (if (!w.server.blobs.contains (P.crypto.sha256Hex bytes)) = true then
      [(P.crypto.sha256Hex bytes, Except.ok bytes)] else []) = plan.manifestUpload := by
    rw [PushPlan.manifestUpload, hof.wants_manifest, ← hplan]
    rfl
  have hrefuse : (quietEnv refuse d w.server).refuse = fun _ => refuse := rfl
  rw [hchunks, hlast, runUploads_eq_runTransfers, hrefuse]
  rcases runTransfers P (fun _ => refuse) (plan.chunkUploads P (quietEnv refuse d w.server) true d₁)
    w with ⟨w₁, e | ⟨count, total⟩⟩
  · rfl
  dsimp only
  rw [runUploads_eq_runTransfers]
  rcases runTransfers P (fun _ => refuse) plan.manifestUpload w₁ with ⟨w₂, e | ⟨count', total'⟩⟩
  · rfl
  · simp [recordSpendAll, quietEnv]

/-- **The backup of `Ciss.Sync.Frontier`** is this one, in the same surroundings. -/
theorem backupFrontier_eq_over :
    backupFrontier P key refuse fault deviceId d w.server =
      ((backupFrontierOver P key (quietEnv refuse d w.server) fault deviceId d w).1,
        (backupFrontierOver P key (quietEnv refuse d w.server) fault deviceId d w).2.1.server,
        (backupFrontierOver P key (quietEnv refuse d w.server) fault deviceId d w).2.2) := by
  unfold backupFrontier backupFrontierOver
  rw [pushTree_eq_pushOver]
  rcases pushOver P (quietEnv refuse d w.server) true d w with ⟨d₁, w₁, e | pushed⟩
  · rfl
  dsimp only
  rcases (DeviceHead.newSigned deviceId (d₁.counter + 1) pushed.fsManifestCid d₁.lastHead d₁.base
    key).encode P.codec with e | headBytes
  · rfl
  dsimp only [Wire.put, quietEnv]
  rcases w₁.server.put P (refuse (P.crypto.sha256Hex headBytes)) (P.crypto.sha256Hex headBytes)
    headBytes with ⟨s₂, e | u⟩
  · rfl
  dsimp only
  rcases commitLoop P key fault ⟨deviceId, pushed.needed, P.crypto.sha256Hex headBytes,
    headBytes.length⟩ maxCommitRetries s₂ with ⟨s₃, e | seq⟩
  · rfl
  · rfl

end

/-! ## A push that succeeds -/

section

variable {P : Platform} {env : PushEnv} {opened : Bool} {d d' : Device} {w w' : Wire}
  {refuse : Nat → String → Option ServerError} {pushed : PushedTree} {path : String}
  {uploads : List (String × Except SyncError Bytes)}

/-- A transfer that succeeds had the bytes of every upload. -/
lemma runTransfers_bytes {n : Nat × Nat} (h : (runTransfers P refuse uploads w).2 = .ok n) :
    ∀ x ∈ uploads, ∃ bytes, x.2 = .ok bytes := by
  induction uploads generalizing w n with
  | nil => simp
  | cons x uploads ih =>
      obtain ⟨cid, e | bytes⟩ := x
      · simp [runTransfers] at h
      · unfold runTransfers at h
        rcases hp : w.put P refuse cid bytes with ⟨w₁, e | u⟩
        · rw [hp] at h
          simp at h
        · rw [hp] at h
          dsimp only at h
          rcases hr : runTransfers P refuse uploads w₁ with ⟨w₂, e | m⟩
          · rw [hr] at h
            simp at h
          · intro x hx
            rcases List.mem_cons.mp hx with rfl | hx
            · exact ⟨bytes, rfl⟩
            · exact ih (congrArg Prod.snd hr) x hx

/-- If no upload of a file fails, every wanted chunk of it is uploaded. -/
lemma entryUploads_covers {disk : String → OnDisk} {entry : FileEntry} {want : String → Bool}
    {recover : String → String → Except SyncError Bytes}
    (hok : ∀ x ∈ entryUploads P disk recover want path entry, ∃ bytes, x.2 = .ok bytes)
    {c : ChunkRef} (hc : c ∈ entry.chunks) (hw : want c.sha256 = true) :
    ∃ x ∈ entryUploads P disk recover want path entry, x.1 = c.sha256 := by
  have hmem : c.sha256 ∈ (entry.chunks.map ChunkRef.sha256).filter want :=
    List.mem_filter.mpr ⟨List.mem_map_of_mem hc, hw⟩
  have hne : ((entry.chunks.map ChunkRef.sha256).filter want).isEmpty = false := by
    rw [← Bool.not_eq_true, List.isEmpty_iff]
    exact List.ne_nil_of_mem hmem
  unfold entryUploads at hok ⊢
  simp only [hne, Bool.false_eq_true, if_false] at hok ⊢
  split at hok
  · exact ⟨_, List.mem_map_of_mem hmem, rfl⟩
  · obtain ⟨bytes, hb⟩ := hok _ List.mem_cons_self
    simp at hb
  · split at hok
    · obtain ⟨bytes, hb⟩ := hok _ List.mem_cons_self
      simp at hb
    · rename_i hsame
      rw [if_neg hsame]
      rw [Bool.or_eq_true, not_or, List.any_eq_true] at hsame
      rcases hfind : ((chunkFile P _).reverse.find? fun x => x.1.sha256 = c.sha256).map Prod.snd
        with _ | piece
      · refine absurd ⟨c.sha256, List.mem_map_of_mem hc, ?_⟩ hsame.2
        rw [hfind]
        rfl
      · refine ⟨(c.sha256, .ok piece), List.mem_filterMap.mpr ⟨c.sha256, hmem, ?_⟩, rfl⟩
        rw [hfind]
        rfl

/-- **What a successful push leaves on the server.**  Whatever was in the have-set aside, every
blob of the tree is there: the fs-manifest and every chunk. -/
lemma pushOver_stored (h : pushOver P env opened d w = (d', w', .ok pushed)) :
    ∃ bytes, (logicalTreeWith P opened d).1.encode P.codec = .ok bytes ∧
      pushed.fsManifestCid = P.crypto.sha256Hex bytes ∧
      pushed.needed = distinctChunks (logicalTreeWith P opened d).1 ++
        [(pushed.fsManifestCid, bytes.length)] ∧
      w.server.Grows w'.server ∧ (w.server.Addressed P → w'.server.Addressed P) ∧
      ∀ x ∈ pushed.needed, env.haveSet x.1 = false → x.1 ∈ w'.server.blobs := by
  obtain ⟨-, -, ⟨e, he⟩, -⟩ | ⟨plan, -, hof, -, hw, ⟨e, e', he, -⟩ |
    ⟨count, total, pushed', hr, hrun, -, -, hcid, hneeded⟩⟩ := pushOver_cases h
  · simp at he
  · simp at he
  obtain rfl := Except.ok.inj hr
  obtain ⟨hgrows, haddr, hall⟩ := runTransfers_server (P := P) env.refuse
    (plan.uploads P env opened (logicalTreeWith P opened d).2) w
  have hbytes := runTransfers_bytes hrun
  refine ⟨plan.manifestBytes, hof.encode, hcid.trans hof.cid, by rw [hneeded, hof.needed, hcid],
    hw ▸ hgrows, hw ▸ haddr, ?_⟩
  intro x hx hnot
  have hput : ∀ y ∈ plan.uploads P env opened (logicalTreeWith P opened d).2,
      y.1 ∈ w'.server.blobs := by
    rw [hw]
    exact hall _ hrun
  rw [hneeded, hof.needed] at hx
  rcases List.mem_append.mp hx with hx | hx
  · -- a chunk: one of the uploads of a file that lists it
    obtain ⟨p, entry, he, c, hc, hcx⟩ := mem_distinctChunks.mp ⟨x.2, hx⟩
    have hwant : plan.wants c.sha256 = true := by
      rw [hof.wants_chunk he hc, hcx, hnot]
      rfl
    have hsub : ∀ y ∈ entryUploads P env.disk (recoverFromCache P opened
        (logicalTreeWith P opened d).2) plan.wants p entry,
        y ∈ plan.uploads P env opened (logicalTreeWith P opened d).2 := by
      intro y hy
      refine List.mem_append_left _ (List.mem_flatMap.mpr ⟨(p, entry), ?_, hy⟩)
      rw [hof.manifest]
      exact Std.ExtTreeMap.mem_toList_iff_getElem?_eq_some.mpr he
    obtain ⟨y, hy, hyc⟩ := entryUploads_covers (fun y hy => hbytes y (hsub y hy)) hc hwant
    rw [← hcx, ← hyc]
    exact hput y (hsub y hy)
  · obtain rfl := List.mem_singleton.mp hx
    have hwant : plan.wants plan.fsManifestCid = true := by
      rw [hof.wants_manifest]
      simpa using hnot
    refine hput (plan.fsManifestCid, .ok plan.manifestBytes) (List.mem_append_right _ ?_)
    simp [PushPlan.manifestUpload, hwant]

end

end Ciss
