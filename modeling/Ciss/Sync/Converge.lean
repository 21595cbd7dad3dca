import Ciss.Sync.Fold
import Ciss.Sync.Frontier

/-!
# The converge flow

Publish the local tree, fold every device's head against the base, write the folded tree to
disk, publish it as the new head, and record it as the base of the next fold.

`convergeFold` is the middle of the flow: it reads the frontier, verifies and fetches every
head's tree, folds, and materializes the difference, one file after the other; a failure leaves
the files written so far.  `converge` puts it between two `backupFrontier` calls.

A fetched chunk goes into the cache only as an optimization (a hit is verified like a fetch), so
the cache is left as it is here and may be replaced at any time by the machine that runs this.
-/

namespace Ciss

/-- What the environment decides during a converge: which uploads the server refuses, whether its
database fails, at which paths a directory cannot be created, and the time. -/
structure SyncEnv where
  refuse : String → Option ServerError
  fault : Option PersistError
  blocked : String → Bool
  now : Int × Nat

/-- Fetch and decode the fs-manifest at an address. -/
def fetchManifest (P : Platform) (s : SyncServer) (cid : String) : Except SyncError FsManifest := do
  let bytes ← s.get P cid
  verifyContent P.crypto cid bytes
  FsManifest.decode P.codec bytes

/-- Fetch and verify a head, and fetch its tree. -/
def fetchHead (P : Platform) (verifier : VerifyingKey) (s : SyncServer) (headCid : String) :
    Except SyncError FsManifest := do
  let headBytes ← s.get P headCid
  let head ← DeviceHead.decodeVerified P.crypto P.codec headBytes verifier
  fetchManifest P s head.fsRoot

/-- Every device's tree, from the frontier's heads. -/
def fetchHeads (P : Platform) (verifier : VerifyingKey) (s : SyncServer) (heads : HeadCids) :
    Except SyncError Heads :=
  heads.toList.foldlM (fun (trees : Heads) x => do
    let tree ← fetchHead P verifier s x.2
    return trees.insert x.1 tree) ∅

/-- The base: the last converged tree the device recorded. -/
def fetchBase (P : Platform) (s : SyncServer) (base : Option String) :
    Except SyncError (Option FsManifest) :=
  match base with
  | none => .ok none
  | some cid => (fetchManifest P s cid).map some

/-- The content of an entry, chunk by chunk, from the cache or the server. -/
def fetchContent (P : Platform) (d : Device) (s : SyncServer) (entry : FileEntry) :
    Except SyncError Bytes :=
  entry.chunks.foldlM (fun content c =>
    match cacheGet P d c.sha256 with
    | some bytes => .ok (content ++ bytes)
    | none => do
        let bytes ← s.get P c.sha256
        verifyContent P.crypto c.sha256 bytes
        return content ++ bytes) []

/-- The temporary file a write goes through, next to its destination. -/
def tmpPath (path : String) : String :=
  let name := path.toList.reverse.takeWhile (· ≠ '/')
  let parent := path.toList.reverse.dropWhile (· ≠ '/')
  String.ofList (parent.reverse ++ ".ciss-restore-".toList ++ name.reverse ++ ".tmp".toList)

/-- The synced directory. -/
abbrev LocalFiles := Std.ExtTreeMap String LocalFile compare

/-- Write content that was verified: size-checked, through the temporary file, with the mode and
(unless it lies before the epoch) the mtime of the entry. -/
def writeVerifiedFile (env : SyncEnv) (path : String) (entry : FileEntry) (content : Bytes)
    (files : LocalFiles) : LocalFiles × Except SyncError Unit :=
  if content.length ≠ entry.size then
    (files, .error (.decode (String.join [path, ": reassembled ", content.length.repr,
      " bytes, manifest says ", entry.size.repr])))
  else if env.blocked path then (files, .error (.io path))
  else
    let mtime := if 0 ≤ entry.mtimeSecs then (entry.mtimeSecs, entry.mtimeNanos) else env.now
    ((files.erase (tmpPath path)).insert path ⟨entry.mode, mtime.1, mtime.2, content⟩, .ok ())

/-- Write what differs from the own tree; returns how many files were written. -/
def writeFiles (P : Platform) (env : SyncEnv) (d : Device) (s : SyncServer) (mine : Entries) :
    List (String × FileEntry) → LocalFiles → LocalFiles × Except SyncError Nat
  | [], files => (files, .ok 0)
  | (path, entry) :: rest, files =>
      if mine[path]? = some entry then writeFiles P env d s mine rest files
      else
        match fetchContent P d s entry with
        | .error e => (files, .error e)
        | .ok content =>
            match writeVerifiedFile env path entry content files with
            | (files, .error e) => (files, .error e)
            | (files, .ok ()) =>
                match writeFiles P env d s mine rest files with
                | (files, .error e) => (files, .error e)
                | (files, .ok n) => (files, .ok (n + 1))

/-- Remove what the fold dropped; returns how many files were removed. -/
def removeFiles (tree : Entries) : List String → LocalFiles → LocalFiles × Except SyncError Nat
  | [], files => (files, .ok 0)
  | path :: rest, files =>
      if tree.contains path then removeFiles tree rest files
      else if files.contains path then
        match removeFiles tree rest (files.erase path) with
        | (files, .error e) => (files, .error e)
        | (files, .ok n) => (files, .ok (n + 1))
      else (files, .error (.io path))

/-- What the middle of a converge did. -/
structure Materialized where
  tree : FsManifest
  filesWritten : Nat
  filesDeleted : Nat
  conflicts : List String

/-- Read the frontier, fold, and materialize the difference. -/
def convergeFold (P : Platform) (key : Keypair) (env : SyncEnv) (deviceId : String) (d : Device)
    (s : SyncServer) : Device × Except SyncError Materialized :=
  match s.frontier with
  | none => (d, .error (.decode "no frontier to converge with"))
  | some frontier =>
      match fetchHeads P key.verifyingKey s frontier.heads with
      | .error e => (d, .error e)
      | .ok heads =>
          match fetchBase P s d.base with
          | .error e => (d, .error e)
          | .ok base =>
              match fold P.crypto P.codec heads base with
              | .error e => (d, .error e)
              | .ok outcome =>
                  let mine := (heads[deviceId]?.getD FsManifest.new).entries
                  match writeFiles P env d s mine outcome.tree.entries.toList d.files with
                  | (files, .error e) => ({ d with files := files }, .error e)
                  | (files, .ok written) =>
                      match removeFiles outcome.tree.entries mine.keys files with
                      | (files, .error e) => ({ d with files := files }, .error e)
                      | (files, .ok deleted) =>
                          ({ d with files := files }, .ok
                            ⟨outcome.tree, written, deleted,
                              outcome.conflicts.map ConflictNote.loserPath⟩)

/-- Publish the materialized tree, then record it as the base. -/
def convergeAdopt (P : Platform) (key : Keypair) (env : SyncEnv) (deviceId : String) (d : Device)
    (s : SyncServer) : Device × SyncServer × Except SyncError FrontierReport :=
  match backupFrontier P key env.refuse env.fault deviceId d s with
  | (d, s, .error e) => (d, s, .error e)
  | (d, s, .ok report) => ({ d with base := some report.pushed.fsManifestCid }, s, .ok report)

/-- What a converge did. -/
structure ConvergeReport where
  files : Nat
  filesWritten : Nat
  filesDeleted : Nat
  conflicts : List String
  fsManifestCid : String
  manifestSeq : Nat
  deriving DecidableEq, Repr

/-- Converge the device with every other device's head. -/
def converge (P : Platform) (key : Keypair) (env : SyncEnv) (deviceId : String) (d : Device)
    (s : SyncServer) : Device × SyncServer × Except SyncError ConvergeReport :=
  match backupFrontier P key env.refuse env.fault deviceId d s with
  | (d, s, .error e) => (d, s, .error e)
  | (d, s, .ok _) =>
      match convergeFold P key env deviceId d s with
      | (d, .error e) => (d, s, .error e)
      | (d, .ok m) =>
          match convergeAdopt P key env deviceId d s with
          | (d, s, .error e) => (d, s, .error e)
          | (d, s, .ok report) =>
              (d, s, .ok ⟨m.tree.entries.size, m.filesWritten, m.filesDeleted, m.conflicts,
                report.pushed.fsManifestCid, report.manifestSeq⟩)

end Ciss
