import Ciss.Framework.Outcome
import Ciss.Server.Assertion
import Std.Data.ExtTreeMap

/-!
# The sync client's records

The file-sync client keeps a tree as an *fs-manifest*, a map from relative paths to file
entries, and publishes it through a signed *device head*.  Both are stored as blobs under the
SHA-256 of their canonical DAG-CBOR bytes.

The DAG-CBOR serializer is a library and is the structure `Codec`: what it writes for the three
record types, what it reads back, and the text of its refusals.  The checks around it (the
`kind` tags, the signature of a head, the address of a blob) are the client's own.

A `BTreeMap` with string keys is a `Std.ExtTreeMap`: it lists its members in key order, and two
maps with the same members are equal.  Paths and devices are compared as texts; addresses are
hex, and are compared byte by byte (`ByCid`).
-/

namespace Ciss

/-! ## Errors -/

/-- What can go wrong in the modelled part of the sync engine. -/
inductive SyncError where
  /-- A filesystem operation failed at this path. -/
  | io (path : String)
  | encode (reason : String)
  | decode (reason : String)
  | wrongKind (kind : String)
  | cidMismatch (expected got : String)
  | transport (reason : String)
  /-- A transport failure that wraps a refusal of the server. -/
  | refused (cause : ServerError)
  | changedDuringBackup (path : String)
  /-- The commit's seq was not strictly newer: another writer landed first. -/
  | staleSeq (attempted : Nat)
  | ceilingDeferred (scope : String) (neededCents spentCents ceilingCents : Nat)
  /-- A file to evict has chunks that are not provably backed. -/
  | evictUnbacked (path : String) (missingCids : List String)
  | noPlaceholder (path : String)
  | hydrateWouldOverwrite (path : String)
  deriving DecidableEq, Repr

/-- A map keyed by addresses. -/
abbrev ByCid (β : Type) := Std.ExtTreeMap String β byteCompare

/-! ## Fs-manifests -/

/-- A chunk's identity: both content addresses, by their lowercase hex, and its length. -/
structure ChunkRef where
  sha256 : String
  blake3 : String
  len : Nat
  deriving DecidableEq, Repr

/-- One file's metadata and its chunk list. -/
structure FileEntry where
  /-- Unix permission bits. -/
  mode : Nat
  mtimeSecs : Int
  mtimeNanos : Nat
  /-- File length in bytes. -/
  size : Nat
  /-- The content, in order. -/
  chunks : List ChunkRef
  deriving DecidableEq, Repr

/-- Relative forward-slash paths and what stands there. -/
abbrev Entries := Std.ExtTreeMap String FileEntry compare

/-- The self-tag every fs-manifest leads with. -/
def fsManifestKind : String := "croft.fs-manifest/v1"

/-- The whole tree. -/
structure FsManifest where
  kind : String
  entries : Entries

-- not derived: a derived instance transports along an equality of maps, which does not evaluate
instance : DecidableEq FsManifest := fun a b =>
  decidable_of_iff (a.kind = b.kind ∧ a.entries = b.entries)
    (by cases a; cases b; simp)

/-! ## Device heads -/

/-- The self-tag every device head leads with; also its signing domain. -/
def deviceHeadKind : String := "croft.device-head/v1"

/-- A device's signed commit record. -/
structure DeviceHead where
  kind : String
  deviceId : String
  counter : Nat
  /-- The fs-manifest this commit publishes, by its cid. -/
  fsRoot : String
  /-- The previous head of the same device. -/
  parent : Option String
  /-- The fs-manifest of the last converged tree. -/
  base : Option String
  signature : String
  deriving DecidableEq, Repr

/-! ## The codec -/

/-- `serde_ipld_dagcbor` on the three record types; a refusal carries the library's text. -/
structure Codec where
  encodeEntry : FileEntry → Except String Bytes
  encodeManifest : FsManifest → Except String Bytes
  decodeManifest : Bytes → Except String FsManifest
  encodeHead : DeviceHead → Except String Bytes
  decodeHead : Bytes → Except String DeviceHead

/-- Whether two entries carry the same content; mode and mtime may differ. -/
def sameContent (a b : FileEntry) : Bool := a.size = b.size && a.chunks = b.chunks

@[simp] lemma sameContent_iff {a b : FileEntry} :
    sameContent a b = true ↔ a.size = b.size ∧ a.chunks = b.chunks := by
  simp [sameContent]

lemma sameContent_refl (a : FileEntry) : sameContent a a = true := by simp

lemma sameContent_comm (a b : FileEntry) : sameContent a b = sameContent b a := by
  simp [sameContent, eq_comm]

lemma sameContent_trans {a b c : FileEntry} (hab : sameContent a b = true)
    (hbc : sameContent b c = true) : sameContent a c = true := by
  rw [sameContent_iff] at *
  exact ⟨hab.1.trans hbc.1, hab.2.trans hbc.2⟩

namespace FsManifest

/-- An empty manifest carrying the current `kind` tag. -/
def new : FsManifest := ⟨fsManifestKind, ∅⟩

/-- Insert (or replace) a file entry under its relative path. -/
def insert (m : FsManifest) (path : String) (entry : FileEntry) : FsManifest :=
  { m with entries := m.entries.insert path entry }

/-- The canonical bytes. -/
def encode (K : Codec) (m : FsManifest) : Except SyncError Bytes :=
  (K.encodeManifest m).mapError .encode

/-- The addressed identity: SHA-256 over the canonical bytes. -/
def contentId (C : Crypto) (K : Codec) (m : FsManifest) : Except SyncError String := do
  let bytes ← m.encode K
  return C.sha256Hex bytes

/-- Read a manifest back, refusing a wrong `kind` tag. -/
def decode (K : Codec) (bytes : Bytes) : Except SyncError FsManifest := do
  let manifest ← (K.decodeManifest bytes).mapError .decode
  if manifest.kind = fsManifestKind then return manifest
  else throw (.wrongKind manifest.kind)

end FsManifest

namespace DeviceHead

/-- The domain-tagged text a head's signature covers. -/
def preimage (deviceId : String) (counter : Nat) (fsRoot : String)
    (parent base : Option String) : String :=
  String.join [deviceHeadKind, ":", deviceId, ":", counter.repr, ":", fsRoot, ":",
    parent.getD "-", ":", base.getD "-"]

/-- Build and sign a head with the account key. -/
def newSigned (deviceId : String) (counter : Nat) (fsRoot : String)
    (parent base : Option String) (keypair : Keypair) : DeviceHead where
  kind := deviceHeadKind
  deviceId := deviceId
  counter := counter
  fsRoot := fsRoot
  parent := parent
  base := base
  signature := keypair.signMessage (preimage deviceId counter fsRoot parent base)

/-- The canonical bytes. -/
def encode (K : Codec) (h : DeviceHead) : Except SyncError Bytes :=
  (K.encodeHead h).mapError fun e => .encode ("device head: " ++ e)

/-- Decode and fully verify a head: the kind tag must match and the signature must check out. -/
def decodeVerified (C : Crypto) (K : Codec) (bytes : Bytes) (verifier : VerifyingKey) :
    Except SyncError DeviceHead := do
  let head ← (K.decodeHead bytes).mapError fun e => .decode ("device head: " ++ e)
  if head.kind ≠ deviceHeadKind then
    throw (.decode (String.join ["not a device head (kind = ", head.kind.quote, ")"]))
  if !verifyMessage C verifier
      (preimage head.deviceId head.counter head.fsRoot head.parent head.base) head.signature then
    throw (.decode (String.join ["device head ", head.deviceId,
      " signature invalid — refusing the asserted head"]))
  return head

end DeviceHead

/-- A store's assigned address must equal the locally derived one. -/
def verifyServerCid (expected got : String) : Except SyncError Unit :=
  if expected = got then .ok () else .error (.cidMismatch expected got)

/-- The bytes must be addressed by `expected`. -/
def verifyContent (C : Crypto) (expected : String) (bytes : Bytes) : Except SyncError Unit :=
  verifyServerCid expected (C.sha256Hex bytes)

end Ciss
