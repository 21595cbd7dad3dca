import Ciss.Sync.Manifest
import Ciss.Framework.HashTable
import Mathlib.Data.List.Sort

/-!
# DAG-CBOR for the sync records

The bytes the serializer writes for a file entry, an fs-manifest and a device head: definite
lengths, shortest heads, map keys ordered by length and then by their bytes, hashes as byte
strings.  `dagCbor manifests heads` is a `Codec` with exactly these bytes that writes and reads
the listed values and refuses everything else; concrete runs list the values they store.
-/

namespace Ciss

/-- The big-endian bytes of `n`, `width` of them. -/
def bigEndian (width n : Nat) : Bytes :=
  (List.range width).reverse.map fun i => UInt8.ofNat (n / 256 ^ i % 256)

/-- The head of a data item: its major type and the shortest form of its argument. -/
def cborHead (major n : Nat) : Bytes :=
  let initial (info : Nat) : UInt8 := UInt8.ofNat (32 * major + info)
  if n < 24 then [initial n]
  else if n < 2 ^ 8 then initial 24 :: bigEndian 1 n
  else if n < 2 ^ 16 then initial 25 :: bigEndian 2 n
  else if n < 2 ^ 32 then initial 26 :: bigEndian 4 n
  else initial 27 :: bigEndian 8 n

/-- An integer. -/
def cborInt : Int → Bytes
  | .ofNat n => cborHead 0 n
  | .negSucc n => cborHead 1 n

/-- A byte string. -/
def cborBytes (b : Bytes) : Bytes := cborHead 2 b.length ++ b

/-- A text string. -/
def cborText (s : String) : Bytes := cborHead 3 (asBytes s).length ++ asBytes s

/-- A text, or null. -/
def cborOptionalText (s : Option String) : Bytes := s.elim [0xf6] cborText

/-- An array of items already encoded. -/
def cborArray (items : List Bytes) : Bytes := cborHead 4 items.length ++ items.flatten

/-- A map whose members are already encoded and in canonical order. -/
def cborMap (members : List (String × Bytes)) : Bytes :=
  cborHead 5 members.length ++ members.flatMap fun m => cborText m.1 ++ m.2

/-- The canonical order of map keys. -/
def keyLE (a b : String) : Bool :=
  let x := asBytes a
  let y := asBytes b
  x.length < y.length || x.length = y.length && (x.map UInt8.toNat) ≤ (y.map UInt8.toNat)

/-- A chunk reference. -/
def ChunkRef.toCbor (c : ChunkRef) : Bytes :=
  cborMap [("len", cborInt c.len), ("blake3", cborBytes ((hexDecode c.blake3).getD [])),
    ("sha256", cborBytes ((hexDecode c.sha256).getD []))]

/-- A file entry. -/
def FileEntry.toCbor (e : FileEntry) : Bytes :=
  cborMap [("mode", cborInt e.mode), ("size", cborInt e.size),
    ("chunks", cborArray (e.chunks.map ChunkRef.toCbor)), ("mtime_secs", cborInt e.mtimeSecs),
    ("mtime_nanos", cborInt e.mtimeNanos)]

/-- An fs-manifest. -/
def FsManifest.toCbor (m : FsManifest) : Bytes :=
  cborMap [("kind", cborText m.kind),
    ("entries", cborMap ((m.entries.toList.map fun x => (x.1, x.2.toCbor)).insertionSort
      fun x y => keyLE x.1 y.1))]

/-- A device head. -/
def DeviceHead.toCbor (h : DeviceHead) : Bytes :=
  cborMap [("base", cborOptionalText h.base), ("kind", cborText h.kind),
    ("parent", cborOptionalText h.parent), ("counter", cborInt h.counter),
    ("fs_root", cborText h.fsRoot), ("device_id", cborText h.deviceId),
    ("signature", cborText h.signature)]

/-- The value of a list with the given encoding. -/
def decodeAmong {α : Type} (encode : α → Bytes) (values : List α) (bytes : Bytes) :
    Except String α :=
  match values.find? fun v => encode v = bytes with
  | some v => .ok v
  | none => .error "unexpected data"

/-- The encoding of a value that is read back. -/
def encodeAmong {α : Type} [DecidableEq α] (encode : α → Bytes) (values : List α) (v : α) :
    Except String Bytes :=
  if values.find? (fun v' => encode v' = encode v) = some v then .ok (encode v)
  else .error "value not listed"

lemma decodeAmong_encodeAmong {α : Type} [DecidableEq α] {encode : α → Bytes} {values : List α}
    {v : α} {bytes : Bytes} (h : encodeAmong encode values v = .ok bytes) :
    decodeAmong encode values bytes = .ok v := by
  unfold encodeAmong at h
  split at h
  · rename_i hfind
    obtain rfl := Except.ok.inj h
    simp [decodeAmong, hfind]
  · simp at h

/-- The serializer on the listed trees and heads. -/
def dagCbor (manifests : List FsManifest) (heads : List DeviceHead) : Codec where
  encodeEntry e := .ok e.toCbor
  encodeManifest := encodeAmong FsManifest.toCbor manifests
  decodeManifest := decodeAmong FsManifest.toCbor manifests
  encodeHead := encodeAmong DeviceHead.toCbor heads
  decodeHead := decodeAmong DeviceHead.toCbor heads

end Ciss
