import Std.Data.ExtTreeMap
import Ciss.Framework.HashTable
import Ciss.Server.Identity

/-!
# Content-addressed items

An item's name is the fingerprint of its bytes.  The content store keeps bytes under names and
checks nothing when it is written to; a retrieval fingerprints what it finds, and tells bytes that
are gone (`missing`) from bytes that have changed (`tampered`).
-/

namespace Ciss

/-- A content-addressed item. -/
structure Item where
  label : String
  bytes : Bytes
  cid : String
  size : Nat
  deriving DecidableEq, Repr

/-- Make an item from raw bytes; its `cid` is computed, not assigned. -/
def Item.fromBytes (C : Crypto) (label : String) (bytes : Bytes) : Item :=
  ⟨label, bytes, C.sha256Hex bytes, bytes.length⟩

/-- Why a verified retrieval failed. -/
inductive RetrieveError where
  | missing (cid : String)
  | tampered (cid actual : String)
  deriving DecidableEq, Repr

/-- Bytes under names. -/
abbrev ContentStore := Std.ExtTreeMap String Bytes compare

namespace ContentStore

variable (C : Crypto) (s : ContentStore)

/-- Store bytes under a key, unchecked. -/
def write (key : String) (bytes : Bytes) : ContentStore := s.insert key bytes

/-- Store an item under its own address. -/
def put (item : Item) : ContentStore := s.write item.cid item.bytes

/-- Retrieve by fingerprint and verify. -/
def retrieveVerified (cid : String) : Except RetrieveError Bytes :=
  match s[cid]? with
  | none => .error (.missing cid)
  | some stored =>
      let actual := C.sha256Hex stored
      if actual ≠ cid then .error (.tampered cid actual) else .ok stored

/-- Bytes read to retrieve a set of addresses. -/
def auditReadCost (cids : List String) : Nat :=
  (cids.filterMap fun cid => s[cid]?.map List.length).sum

variable {C s} {cid : String} {bytes : Bytes}

/-- A retrieval succeeds on the bytes stored under their own fingerprint. -/
lemma retrieveVerified_eq_ok_iff :
    s.retrieveVerified C cid = .ok bytes ↔ s[cid]? = some bytes ∧ C.sha256Hex bytes = cid := by
  rw [retrieveVerified]
  cases s[cid]? with
  | none => simp
  | some stored =>
      by_cases h : C.sha256Hex stored = cid
      · simp only [h, ne_eq, not_true_eq_false, if_false, Except.ok.injEq, Option.some.injEq]
        exact ⟨fun heq => ⟨heq, heq ▸ h⟩, And.left⟩
      · simp only [h, ne_eq, not_false_eq_true, if_true, reduceCtorEq, Option.some.injEq, false_iff]
        rintro ⟨rfl, heq⟩
        exact h heq

/-- An item that is put is retrieved, whatever was stored under its address. -/
theorem retrieveVerified_put (s : ContentStore) (label : String) (bytes : Bytes) :
    (s.put (.fromBytes C label bytes)).retrieveVerified C (C.sha256Hex bytes) = .ok bytes :=
  retrieveVerified_eq_ok_iff.mpr ⟨Std.ExtTreeMap.getElem?_insert_self, rfl⟩

end ContentStore

end Ciss
