import Ciss.Server.Objects

/-!
# The signed manifest and its slot

The customer's signed list of what the provider keeps: leaves `(cid, size)` sorted by cid, a
Merkle root over them, the byte total, a sequence number, and, since the frontier, the map from
devices to their heads.  The server keeps one manifest per identifier and replaces it only by a
strictly newer one that verifies.

A manifest is stored as its JSON and read back from it; here the slot holds the record itself.
Parsing a request body is left to the caller: `none` is a body that is no manifest.
-/

namespace Ciss

/-- A single leaf: a content address and its claimed size. -/
structure ManifestLeaf where
  cid : String
  size : Nat
  deriving DecidableEq, Repr

/-- A 64-digit lowercase hex address and a size within the per-object ceiling. -/
def ManifestLeaf.isValid (leaf : ManifestLeaf) : Bool :=
  let bytes := asBytes leaf.cid
  bytes.length = 64 &&
    bytes.all (fun b => 48 ≤ b.toNat && b.toNat ≤ 57 || 97 ≤ b.toNat && b.toNat ≤ 102) &&
    leaf.size ≤ maxObjectBytes

/-- The hash of a single leaf. -/
def leafHash (C : Crypto) (leaf : ManifestLeaf) : String :=
  C.sha256Hex (asBytes (String.join ["leaf:", leaf.cid, ":", leaf.size.repr]))

/-- One level of the tree from the one below; an odd child is tagged differently from a pair. -/
def merkleLevel (C : Crypto) : List String → List String
  | [] => []
  | [x] => [C.sha256Hex (asBytes (String.join ["node1:", x]))]
  | x :: y :: level => C.sha256Hex (asBytes (String.join ["node:", x, ":", y])) :: merkleLevel C level

/-- The loop up to the level that has one node.  Every round shortens the level, so the length of
the leaf level is fuel enough. -/
def merkleLoop (C : Crypto) : Nat → List String → List String
  | 0, level => level
  | fuel + 1, level =>
      if level.length > 1 then merkleLoop C fuel (merkleLevel C level) else level

/-- The leaves in the order of their addresses. -/
def sortLeaves (leaves : List ManifestLeaf) : List ManifestLeaf :=
  leaves.insertionSort fun a b => (byteCompare a.cid b.cid).isLE = true

/-- The Merkle root over the leaf set. -/
def merkleRoot (C : Crypto) (leaves : List ManifestLeaf) : String :=
  if leaves.isEmpty then C.sha256Hex (asBytes "empty-manifest")
  else
    let level := (sortLeaves leaves).map (leafHash C)
    (merkleLoop C level.length level).headD ""

/-- Whether the same address occurs more than once. -/
def hasDuplicateCids (leaves : List ManifestLeaf) : Bool :=
  !decide (leaves.map ManifestLeaf.cid).Nodup

/-- `device_id → cid(DeviceHead)`. -/
abbrev HeadCids := Std.ExtTreeMap String String compare

/-- The domain-separated preimage the customer signs. -/
def manifestPreimage (C : Crypto) (signerId : String) (seq leafCount totalBytes : Nat)
    (root : String) (heads : Option HeadCids) : String :=
  let base := String.join ["ciss/v1/manifest", ":", signerId, ":", seq.repr, ":",
    leafCount.repr, ":", totalBytes.repr, ":", root]
  match heads with
  | none => base
  | some map =>
      let joined := String.join (map.toList.map fun x => String.join [x.1, "=", x.2, ";"])
      String.join [base, ":heads=", C.sha256Hex (asBytes joined)]

/-- A built, signed manifest. -/
structure Manifest where
  leaves : List ManifestLeaf
  root : String
  totalBytes : Nat
  signerId : String
  seq : Nat
  signature : String
  heads : Option HeadCids
  deriving DecidableEq

namespace Manifest

/-- Verify the manifest fully. -/
def verify (C : Crypto) (m : Manifest) (customerKey : VerifyingKey) : Bool :=
  if m.leaves.any (fun leaf => !leaf.isValid) || hasDuplicateCids m.leaves then false
  else if merkleRoot C m.leaves ≠ m.root then false
  else if (m.leaves.map ManifestLeaf.size).sum ≠ m.totalBytes then false
  else
    verifyMessage C customerKey
      (manifestPreimage C m.signerId m.seq m.leaves.length m.totalBytes m.root m.heads) m.signature

/-- Sort, sum and sign. -/
def buildSigned (C : Crypto) (items : List ManifestLeaf) (customerId : String)
    (customerKey : Keypair) (seq : Nat) (heads : Option HeadCids) : Manifest :=
  let leaves := sortLeaves items
  let root := merkleRoot C leaves
  let totalBytes := (leaves.map ManifestLeaf.size).sum
  { leaves := leaves
    root := root
    totalBytes := totalBytes
    signerId := customerId
    seq := seq
    signature := customerKey.signMessage
      (manifestPreimage C customerId seq leaves.length totalBytes root heads)
    heads := heads }

end Manifest

/-- Build and sign a manifest without a frontier. -/
def buildManifest (C : Crypto) (items : List ManifestLeaf) (customerId : String)
    (customerKey : Keypair) (seq : Nat) : Manifest :=
  Manifest.buildSigned C items customerId customerKey seq none

/-- Build and sign a manifest that carries the frontier. -/
def buildManifestWithHeads (C : Crypto) (items : List ManifestLeaf) (customerId : String)
    (customerKey : Keypair) (seq : Nat) (heads : HeadCids) : Manifest :=
  Manifest.buildSigned C items customerId customerKey seq (some heads)

/-! ## The slot -/

/-- The part of the store `op_put_manifest` works on: the account's mode and its manifest. -/
structure ManifestSlot where
  accountMode : AccountMode
  manifest : Option Manifest

/-- What an accepted put answers. -/
structure ManifestSaved where
  root : String
  totalBytes : Nat
  deriving DecidableEq, Repr

/-- Replace the manifest of `did`.  `fault` is a failure of the database at the write. -/
def opPutManifest (C : Crypto) (slot : ManifestSlot) (fault : Option PersistError)
    (did pubkeyHex : String) (body : Option Manifest) :
    ManifestSlot × Except ServerError ManifestSaved :=
  match body with
  | none => (slot, .error (.badManifest "body is not a valid manifest"))
  | some manifest =>
      match publicKeyFromHex C pubkeyHex with
      | .error _ => (slot, .error .badPubkey)
      | .ok key =>
          if deriveId C key ≠ did then (slot, .error .didKeyMismatch)
          else if manifest.signerId ≠ did then
            (slot, .error (.badManifest "manifest signer_id is not the DID"))
          else if !manifest.verify C key then
            (slot, .error (.badManifest "manifest signature/root invalid"))
          else if slot.accountMode = .drawdown ∧
              manifest.totalBytes > slot.manifest.elim 0 Manifest.totalBytes then
            (slot, .error .drawdownActive)
          else if slot.manifest.any (manifest.seq ≤ ·.seq) then
            (slot, .error (.assertionStale "manifest" manifest.seq))
          else
            match fault with
            | some e => (slot, .error (.persist e))
            | none =>
                ({ slot with manifest := some manifest }, .ok ⟨manifest.root, manifest.totalBytes⟩)

section

variable {C : Crypto} {slot slot' : ManifestSlot} {fault : Option PersistError}
  {did pubkeyHex : String} {body : Option Manifest} {r : Except ServerError ManifestSaved}

/-- **What a put can do.**  It is refused and changes nothing, or it stores a verified manifest
that is strictly newer than the stored one. -/
lemma opPutManifest_cases (h : opPutManifest C slot fault did pubkeyHex body = (slot', r)) :
    (slot' = slot ∧ ∃ e, r = .error e) ∨
      ∃ m key, body = some m ∧ publicKeyFromHex C pubkeyHex = .ok key ∧ deriveId C key = did ∧
        m.signerId = did ∧ m.verify C key = true ∧
        (∀ old, slot.manifest = some old → old.seq < m.seq) ∧
        slot' = { slot with manifest := some m } ∧ r = .ok ⟨m.root, m.totalBytes⟩ := by
  unfold opPutManifest at h
  rcases body with _ | m
  · exact Or.inl ⟨(Prod.mk.inj h).1.symm, _, (Prod.mk.inj h).2.symm⟩
  · dsimp only at h
    rcases hkey : publicKeyFromHex C pubkeyHex with e | key
    · rw [hkey] at h
      exact Or.inl ⟨(Prod.mk.inj h).1.symm, _, (Prod.mk.inj h).2.symm⟩
    · rw [hkey] at h
      dsimp only at h
      split at h
      · exact Or.inl ⟨(Prod.mk.inj h).1.symm, _, (Prod.mk.inj h).2.symm⟩
      rename_i hdid
      split at h
      · exact Or.inl ⟨(Prod.mk.inj h).1.symm, _, (Prod.mk.inj h).2.symm⟩
      rename_i hsigner
      split at h
      · exact Or.inl ⟨(Prod.mk.inj h).1.symm, _, (Prod.mk.inj h).2.symm⟩
      rename_i hverify
      split at h
      · exact Or.inl ⟨(Prod.mk.inj h).1.symm, _, (Prod.mk.inj h).2.symm⟩
      split at h
      · exact Or.inl ⟨(Prod.mk.inj h).1.symm, _, (Prod.mk.inj h).2.symm⟩
      rename_i hseq
      split at h
      · exact Or.inl ⟨(Prod.mk.inj h).1.symm, _, (Prod.mk.inj h).2.symm⟩
      · refine Or.inr ⟨m, key, rfl, rfl, not_not.mp hdid, not_not.mp hsigner, by simpa using hverify,
          ?_, (Prod.mk.inj h).1.symm, (Prod.mk.inj h).2.symm⟩
        intro old hold
        rw [hold] at hseq
        simpa using hseq

end

end Ciss
