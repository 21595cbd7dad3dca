import Ciss.Sync.Push

/-!
# The frontier commit

A device publishes its tree as a signed head and puts it into the account's shared `heads` map:
push the tree, upload the head, then loop: read the frontier, replace the own slot, list what
every head needs, and put the manifest at the next seq; a stale refusal starts the loop over, at
most three times.

The pieces of the loop are functions of their own (`proposeCommit` from a read of the frontier,
`commitFrontier` for the put), because between a read and the put that follows it other devices
may commit.  `backupFrontier` runs them back to back, as they run when nobody interferes.
-/

namespace Ciss

/-- The keep-set under construction: the size of every listed blob. -/
abbrev Leaves := ByCid Nat

/-- The committed frontier as one read. -/
structure FrontierView where
  seq : Nat
  heads : HeadCids
  leaves : List (String × Nat)

/-- `HttpCiss::frontier`: the stored manifest, its absent `heads` read as the empty map. -/
def SyncServer.frontier (s : SyncServer) : Option FrontierView :=
  s.slot.manifest.map fun m =>
    ⟨m.seq, m.heads.getD ∅, m.leaves.map fun l => (l.cid, l.size)⟩

/-- The committed heads map. -/
def SyncServer.heads (s : SyncServer) : HeadCids := s.frontier.elim ∅ FrontierView.heads

/-- The committed seq, zero before the first commit. -/
def SyncServer.seq (s : SyncServer) : Nat := s.frontier.elim 0 FrontierView.seq

/-- List every chunk of a tree. -/
def insertChunks (leaves : Leaves) (m : FsManifest) : Leaves :=
  m.entries.foldl (fun leaves _ entry =>
    entry.chunks.foldl (fun leaves c => leaves.insert c.sha256 c.len) leaves) leaves

/-- List a verified head, its fs-manifest and chunks, and its base manifest. -/
def extendWithHeadClosure (P : Platform) (s : SyncServer) (verifier : VerifyingKey)
    (headCid : String) (leaves : Leaves) : Except SyncError Leaves := do
  let headBytes ← s.get P headCid
  let head ← DeviceHead.decodeVerified P.crypto P.codec headBytes verifier
  let leaves := leaves.insert headCid headBytes.length
  let manifestBytes ← s.get P head.fsRoot
  let manifest ← FsManifest.decode P.codec manifestBytes
  let leaves := leaves.insert head.fsRoot manifestBytes.length
  let leaves := insertChunks leaves manifest
  match head.base with
  | none => return leaves
  | some base =>
      if leaves.contains base then return leaves
      else
        let baseBytes ← s.get P base
        return leaves.insert base baseBytes.length

/-- A call of `backup_frontier` that has pushed its tree and uploaded its head. -/
structure Pending where
  deviceId : String
  /-- The blobs of the pushed tree. -/
  needed : List (String × Nat)
  headCid : String
  headLen : Nat

/-- What a round of the commit loop is about to put. -/
structure Proposal where
  seq : Nat
  heads : HeadCids
  leaves : List (String × Nat)

/-- From one read of the frontier: the own slot replaced, every head's closure listed. -/
def proposeCommit (P : Platform) (verifier : VerifyingKey) (b : Pending) (s : SyncServer)
    (frontier : Option FrontierView) : Except SyncError Proposal := do
  let seq := frontier.elim 1 fun view => view.seq + 1
  let heads := (frontier.elim ∅ FrontierView.heads).insert b.deviceId b.headCid
  let leaves := (∅ : Leaves).insertMany b.needed
  let leaves := leaves.insert b.headCid b.headLen
  let leaves ← heads.toList.foldlM (fun leaves x =>
    if x.1 = b.deviceId then pure leaves
    else extendWithHeadClosure P s verifier x.2 leaves) leaves
  return ⟨seq, heads, leaves.toList⟩

/-- The refusals that are answered `409`; the client reads each of them as a stale seq. -/
def ServerError.isConflict : ServerError → Bool
  | .assertionStale _ _ => true
  | .drawdownActive => true
  | .chainBroken _ => true
  | _ => false

/-- Put the proposal as a signed manifest. -/
def commitFrontier (P : Platform) (key : Keypair) (fault : Option PersistError) (s : SyncServer)
    (proposal : Proposal) : SyncServer × Except SyncError Unit :=
  let did := deriveId P.crypto key.verifyingKey
  let leaves := proposal.leaves.map fun x => ManifestLeaf.mk x.1 x.2
  let manifest := buildManifestWithHeads P.crypto leaves did key proposal.seq proposal.heads
  match opPutManifest P.crypto s.slot fault did key.publicKeyHex (some manifest) with
  | (slot, .ok _) => ({ s with slot := slot }, .ok ())
  | (slot, .error e) =>
      ({ s with slot := slot },
        .error (if e.isConflict then .staleSeq proposal.seq else .refused e))

/-- How often a stale commit is tried again. -/
def maxCommitRetries : Nat := 3

/-- The commit loop, with the retries that are left; returns the seq it committed at. -/
def commitLoop (P : Platform) (key : Keypair) (fault : Option PersistError) (b : Pending) :
    Nat → SyncServer → SyncServer × Except SyncError Nat
  | retriesLeft, s =>
      match proposeCommit P key.verifyingKey b s s.frontier with
      | .error e => (s, .error e)
      | .ok proposal =>
          match commitFrontier P key fault s proposal with
          | (s, .ok ()) => (s, .ok proposal.seq)
          | (s, .error (.staleSeq attempted)) =>
              match retriesLeft with
              | 0 => (s, .error (.staleSeq attempted))
              | n + 1 => commitLoop P key fault b n s
          | (s, .error e) => (s, .error e)

/-- What a frontier backup did. -/
structure FrontierReport where
  pushed : PushedTree
  manifestSeq : Nat
  deviceHeadCid : String

/-- Publish the device's tree as its head and commit the frontier. -/
def backupFrontier (P : Platform) (key : Keypair) (refuse : String → Option ServerError)
    (fault : Option PersistError) (deviceId : String) (d : Device) (s : SyncServer) :
    Device × SyncServer × Except SyncError FrontierReport :=
  match pushTree P refuse d s with
  | (d, s, .error e) => (d, s, .error e)
  | (d, s, .ok pushed) =>
      let head := DeviceHead.newSigned deviceId (d.counter + 1) pushed.fsManifestCid d.lastHead
        d.base key
      match head.encode P.codec with
      | .error e => (d, s, .error e)
      | .ok headBytes =>
          let headCid := P.crypto.sha256Hex headBytes
          match s.put P (refuse headCid) headCid headBytes with
          | (s, .error e) => (d, s, .error e)
          | (s, .ok ()) =>
              let b : Pending := ⟨deviceId, pushed.needed, headCid, headBytes.length⟩
              match commitLoop P key fault b maxCommitRetries s with
              | (s, .error e) => (d, s, .error e)
              | (s, .ok seq) =>
                  ({ d with counter := d.counter + 1, lastHead := some headCid }, s,
                    .ok ⟨pushed, seq, headCid⟩)

/-! ## What a put does to the slot -/

section

variable {P : Platform} {key : Keypair} {fault : Option PersistError} {s s' : SyncServer}
  {b : Pending} {proposal : Proposal} {r : Except SyncError Unit}

/-- **What a commit can do.**  It is refused and changes nothing, or the slot holds the proposal,
at a seq that is strictly newer. -/
lemma commitFrontier_cases (h : commitFrontier P key fault s proposal = (s', r)) :
    (s' = s ∧ ∃ e, r = .error e) ∨
      ∃ m, s' = { s with slot := { s.slot with manifest := some m } } ∧ r = .ok () ∧
        m.seq = proposal.seq ∧ m.heads = some proposal.heads ∧
        (∀ x, x ∈ m.leaves ↔ (x.cid, x.size) ∈ proposal.leaves) ∧
        ∀ old, s.slot.manifest = some old → old.seq < proposal.seq := by
  unfold commitFrontier at h
  dsimp only at h
  rcases hp : opPutManifest P.crypto s.slot fault (deriveId P.crypto key.verifyingKey)
      key.publicKeyHex (some (buildManifestWithHeads P.crypto
        (proposal.leaves.map fun x => ManifestLeaf.mk x.1 x.2)
        (deriveId P.crypto key.verifyingKey) key proposal.seq proposal.heads)) with ⟨slot, res⟩
  rw [hp] at h
  rcases opPutManifest_cases hp with ⟨rfl, e, rfl⟩ | ⟨m, _, hm, -, -, -, -, hseq, rfl, rfl⟩
  · simp only [Prod.mk.injEq] at h
    exact Or.inl ⟨h.1.symm, _, h.2.symm⟩
  · simp only [Prod.mk.injEq] at h
    obtain ⟨rfl, rfl⟩ := h
    obtain rfl := Option.some.inj hm
    refine Or.inr ⟨_, rfl, rfl, rfl, rfl, ?_, hseq⟩
    intro x
    obtain ⟨cid, size⟩ := x
    simp [buildManifestWithHeads, Manifest.buildSigned, sortLeaves]

lemma commitFrontier_error {e : SyncError}
    (h : commitFrontier P key fault s proposal = (s', .error e)) : s' = s := by
  rcases commitFrontier_cases h with ⟨hs, -⟩ | ⟨m, -, hr, -⟩
  · exact hs
  · simp at hr

/-- The seq and the heads map of a proposal, from the read it is made of. -/
lemma proposeCommit_seq_heads {verifier : VerifyingKey} {frontier : Option FrontierView}
    (h : proposeCommit P verifier b s frontier = .ok proposal) :
    proposal.seq = frontier.elim 0 FrontierView.seq + 1 ∧
      proposal.heads = (frontier.elim ∅ FrontierView.heads).insert b.deviceId b.headCid := by
  unfold proposeCommit at h
  obtain ⟨leaves, -, h⟩ := bind_eq_ok.mp h
  obtain rfl := Except.ok.inj h
  refine ⟨?_, rfl⟩
  cases frontier <;> rfl

end

end Ciss
