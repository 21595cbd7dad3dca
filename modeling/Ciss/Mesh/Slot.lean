import Ciss.Sync.HeadChain
import Ciss.Sync.Closure

/-!
# The serverless frontier

On the mesh there is no server: every device keeps a slot of its own, tells the others about its
head by a gossip announcement, and takes of the announcements it hears the newest of each device.

`SlotState` is the slot, `mergeAnnouncement` the rule for what is heard, and `meshTransport` the
mesh as the transport of `backup_frontier`: the slot is written first, then the announcement is
built from the head's own bytes, recorded, and broadcast.  An announcement that was recorded is
broadcast again whenever a neighbor comes up.

Blobs are kept by their addresses; how a peer finds them under their second hash is in
`Ciss.Mesh.Peer`.  A `get` finds what the device holds, or what a provider serves.
-/

namespace Ciss

/-! ## Announcements -/

/-- The self-tag every announcement carries. -/
def announceKind : String := "croft.sync-announce/v1"

/-- One device's head, as it is broadcast. -/
structure Announcement where
  kind : String
  deviceId : String
  counter : Nat
  headSha256 : String
  headBlake3 : String
  fsRootSha256 : String
  fsRootBlake3 : String
  addr : String
  deriving DecidableEq, Repr

/-- The device's committed state, and what gossip taught it. -/
structure SlotState where
  seq : Option Nat
  leaves : List (String × Nat)
  ownHead : Option (String × String)
  /-- `device_id → (counter, head_cid)` from announcements. -/
  remote : Std.ExtTreeMap String (Nat × String) compare

/-- The slot of a peer that has just been spawned. -/
def SlotState.default : SlotState := ⟨none, [], none, ∅⟩

/-- Merge one announcement into the slot: the newest counter wins, per device. -/
def mergeAnnouncement (slot : SlotState) (deviceId : String) (counter : Nat) (headCid : String) :
    SlotState × Bool :=
  let merged := { slot with remote := slot.remote.insert deviceId (counter, headCid) }
  match slot.remote[deviceId]? with
  | some (held, _) => if counter ≤ held then (slot, false) else (merged, true)
  | none => (merged, true)

/-- What the receive loop does to the slot with an announcement; one of another kind is ignored. -/
def receive (slot : SlotState) (ann : Announcement) : SlotState :=
  if ann.kind ≠ announceKind then slot
  else (mergeAnnouncement slot ann.deviceId ann.counter ann.headSha256).1

/-- What it does with one announcement after the other. -/
def receiveAll (slot : SlotState) (anns : List Announcement) : SlotState := anns.foldl receive slot

/-! ## The slot as a frontier -/

namespace SlotState

/-- The own head and the announced heads. -/
def frontier (slot : SlotState) : Option FrontierView :=
  if slot.seq.isNone && slot.remote.isEmpty then none
  else
    let heads : HeadCids := slot.remote.map fun _ x => x.2
    let heads := match slot.ownHead with
      | some (device, cid) => heads.insert device cid
      | none => heads
    some ⟨slot.seq.getD 0, heads, slot.leaves⟩

/-- The first half of `commit_frontier`: take the proposal, unless it is stale. -/
def take (slot : SlotState) (deviceId : String) (proposal : Proposal) :
    Except SyncError (SlotState × String) :=
  match proposal.heads[deviceId]? with
  | none => .error (.transport (String.join
      ["frontier commit without a head for this device (", deviceId, ")"]))
  | some ownHead =>
      if slot.seq.any (proposal.seq ≤ ·) then .error (.staleSeq proposal.seq)
      else .ok ({ slot with
        seq := some proposal.seq
        leaves := proposal.leaves
        ownHead := some (deviceId, ownHead) }, ownHead)

end SlotState

/-! ## The mesh as a transport -/

/-- A device on the mesh: what its store holds, its slot, the last announcement it recorded, and
the announcements it has broadcast, oldest first. -/
structure MeshNode where
  blobs : ByCid Bytes
  slot : SlotState
  lastAnnounce : Option Announcement
  sent : List Announcement

/-- What surrounds one backup on the mesh. -/
structure MeshEnv where
  push : PushEnv
  /-- The store does not take the head. -/
  headFault : Option String
  /-- What the providers serve. -/
  peers : ByCid Bytes
  /-- The announcements that come in between the read of a round and its commit. -/
  arrived : Nat → List Announcement
  /-- The second hashes that the device knows of blobs it does not hold. -/
  index : String → Option String
  addr : String
  /-- The store fails while the announcement is built. -/
  unreadable : Option String
  /-- The broadcast fails. -/
  unsent : Option String

namespace MeshNode

/-- What a `get` finds, as a server without a slot. -/
def reach (node : MeshNode) (env : MeshEnv) : SyncServer :=
  ⟨env.peers ∪ node.blobs, ⟨.active, none⟩⟩

/-- The store as the far end of a push. -/
def wire (node : MeshNode) : Wire := ⟨⟨node.blobs, ⟨.active, none⟩⟩, []⟩

/-- A push into the store: what the device holds is known, and nothing is billed. -/
def pushEnv (node : MeshNode) (env : MeshEnv) : PushEnv :=
  { env.push with haveSet := node.blobs.contains, metered := false }

/-- Store bytes under their address. -/
def put (P : Platform) (fault : Option String) (cid : String) (bytes : Bytes) (node : MeshNode) :
    MeshNode × Except SyncError Unit :=
  match verifyServerCid cid (P.crypto.sha256Hex bytes), fault with
  | .error e, _ => (node, .error e)
  | .ok (), some text => (node, .error (.transport text))
  | .ok (), none => ({ node with blobs := node.blobs.insert cid bytes }, .ok ())

end MeshNode

/-- The second hash of an address; it is known of every blob that the device holds. -/
def aliasOf (P : Platform) (env : MeshEnv) (node : MeshNode) (cid : String) :
    Except SyncError String :=
  match (node.blobs[cid]?.map P.blake3Hex).or (env.index cid) with
  | some blake3 => .ok blake3
  | none => .error (.transport (String.join ["no blake3 alias for ", cid, " at announce time"]))

/-- The announcement of a committed head, its counter and tree read from the head's own bytes. -/
def announcementFor (P : Platform) (verifier : VerifyingKey) (env : MeshEnv) (deviceId : String)
    (node : MeshNode) (headCid : String) : Except SyncError Announcement :=
  match env.unreadable with
  | some text => .error (.transport text)
  | none => do
      let headBytes ← (node.reach env).get P headCid
      let head ← DeviceHead.decodeVerified P.crypto P.codec headBytes verifier
      let headBlake3 ← aliasOf P env node headCid
      let fsRootBlake3 ← aliasOf P env node head.fsRoot
      return ⟨announceKind, deviceId, head.counter, headCid, headBlake3, head.fsRoot, fsRootBlake3,
        env.addr⟩

/-- `MeshPeer`. -/
def meshTransport (P : Platform) (key : Keypair) (deviceId : String) (env : MeshEnv) :
    FrontierTransport MeshNode where
  key := key
  push d node :=
    match pushOver P (node.pushEnv env) true d node.wire with
    | (d, w, r) => (d, { node with blobs := w.server.blobs }, r)
  put cid bytes node := node.put P env.headFault cid bytes
  propose _ b node := proposeCommit P key.verifyingKey b (node.reach env) node.slot.frontier
  commit n proposal node :=
    let node := { node with slot := receiveAll node.slot (env.arrived n) }
    match node.slot.take deviceId proposal with
    | .error e => (node, false, .error e)
    | .ok (slot, ownHead) =>
        let node := { node with slot := slot }
        -- the commit has not landed for the mesh until it is broadcast
        match announcementFor P key.verifyingKey env deviceId node ownHead with
        | .error e => (node, true, .error e)
        | .ok ann =>
            let node := { node with lastAnnounce := some ann }
            match env.unsent with
            | some text => (node, true, .error (.transport text))
            | none => ({ node with sent := node.sent ++ [ann] }, true, .ok ())

/-! ## What is committed is announced -/

/-- What the key signs verifies. -/
def Keypair.Verifies (C : Crypto) (k : Keypair) : Prop :=
  ∀ message, verifyMessage C k.verifyingKey message (k.signMessage message) = true

/-- The announcement of a committed head is built and broadcast. -/
structure MeshEnv.Announces (env : MeshEnv) : Prop where
  readable : env.unreadable = none
  sent : env.unsent = none

section

variable {P : Platform} {key : Keypair} {deviceId : String} {env : MeshEnv} {node node' : MeshNode}
  {headBytes : Bytes} {head : DeviceHead} {headCid : String} {ann : Announcement}

lemma meshTransport_keepsChain : (meshTransport P key deviceId env).KeepsChain :=
  fun d node => pushOver_chain P (node.pushEnv env) true d node.wire

/-- A head that the account key signed is read back and verifies. -/
lemma decodeVerified_of_encode (hP : P.Lawful) (hkey : key.Verifies P.crypto) {counter : Nat}
    {fsRoot : String} {parent base : Option String}
    (h : (DeviceHead.newSigned deviceId counter fsRoot parent base key).encode P.codec =
      .ok headBytes) :
    DeviceHead.decodeVerified P.crypto P.codec headBytes key.verifyingKey =
      .ok (DeviceHead.newSigned deviceId counter fsRoot parent base key) := by
  have hdec := hP.decode_encodeHead _ _ (mapError_eq_ok.mp h)
  have hsig := hkey (DeviceHead.preimage deviceId counter fsRoot parent base)
  unfold DeviceHead.decodeVerified
  rw [hdec]
  simp [DeviceHead.newSigned, hsig, bind, Except.bind, pure, Except.pure]

lemma MeshNode.put_eq_ok (h : node.put P env.headFault headCid headBytes = (node', .ok ())) :
    P.crypto.sha256Hex headBytes = headCid ∧
      node' = { node with blobs := node.blobs.insert headCid headBytes } := by
  unfold MeshNode.put at h
  rcases hv : verifyServerCid headCid (P.crypto.sha256Hex headBytes) with e | u
  · rw [hv] at h
    simp at h
  · rw [hv] at h
    rcases hf : env.headFault with _ | text
    · rw [hf] at h
      simp only [Prod.mk.injEq] at h
      exact ⟨(verifyServerCid_eq_ok hv).symm, h.1.symm⟩
    · rw [hf] at h
      simp at h

/-- What was pushed is in the store. -/
lemma meshTransport_push_root {d d' : Device} {pushed : PushedTree}
    (h : (meshTransport P key deviceId env).push d node = (d', node', .ok pushed)) :
    pushed.fsManifestCid ∈ node'.blobs := by
  dsimp only [meshTransport] at h
  rcases hp : pushOver P (node.pushEnv env) true d node.wire with ⟨d₁, w, r⟩
  rw [hp] at h
  obtain ⟨rfl, rfl, rfl⟩ : _ ∧ _ ∧ _ := by simpa using h
  obtain ⟨bytes, -, -, hneeded, hgrows, -, hstored⟩ := pushOver_stored hp
  rcases hhave : node.blobs.contains pushed.fsManifestCid with _ | _
  · exact hstored (pushed.fsManifestCid, bytes.length) (by simp [hneeded]) hhave
  · exact hgrows.mem_blobs (Std.ExtTreeMap.mem_iff_contains.mpr hhave)

/-- The device's own store is asked first. -/
lemma MeshNode.reach_get (h : node.blobs[headCid]? = some headBytes)
    (hsha : P.crypto.sha256Hex headBytes = headCid) :
    (node.reach env).get P headCid = .ok headBytes := by
  have hblob : (node.reach env).blobs[headCid]? = some headBytes := by
    change (env.peers ∪ node.blobs)[headCid]? = _
    rw [Std.ExtTreeMap.getElem?_union, h]
    rfl
  simp [SyncServer.get, hblob, verifyContent, verifyServerCid, hsha, bind, Except.bind, pure,
    Except.pure]

/-- The second hash of what the device holds is known. -/
lemma aliasOf_of_mem (P : Platform) (env : MeshEnv) {cid : String} (h : cid ∈ node.blobs) :
    ∃ blake3, aliasOf P env node cid = .ok blake3 := by
  rw [Std.ExtTreeMap.mem_iff_isSome_getElem?] at h
  obtain ⟨bytes, hb⟩ := Option.isSome_iff_exists.mp h
  exact ⟨P.blake3Hex bytes, by simp [aliasOf, hb]⟩

lemma announcementFor_isOk (ha : env.Announces) (h : node.blobs[headCid]? = some headBytes)
    (hsha : P.crypto.sha256Hex headBytes = headCid)
    (hdec : DeviceHead.decodeVerified P.crypto P.codec headBytes key.verifyingKey = .ok head)
    (hroot : head.fsRoot ∈ node.blobs) :
    ∃ ann, announcementFor P key.verifyingKey env deviceId node headCid = .ok ann := by
  have hmem : headCid ∈ node.blobs := by
    rw [Std.ExtTreeMap.mem_iff_isSome_getElem?, h]
    rfl
  obtain ⟨headBlake3, hhead⟩ := aliasOf_of_mem P env hmem
  obtain ⟨fsRootBlake3, hfsRoot⟩ := aliasOf_of_mem P env hroot
  refine ⟨⟨announceKind, deviceId, head.counter, headCid, headBlake3, head.fsRoot, fsRootBlake3,
    env.addr⟩, ?_⟩
  simp only [announcementFor, ha.readable, MeshNode.reach_get h hsha, hdec, hhead, hfsRoot, bind,
    Except.bind, pure, Except.pure]

/-- Only what the device holds matters to its announcement. -/
lemma announcementFor_congr {verifier : VerifyingKey} (h : node.blobs = node'.blobs) :
    announcementFor P verifier env deviceId node headCid =
      announcementFor P verifier env deviceId node' headCid := by
  simp only [announcementFor, MeshNode.reach, aliasOf, h]

/-- **What a commit can do** when the proposal names a head of the device: the slot refuses it; or
takes it, and the announcement cannot be built, or is recorded, and is sent or not. -/
lemma meshTransport_commit_cases {n : Nat} {proposal : Proposal} {taken : Bool}
    {r : Except SyncError Unit} (hown : proposal.heads[deviceId]? = some headCid)
    (h : (meshTransport P key deviceId env).commit n proposal node = (node', taken, r)) :
    node'.blobs = node.blobs ∧
      ((taken = false ∧ r = .error (.staleSeq proposal.seq) ∧
          node'.lastAnnounce = node.lastAnnounce ∧ node'.sent = node.sent) ∨
        taken = true ∧
          ((∃ e, announcementFor P key.verifyingKey env deviceId node headCid = .error e ∧
              r = .error e ∧ node'.lastAnnounce = node.lastAnnounce ∧ node'.sent = node.sent) ∨
            ∃ ann, announcementFor P key.verifyingKey env deviceId node headCid = .ok ann ∧
              node'.lastAnnounce = some ann ∧
              ((∃ text, env.unsent = some text ∧ r = .error (.transport text) ∧
                  node'.sent = node.sent) ∨
                (env.unsent = none ∧ r = .ok () ∧ node'.sent = node.sent ++ [ann])))) := by
  dsimp only [meshTransport] at h
  rcases htake : (receiveAll node.slot (env.arrived n)).take deviceId proposal with e | ⟨slot, own⟩
  · rw [htake] at h
    obtain ⟨rfl, rfl, rfl⟩ : _ ∧ _ ∧ _ := by simpa using h
    unfold SlotState.take at htake
    rw [hown] at htake
    dsimp only at htake
    split at htake
    · obtain rfl := Except.error.inj htake
      exact ⟨rfl, Or.inl ⟨rfl, rfl, rfl, rfl⟩⟩
    · simp at htake
  · rw [htake] at h
    obtain rfl : own = headCid := by
      unfold SlotState.take at htake
      rw [hown] at htake
      dsimp only at htake
      split at htake
      · simp at htake
      · exact (congrArg Prod.snd (Except.ok.inj htake)).symm
    dsimp only at h
    have hsame : announcementFor P key.verifyingKey env deviceId { node with slot := slot } own =
        announcementFor P key.verifyingKey env deviceId node own := announcementFor_congr rfl
    rw [hsame] at h
    rcases hann : announcementFor P key.verifyingKey env deviceId node own with e | ann
    · rw [hann] at h
      obtain ⟨rfl, rfl, rfl⟩ : _ ∧ _ ∧ _ := by simpa using h
      exact ⟨rfl, Or.inr ⟨rfl, Or.inl ⟨e, rfl, rfl, rfl, rfl⟩⟩⟩
    · rw [hann] at h
      dsimp only at h
      rcases hsent : env.unsent with _ | text
      · rw [hsent] at h
        obtain ⟨rfl, rfl, rfl⟩ : _ ∧ _ ∧ _ := by simpa using h
        exact ⟨rfl, Or.inr ⟨rfl, Or.inr ⟨ann, rfl, rfl, Or.inr ⟨rfl, rfl, rfl⟩⟩⟩⟩
      · rw [hsent] at h
        obtain ⟨rfl, rfl, rfl⟩ : _ ∧ _ ∧ _ := by simpa using h
        exact ⟨rfl, Or.inr ⟨rfl, Or.inr ⟨ann, rfl, rfl, Or.inl ⟨text, rfl, rfl, rfl⟩⟩⟩⟩

/-- On the mesh a commit is reported to have succeeded exactly when the slot took it, if its
announcement is built and broadcast. -/
lemma meshTransport_answers (hP : P.Lawful) (hkey : key.Verifies P.crypto) (ha : env.Announces) :
    (meshTransport P key deviceId env).Answers P deviceId := by
  intro d₀ d pushed headBytes node₀ node node' hpush hencode hput
  have hroot := meshTransport_push_root hpush
  obtain ⟨-, rfl⟩ := MeshNode.put_eq_ok hput
  have hdec := decodeVerified_of_encode hP hkey hencode
  refine commitRounds_answers (fun node => node.blobs[P.crypto.sha256Hex headBytes]? =
    some headBytes ∧ pushed.fsManifestCid ∈ node.blobs) ?_ ⟨by simp, by simp [hroot]⟩
  intro n proposal node hready hprop
  have hown : proposal.heads[deviceId]? = some (P.crypto.sha256Hex headBytes) := by
    rw [(proposeCommit_seq_heads hprop).2]
    simp
  obtain ⟨ann, hann⟩ : ∃ ann, announcementFor P key.verifyingKey env deviceId node
      (P.crypto.sha256Hex headBytes) = .ok ann := announcementFor_isOk ha hready.1 rfl hdec hready.2
  rcases hc : (meshTransport P key deviceId env).commit n proposal node with ⟨node', taken, r⟩
  obtain ⟨hblobs, ⟨rfl, rfl, -⟩ | ⟨rfl, ⟨e, he, -⟩ | ⟨_, -, -, ⟨text, htext, -⟩ | ⟨-, rfl, -⟩⟩⟩⟩ :=
    meshTransport_commit_cases hown hc
  · exact ⟨by simp, hblobs ▸ hready⟩
  · rw [hann] at he
    simp at he
  · rw [ha.sent] at htext
    simp at htext
  · exact ⟨by simp, hblobs ▸ hready⟩

end

end Ciss
