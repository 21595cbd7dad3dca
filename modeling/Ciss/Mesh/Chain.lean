import Ciss.Mesh.Slot
import Ciss.Sync.KeepSet

/-!
# The chain of heads over the server and over the mesh

`backup_frontier` writes its counter and its last head after the commit has been reported to it.
`head_chain_linked` says that the heads that a device gets accepted are a chain, over the server
and over the mesh, when every accepted commit is reported and both writes succeed.

The mesh breaks that off by itself: `commit_frontier` takes the proposal into the slot before it
broadcasts, so a broadcast that fails leaves an accepted head behind that the device does not
remember (`forked_after_failed_broadcast`).
-/

namespace Ciss

/-- The server's answers arrive, and the records of the chain are written. -/
def Reported (_ : ChainWorld Wire) : HeadAction Wire HttpEnv → Prop
  | .backup env writes => (∀ n, env.lost n = none) ∧ writes = .done
  | _ => True

/-- What is committed is announced, and the records of the chain are written. -/
def Announced (_ : ChainWorld MeshNode) : HeadAction MeshNode MeshEnv → Prop
  | .backup env writes => env.Announces ∧ writes = .done
  | _ => True

section

variable {P : Platform} {key : Keypair}

lemma Reported.answered {deviceId : String} {w : ChainWorld Wire} {a : HeadAction Wire HttpEnv}
    (h : Reported w a) : BackupAnswered P (httpTransport P key) deviceId w a := by
  rcases a with f | d | ⟨env, writes⟩
  · trivial
  · trivial
  · exact ⟨httpTransport_answers h.1 deviceId, h.2⟩

lemma Announced.answered (hP : P.Lawful) (hkey : key.Verifies P.crypto) {deviceId : String}
    {w : ChainWorld MeshNode} {a : HeadAction MeshNode MeshEnv} (h : Announced w a) :
    BackupAnswered P (meshTransport P key deviceId) deviceId w a := by
  rcases a with f | d | ⟨env, writes⟩
  · trivial
  · trivial
  · exact ⟨meshTransport_answers hP hkey h.1, h.2⟩

/-- **The heads of a device are a chain.**  From any directory and any state of the transport,
whatever others do in between: over the server, in every run in which the answer to every accepted
commit arrives, and over the mesh, in every run in which what is committed is announced, and both
with the records written, the accepted heads carry increasing counters and each names the one
before it. -/
theorem head_chain_linked (hP : P.Lawful) (hkey : key.Verifies P.crypto) (deviceId : String)
    (d : Device) :
    (∀ (w : Wire) (acts : List (HeadAction Wire HttpEnv)),
      Along (ChainWorld.step P (httpTransport P key) deviceId) Reported (ChainWorld.init d w) acts →
      Linked DeviceHead.counter DeviceHead.parent
        (run (ChainWorld.step P (httpTransport P key) deviceId) (ChainWorld.init d w)
          acts).accepted) ∧
    ∀ (node : MeshNode) (acts : List (HeadAction MeshNode MeshEnv)),
      Along (ChainWorld.step P (meshTransport P key deviceId) deviceId) Announced
        (ChainWorld.init d node) acts →
      Linked DeviceHead.counter DeviceHead.parent
        (run (ChainWorld.step P (meshTransport P key deviceId) deviceId) (ChainWorld.init d node)
          acts).accepted := by
  constructor
  · intro w acts h
    exact head_chain_of_answered (fun _ => httpTransport_keepsChain)
      (h.mono fun _ _ ha => ha.answered)
  · intro node acts h
    exact head_chain_of_answered (fun _ => meshTransport_keepsChain)
      (h.mono fun _ _ ha => ha.answered hP hkey)

end

/-! ### A broadcast that fails

`dev-b` backs up the file `f`, removes it, adds the file `g`, and backs up again.  The digests and
signatures are real. -/

namespace Gossip

open TwoDevices (treeF treeG fileOneCid fileTwoCid treeFCid treeGCid headB1 headB1Cid publicKey
  fresh)

/-- The first head of `dev-b` with the tree of `g`. -/
def headG1 : DeviceHead :=
  ⟨deviceHeadKind, "dev-b", 1, treeGCid, none, none,
    String.join ["78c838bab64fd009349b3a0dc4af00b375d32f2b3912cefeeb719e9eeefe35f9",
      "c7645b84d729c91193b5275e105d05a6409bc5ac5d380c82919ecd70432ca503"]⟩

def headG1Cid : String :=
  "5c5f538199e68b9da0fb897818066fda6656143f92149625b4431b5ac526fe5a"

/-- Its second head, after the head of `f`. -/
def headG2 : DeviceHead :=
  ⟨deviceHeadKind, "dev-b", 2, treeGCid, some headB1Cid, none,
    String.join ["7ba4ee2c8ca0b7e806efa2ab5cc96cbaa929f5cc6d001e21728b8b92bf2ef115",
      "ddcaca0e07334b39cfdb39116d4e692357862e15dbfb4eb70eae9550a2e24c0b"]⟩

def headG2Cid : String :=
  "ce0fc4c3e4f9c328beb2a7e4487cfbe9f129031df477ecae69ea2d142a0f2474"

/-- The signatures of the three heads; every other one is a stand-in of the same length. -/
def sign (message : Bytes) : Bytes :=
  if message = asBytes (DeviceHead.preimage "dev-b" 1 treeFCid none none) then
    (hexDecode headB1.signature).getD []
  else if message = asBytes (DeviceHead.preimage "dev-b" 1 treeGCid none none) then
    (hexDecode headG1.signature).getD []
  else if message = asBytes (DeviceHead.preimage "dev-b" 2 treeGCid (some headB1Cid) none) then
    (hexDecode headG2.signature).getD []
  else List.replicate 64 0

def account : Keypair := ⟨⟨publicKey⟩, sign⟩

/-- SHA-256 and BLAKE3 on what the device stores. -/
def digests : List (Bytes × String × String) :=
  [(asBytes "one", fileOneCid, "d33fb48ab5adff269ae172b29a6913ff04f6f266207a7a8e976f2ecd571d4492"),
    (asBytes "two", fileTwoCid, "dc770fff53f50835f8cc957e01c0d5731d3c2ed544c375493a28c09be5e09763"),
    (treeF.toCbor, treeFCid, "2cfea7ba31bf08a79794e7473a3992212b0e502462c19b8056337134b07eb543"),
    (treeG.toCbor, treeGCid, "65d37c390236f7eab270f627e30be3c344e5c8d40bb34b0551b31272d9575358"),
    (headB1.toCbor, headB1Cid, "79f4fdf3a0b593a90593d805faff325bcb2224f6cac90877f7bd2227437ef529"),
    (headG1.toCbor, headG1Cid, "bda394c951a02a1d29056352b5a8eed968cc300a4202c8d2d78b7f9f6f7132d0"),
    (headG2.toCbor, headG2Cid, "170a472ac1c15fea4b1feba61a8afb01563a7419812763c8589facf3104615de")]

def platform : Platform where
  crypto :=
    { sha256Hex := tabulatedHash (digests.map fun x => (x.1, x.2.1))
      isPublicKey := fun b => b = publicKey
      verifyStrict := fun k message signature =>
        k.toBytes = publicKey && sign message = signature }
  codec := dagCbor [treeF, treeG] [headB1, headG1, headG2]
  cut b := [b]
  blake3Hex := tabulatedHash (digests.map fun x => (x.1, x.2.2))

/-- A directory with `f`, and one with `g`. -/
def holdsF : Device := fresh [("f", ⟨420, 1, 0, asBytes "one"⟩)]

def holdsG : Device := fresh [("g", ⟨420, 1, 0, asBytes "two"⟩)]

/-- A peer that has just been spawned. -/
def spawned : MeshNode := ⟨∅, .default, none, []⟩

/-- Nobody else is there and nothing fails, the broadcast apart. -/
def env (files : LocalFiles) (unsent : Option String) : MeshEnv where
  push := ⟨fun _ => false, onDisk files, fun _ _ => none, false⟩
  headFault := none
  peers := ∅
  arrived _ := []
  index _ := none
  addr := "dev-b"
  unreadable := none
  unsent := unsent

/-- What a failed broadcast reports. -/
def broadcastError : String := "iroh announce broadcast: closed"

/-- Back up `f`, put `g` in its place, and back up again. -/
def script (unsent : Option String) : List (HeadAction MeshNode MeshEnv) :=
  [.backup (env holdsF.files unsent) .done, .edit holdsG, .backup (env holdsG.files none) .done]

/-- The device after the script. -/
def after (unsent : Option String) : ChainWorld MeshNode :=
  run (ChainWorld.step platform (meshTransport platform account "dev-b") "dev-b")
    (ChainWorld.init holdsF spawned) (script unsent)

lemma lawful : platform.Lawful where
  sha256Hex_injective := tabulatedHash_injective
    (distinctDigests_of_take 4 (by decide +kernel) (by decide +kernel))
  decode_encodeManifest _ _ h := decodeAmong_encodeAmong h
  decode_encodeHead _ _ h := decodeAmong_encodeAmong h

lemma sign_length (message : Bytes) : (sign message).length = 64 := by
  unfold sign
  split
  · decide +kernel
  · split
    · decide +kernel
    · split
      · decide +kernel
      · simp

lemma verifies : account.Verifies platform.crypto := by
  intro message
  have hlen := sign_length (asBytes message)
  simp [verifyMessage, Keypair.signMessage, account, platform, hexDecode_hexEncode, hlen]

lemma announces (files : LocalFiles) : (env files none).Announces := ⟨rfl, rfl⟩

lemma announced : Along (ChainWorld.step platform (meshTransport platform account "dev-b") "dev-b")
    Announced (ChainWorld.init holdsF spawned) (script none) :=
  ⟨⟨announces _, rfl⟩, trivial, ⟨announces _, rfl⟩, trivial⟩

/-- The heads that the slot took: with both broadcasts sent, and with the first one failing. -/
lemma accepted_heads :
    (after none).accepted = [(headB1Cid, headB1), (headG2Cid, headG2)] ∧
      (after (some broadcastError)).accepted = [(headB1Cid, headB1), (headG1Cid, headG1)] := by
  decide +kernel

end Gossip

/-! ### Two backups over the server

`dev-b` backs up the file `f` twice, as in the run of `TwoDevices`. -/

namespace Reporting

open TwoDevices (headB1 headB2 headB1Cid headB2Cid publicKey)

/-- The signatures of that run; every other one is a stand-in of the same length. -/
def sign (message : Bytes) : Bytes :=
  if (TwoDevices.sign message).length = 64 then TwoDevices.sign message else List.replicate 64 0

def account : Keypair := ⟨⟨publicKey⟩, sign⟩

def platform : Platform :=
  { TwoDevices.platform with
    crypto :=
      { TwoDevices.platform.crypto with
        verifyStrict := fun k message signature =>
          k.toBytes = publicKey && sign message = signature } }

lemma lawful : platform.Lawful where
  sha256Hex_injective := TwoDevices.lawful.sha256Hex_injective
  decode_encodeManifest := TwoDevices.lawful.decode_encodeManifest
  decode_encodeHead := TwoDevices.lawful.decode_encodeHead

lemma sign_length (message : Bytes) : (sign message).length = 64 := by
  unfold sign
  split
  · assumption
  · simp

lemma verifies : account.Verifies platform.crypto := by
  intro message
  have hlen := sign_length (asBytes message)
  simp [verifyMessage, Keypair.signMessage, account, platform, hexDecode_hexEncode, hlen]

/-- A server that answers, and refuses nothing. -/
def env : HttpEnv :=
  .quiet ⟨fun _ => false, onDisk Gossip.holdsF.files, fun _ _ => none, true⟩ none

/-- Two backups, one after the other. -/
def script : List (HeadAction Wire HttpEnv) := [.backup env .done, .backup env .done]

/-- The account before anything was published. -/
def start : Wire := ⟨TwoDevices.init.server, []⟩

def after : ChainWorld Wire :=
  run (ChainWorld.step platform (httpTransport platform account) "dev-b")
    (ChainWorld.init Gossip.holdsF start) script

lemma reported : Along (ChainWorld.step platform (httpTransport platform account) "dev-b") Reported
    (ChainWorld.init Gossip.holdsF start) script :=
  ⟨⟨fun _ => rfl, rfl⟩, ⟨fun _ => rfl, rfl⟩, trivial⟩

lemma accepted_heads : after.accepted = [(headB1Cid, headB1), (headB2Cid, headB2)] := by
  decide +kernel

end Reporting

/-- Both backups of `dev-b` are announced on the mesh, and both are answered by the server; there
and here the second head names the first. -/
theorem head_chain_linked_announced :
    (Linked DeviceHead.counter DeviceHead.parent (Gossip.after none).accepted ∧
      (Gossip.after none).accepted =
        [(TwoDevices.headB1Cid, TwoDevices.headB1), (Gossip.headG2Cid, Gossip.headG2)]) ∧
    Linked DeviceHead.counter DeviceHead.parent Reporting.after.accepted ∧
      Reporting.after.accepted = [(TwoDevices.headB1Cid, TwoDevices.headB1),
        (TwoDevices.headB2Cid, TwoDevices.headB2)] :=
  ⟨⟨(head_chain_linked Gossip.lawful Gossip.verifies "dev-b" Gossip.holdsF).2 Gossip.spawned
      (Gossip.script none) Gossip.announced, Gossip.accepted_heads.1⟩,
    (head_chain_linked Reporting.lawful Reporting.verifies "dev-b" Gossip.holdsF).1 Reporting.start
      Reporting.script Reporting.reported, Reporting.accepted_heads⟩

/-- **After a failed broadcast the chain forks**: the slot has taken the head of `f` and takes the
head of `g` next, with the same counter and no parent. -/
theorem forked_after_failed_broadcast :
    (Gossip.after (some Gossip.broadcastError)).accepted =
        [(TwoDevices.headB1Cid, TwoDevices.headB1), (Gossip.headG1Cid, Gossip.headG1)] ∧
      ¬ Linked DeviceHead.counter DeviceHead.parent
        (Gossip.after (some Gossip.broadcastError)).accepted := by
  refine ⟨Gossip.accepted_heads.2, ?_⟩
  rw [Gossip.accepted_heads.2]
  intro h
  have hlt := (List.pairwise_cons.mp h.increasing).1 (Gossip.headG1Cid, Gossip.headG1) (by simp)
  exact absurd hlt (by decide)

end Ciss
