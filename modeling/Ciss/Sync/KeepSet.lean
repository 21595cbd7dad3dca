import Ciss.Sync.FoldContent
import Ciss.Sync.World
import Mathlib.Tactic.IntervalCases

/-!
# The keep-set and the heads it must keep

The leaves of a committed manifest are what the provider keeps for the account.  A head that
another device published is listed with its whole closure.  The own head is listed with its tree
and the chunks of that tree; its base is not, and is only kept when it happens to be one of the
blobs that are listed for another reason (`BaseKept`).
-/

namespace Ciss

/-- Every head of the committed heads map resolves, and the committed leaves list its closure:
the head, its tree, the chunks of that tree and its base. -/
def KeepSetCovers (P : Platform) (s : SyncServer) : Prop :=
  ∀ m, s.slot.manifest = some m → ∀ (device headCid : String),
    (m.heads.getD ∅)[device]? = some headCid →
      Resolves P headCid ∧ ∀ cid, InClosure P headCid cid → m.Lists cid

/-- A device that commits has no base, or its base is the tree it is about to publish, a chunk of
that tree, or in the closure of the head of another device. -/
def BaseKept (P : Platform) (w : SyncWorld) (a : SyncAction) : Prop :=
  ∀ (device base : String), a.commits = some device → (w.devices device).base = some base →
    (logicalTree P (w.devices device)).1.contentId P.crypto P.codec = .ok base ∨
    (∃ (path : String) (entry : FileEntry),
      (logicalTree P (w.devices device)).1.entries[path]? = some entry ∧
        ∃ c ∈ entry.chunks, c.sha256 = base) ∨
    ∃ (other headCid : String), other ≠ device ∧ w.server.heads[other]? = some headCid ∧
      InClosure P headCid base

section

variable {P : Platform} {key : Keypair} {w : SyncWorld} {a : SyncAction} {d : Device}
  {s : SyncServer} {deviceId : String} {report : FrontierReport} {m : Manifest}

/-- An accepted commit lists the closure of every head, if the own base is listed. -/
lemma AcceptedBackup.covers (hP : P.Lawful) (h : AcceptedBackup P deviceId d s report m)
    (hbase : ∀ base, d.base = some base → m.Lists base) {device headCid : String}
    (hh : (m.heads.getD ∅)[device]? = some headCid) :
    Resolves P headCid ∧ ∀ cid, InClosure P headCid cid → m.Lists cid := by
  rw [h.heads, Option.getD_some, Std.ExtTreeMap.getElem?_insert] at hh
  split at hh
  · obtain rfl := Option.some.inj hh
    obtain ⟨head, hnamed, hroot, hb⟩ := h.head
    obtain ⟨hown, hmanifest, hchunks⟩ := h.own
    have htree : TreeNamed P head.fsRoot (logicalTree P d).1 := hroot ▸ h.tree
    refine ⟨⟨head, _, hnamed, htree⟩, ?_⟩
    intro cid hcid
    rcases (inClosure_iff hP hnamed htree).mp hcid with rfl | rfl | ⟨path, entry, he, c, hc, rfl⟩ | hc
    · exact hown
    · rwa [hroot]
    · exact hchunks path entry he c hc
    · exact hbase cid (hb ▸ hc)
  · rename_i hne
    rw [compare_eq_iff_eq] at hne
    exact h.others device headCid hh (Ne.symm hne)

/-- A base that is kept is listed by the commit. -/
lemma AcceptedBackup.lists_base (h : AcceptedBackup P deviceId (w.devices deviceId) w.server report m)
    (hcom : a.commits = some deviceId) (hkept : BaseKept P w a) {base : String}
    (hbase : (w.devices deviceId).base = some base) : m.Lists base := by
  obtain ⟨-, hmanifest, hchunks⟩ := h.own
  rcases hkept deviceId base hcom hbase with hcid | ⟨path, entry, he, c, hc, rfl⟩ |
    ⟨other, headCid, hne, hh, hcl⟩
  · rw [h.treeCid] at hcid
    rwa [← Except.ok.inj hcid]
  · exact hchunks path entry he c hc
  · exact (h.others other headCid hh hne).2 base hcl

lemma KeepSetCovers.step (hP : P.Lawful) (h : KeepSetCovers P w.server) (hkept : BaseKept P w a) :
    KeepSetCovers P (SyncWorld.step P key w a).server := by
  intro m hm device headCid hh
  rcases step_slot hP key w a with hslot | ⟨dev, report, m', hcom, hm', hacc⟩
  · rw [hslot] at hm
    exact h m hm device headCid hh
  · rw [hm'] at hm
    obtain rfl := Option.some.inj hm
    exact hacc.covers hP (fun base hbase => hacc.lists_base hcom hkept hbase) hh

/-- **The keep-set covers the closure of every head**, in every run of backups and converges of
any devices in which every committing device's base is kept: none, the published tree or one of
its chunks, or in the closure of another device's head. -/
theorem keep_set_covers_heads (hP : P.Lawful) (key : Keypair)
    (blobs : ByCid Bytes) (mode : AccountMode)
    (devices : String → Device) (acts : List SyncAction)
    (h : Along (SyncWorld.step P key) (BaseKept P) (SyncWorld.init blobs mode devices) acts) :
    KeepSetCovers P (run (SyncWorld.step P key) (SyncWorld.init blobs mode devices) acts).server := by
  have hinit : KeepSetCovers P (SyncWorld.init blobs mode devices).server := by
    intro m hm
    simp [SyncWorld.init] at hm
  exact run_invariant (I := fun w => KeepSetCovers P w.server)
    (fun w a hw hkept => hw.step hP hkept) hinit h

end

/-! ### Two devices

`dev-b` has the file `f` and converges.  `dev-a` adds `g` and converges, so that it has both
files and its base is the tree of both; `dev-b` does not move.  `dev-a` converges once more.

The run is made of the bytes the program would write: DAG-CBOR, SHA-256 and BLAKE3 digests and
Ed25519 signatures under one account key. -/

namespace TwoDevices

/-- `dev-b` has the file `f`, `dev-a` adds the file `g`. -/
def treeF : FsManifest := treeOf [("f", fileOne)]

def treeG : FsManifest := treeOf [("g", fileTwo)]

def treeFG : FsManifest := treeOf [("f", fileOne), ("g", fileTwo)]

/-- The address of the chunk `one`. -/
def fileOneCid : String :=
  "7692c3ad3540bb803c020b3aee66cd8887123234ea0c6e7143c0add73ff431ed"

/-- The address of the chunk `two`. -/
def fileTwoCid : String :=
  "3fc4ccfe745870e2c0d99f71f30ff0656c8dedd41cc1d7d3d376b0dbe685e2f3"

def treeFCid : String :=
  "0f10140581b913bbe63e005da76cfaa8a258be0f373cc0895d04f9c00d2e4be2"

def treeGCid : String :=
  "b8c16eb3805966c2d444decf471ac4bd64f2dbf38cde040c9260a5036fc800a9"

def treeFGCid : String :=
  "c1136a3cf82ac69087ac86ac328a14399518d50cb9ac4d35d1cd7342eb3f7944"

def headB1Cid : String :=
  "9b18c26b8a029b71994ab5956df0ef9a14af21f8a63db63ad3da9e26cdfc9af5"

def headB2Cid : String :=
  "e5c359d73de3f2380f6b86ce4ab6099689650cc5abf2c0c9ae602c6211ebc8d2"

def headA1Cid : String :=
  "efcc30e83583c43eedd9195ecc5c3dde8b96b8275526d639ae165ddb1c1a3cef"

def headA2Cid : String :=
  "9b36c6dfeb8c35d24bcee90dd0947c9b8c0858b4d24b851a5cd97c9558461e25"

def headA3Cid : String :=
  "7b170e6db024dd25640d85c10e4f2a0d494fa460bd4ac1524179274e58bdb90b"

def headA4Cid : String :=
  "322db1afa0f571c24a6eb5b74af32e885265a212fcf805cc41d278fd45bad0e4"

/-- The account's public key. -/
def publicKey : Bytes :=
  (hexDecode "ea4a6c63e29c520abef5507b132ec5f9954776aebebe7b92421eea691446d22c").getD []

/-- What the account key signs in a manifest of this account. -/
def manifestText (seq count bytes : Nat) (root heads : String) : String :=
  String.join ["ciss/v1/manifest:id:",
    "fe812c12f3ab4ce6ac5db69ac352f906cb1b11ef43fb33e252ef7ff552263889", ":", seq.repr, ":",
    count.repr, ":", bytes.repr, ":", root, ":heads=", heads]

/-- The Ed25519 signatures of the run, each in two halves. -/
def signatures : List (String × String × String) :=
  [(DeviceHead.preimage "dev-b" 1 treeFCid none none,
      "f1b3cda622e79ee9a933cbd32a9565317b95fd25c544ce419d866f717d7b657c",
      "dcf667d3d6140ed1c3c1a710bd34e7cc54d8861c1c89ee5130c1d1045715c709"),
    (DeviceHead.preimage "dev-b" 2 treeFCid (some headB1Cid) none,
      "14b659121fab05e3829612dfb18d6ddb4828cceb2984b7d7d87bf47661759b32",
      "a35ed18833a4229f526b3cff7185b198d61e4b47a78c5b20d2995deb0fb5770c"),
    (DeviceHead.preimage "dev-a" 1 treeGCid none none,
      "3ebd081ec232a192941ee428b96336e4459a6563a60fa1d2d16bfc8b90ce169a",
      "d1c5b7d13de160f3812eb8cb9244ac1d9cd00abc186bb0e8757146204337af07"),
    (DeviceHead.preimage "dev-a" 2 treeFGCid (some headA1Cid) none,
      "39eb1cc5b7b80c70ca718ddef8441b24f58896a3b495d535f67a747f1c4eeda1",
      "69ed42cb3456ec27499f337c29d71c81d175d49068e33c203635cf889c1fe00a"),
    (DeviceHead.preimage "dev-a" 3 treeFGCid (some headA2Cid) (some treeFGCid),
      "1eba79493e17046a153620b4eaf636d90a64d3a2a4e031c20ebb360729290e8a",
      "c1ab905fa5c7ce57064c3d14cd0b27cb5657fa1db5491dbd787541f51019000f"),
    (DeviceHead.preimage "dev-a" 4 treeFCid (some headA3Cid) (some treeFGCid),
      "897cd0389ce056927d9589a9608bae813d0e9e9cfd16b60b7cd85c80fb782c72",
      "465d009a8c3548e5ac8b286f2aafb2ff7023022906a5b1f10cd90051b7de7505"),
    (manifestText 1 3 457
        "8c1fe018afb7f5b21cbaefde8cb9d1351bddb691bb55889f41f197a4a8dc142c"
        "4efc79b84efa03f8ef5a51528bb4b0656a8742f414a5e1342ad3b3bf17b18d2e",
      "9b3a212e10a7628a93fe64cfadefdea72b8d010ee6e4075a7f165855a1f2f760",
      "2d8917bf4c7aabf10ffb2221093e898b0535a1e9a143593a9f56f1004e9b3006"),
    (manifestText 2 3 522
        "e9cbcd4faad58fe89df4155ea90e461750900763703b60978da0fb1229ad6cf0"
        "6c1a0315f79deddc8d8ce5bc07038a48eb72d5e043abe12a53ba04d843c68709",
      "aff2155d0f06c730d250995d5937563217ab5c974950c6beaea49705352d7afa",
      "bdac28c9643c6afd785de70453408d23b31c201c0fe546361ee30d5fb75f7905"),
    (manifestText 3 6 979
        "88bd2c84539c4eabf77eaaed636f551531d816195a304675affd0b5b0ea33b02"
        "96c09f5bd7392e3924346dfdc42046bb96cebaeeaf727922a2addb2d33a7d318",
      "3179f3df2a928ecf319027301345bec1d8d75c9b81ec28abf910da26138ede8e",
      "33215f7e7c77212f76e2f4e674d60399200429329bf41b47b7574da728722e07"),
    (manifestText 4 6 1182
        "ab3fd20263e77229690761fe6f27df07d1498e1017c693049a721be6c0c6f5fb"
        "a5d246b905a94a10244917006d74bbda4c2e3638b16b67829ab1188d3132c569",
      "a6d87bcf5f66cb8e685e5dd59da5f415973e1018751d4f5df6cec84dc3ffb911",
      "d944194645426702c24ffb8e4e50bdba00b6a0ffadcdc4e0a8ac762b3a0ce701"),
    (manifestText 5 6 1247
        "214bc067b4e462d45b481d52434ed7aef718dc435360fbbb6cb426ffb841be24"
        "f43f743db8ebfb049a9edc6e285c6ca278f333bed9f28b04c915543b910e4812",
      "bed08ad2d063c8ab80d92dc3396d09405e4cc3ca98b762d8bf74b4dc82de045c",
      "3993c4589fc4adcfffab7304a1b70f377bc549ddf5269339ab2d8944fc766b05"),
    (manifestText 6 4 932
        "8b1765e6209a06b88670d326e766f4922295aa3d7d9d11b5103aa9a141811d9c"
        "45d0a6961cab07e79fd2ab35bfe68fb32d34e68939ec93f5f7a3de707aab85fb",
      "3537bc1c8a82bdc9bb5462a19cfd3077ceaac76602549accaff938b2632f7a7d",
      "f7ddcb3a0409e48781055e8b8cba835e7bbab8cb27598548d5e35c87ce67d204")]

/-- Sign one of the listed messages. -/
def sign (message : Bytes) : Bytes :=
  match signatures.find? fun x => asBytes x.1 = message with
  | some (_, r, s) => (hexDecode r).getD [] ++ (hexDecode s).getD []
  | none => []

def account : Keypair := ⟨⟨publicKey⟩, sign⟩

def headB1 : DeviceHead :=
  ⟨deviceHeadKind, "dev-b", 1, treeFCid, none, none,
    String.join ["f1b3cda622e79ee9a933cbd32a9565317b95fd25c544ce419d866f717d7b657c",
      "dcf667d3d6140ed1c3c1a710bd34e7cc54d8861c1c89ee5130c1d1045715c709"]⟩

def headB2 : DeviceHead :=
  ⟨deviceHeadKind, "dev-b", 2, treeFCid, some headB1Cid, none,
    String.join ["14b659121fab05e3829612dfb18d6ddb4828cceb2984b7d7d87bf47661759b32",
      "a35ed18833a4229f526b3cff7185b198d61e4b47a78c5b20d2995deb0fb5770c"]⟩

def headA1 : DeviceHead :=
  ⟨deviceHeadKind, "dev-a", 1, treeGCid, none, none,
    String.join ["3ebd081ec232a192941ee428b96336e4459a6563a60fa1d2d16bfc8b90ce169a",
      "d1c5b7d13de160f3812eb8cb9244ac1d9cd00abc186bb0e8757146204337af07"]⟩

def headA2 : DeviceHead :=
  ⟨deviceHeadKind, "dev-a", 2, treeFGCid, some headA1Cid, none,
    String.join ["39eb1cc5b7b80c70ca718ddef8441b24f58896a3b495d535f67a747f1c4eeda1",
      "69ed42cb3456ec27499f337c29d71c81d175d49068e33c203635cf889c1fe00a"]⟩

def headA3 : DeviceHead :=
  ⟨deviceHeadKind, "dev-a", 3, treeFGCid, some headA2Cid, some treeFGCid,
    String.join ["1eba79493e17046a153620b4eaf636d90a64d3a2a4e031c20ebb360729290e8a",
      "c1ab905fa5c7ce57064c3d14cd0b27cb5657fa1db5491dbd787541f51019000f"]⟩

def headA4 : DeviceHead :=
  ⟨deviceHeadKind, "dev-a", 4, treeFCid, some headA3Cid, some treeFGCid,
    String.join ["897cd0389ce056927d9589a9608bae813d0e9e9cfd16b60b7cd85c80fb782c72",
      "465d009a8c3548e5ac8b286f2aafb2ff7023022906a5b1f10cd90051b7de7505"]⟩

/-- The SHA-256 digests of the leaf hashes. -/
def leafDigests : List (String × Nat × String) :=
  [(treeFCid, 174, "5f9f46cd9a37f718ea3f4e02c94dc242ce70557270854ec3d971d11b079989fa"),
    (fileOneCid, 3, "d52cb9dc448e244975fa22ae017cea6c01952a9510ccc4abb9d8a31e03262472"),
    (headB1Cid, 280, "fbe781886a49d7c14d72d9e66cd22a40dbd3aa6cc99de2fffde12c85b65b480b"),
    (headB2Cid, 345, "02a4458ab26d59d1737c4afbc9838296007a3985def00561b19c3cde600c186d"),
    (fileTwoCid, 3, "07ff4e8258b90e9896cba7da9c48cd27992bdf39cbffc046448101128500372b"),
    (treeGCid, 174, "7791e62170c97daa8c9c8cc3c4772ac57e31a3652ed4af21280a05447679ca19"),
    (headA1Cid, 280, "69b949eaaf8efa1f3a4832db9a716913d7e070550be28581d24e47ef8b681e10"),
    (headA2Cid, 345, "b9fd33432759b7d36b7be54b9934267b8ab9c0c767ff0dea1ae0fb704e1621b3"),
    (treeFGCid, 312, "4b2e115247a1590c21e969f44c96e82a351068a1c4f3172ca2890c1b712edd86"),
    (headA3Cid, 410, "d1b36f80a34156a789a20302e8e122a28815a427fca5696f43451bb113443ae8"),
    (headA4Cid, 410, "e66efda7008c6c8254d3e20ffcece9a83c0631ca666b0733ed71e1ff54856c6a")]

/-- The SHA-256 digests of the inner nodes: what a level hashes, and the digest. -/
def nodeDigests : List (List String × String) :=
  [(["node:", "5f9f46cd9a37f718ea3f4e02c94dc242ce70557270854ec3d971d11b079989fa", ":",
        "d52cb9dc448e244975fa22ae017cea6c01952a9510ccc4abb9d8a31e03262472"],
      "6425f4238c0ca26a11bcd909140e43f5d8dce861804f615d24ae29aacaf6c8ea"),
    (["node1:", "fbe781886a49d7c14d72d9e66cd22a40dbd3aa6cc99de2fffde12c85b65b480b"],
      "d0b0faac79ef135956af09789437d8826681cc39b2d498f2cd47571cbeca727c"),
    (["node:", "6425f4238c0ca26a11bcd909140e43f5d8dce861804f615d24ae29aacaf6c8ea", ":",
        "d0b0faac79ef135956af09789437d8826681cc39b2d498f2cd47571cbeca727c"],
      "8c1fe018afb7f5b21cbaefde8cb9d1351bddb691bb55889f41f197a4a8dc142c"),
    (["node1:", "02a4458ab26d59d1737c4afbc9838296007a3985def00561b19c3cde600c186d"],
      "6eac81530f701e01b1fb0145462da8afcdc065ab4b10aaa40ed77f14f2af5a1c"),
    (["node:", "6425f4238c0ca26a11bcd909140e43f5d8dce861804f615d24ae29aacaf6c8ea", ":",
        "6eac81530f701e01b1fb0145462da8afcdc065ab4b10aaa40ed77f14f2af5a1c"],
      "e9cbcd4faad58fe89df4155ea90e461750900763703b60978da0fb1229ad6cf0"),
    (["node:", "5f9f46cd9a37f718ea3f4e02c94dc242ce70557270854ec3d971d11b079989fa", ":",
        "07ff4e8258b90e9896cba7da9c48cd27992bdf39cbffc046448101128500372b"],
      "188cfef0b0292679c21a8dd5f40e4d91ada2ece0e79af80dc8a841a09c3caee3"),
    (["node:", "d52cb9dc448e244975fa22ae017cea6c01952a9510ccc4abb9d8a31e03262472", ":",
        "7791e62170c97daa8c9c8cc3c4772ac57e31a3652ed4af21280a05447679ca19"],
      "c1cdd5787c07dd978b685fc09006ed514e640743699770e3cd39c80b73200d74"),
    (["node:", "02a4458ab26d59d1737c4afbc9838296007a3985def00561b19c3cde600c186d", ":",
        "69b949eaaf8efa1f3a4832db9a716913d7e070550be28581d24e47ef8b681e10"],
      "671328c00b035b68a4ca41fb3afd7095fb5b070203ed00861591d1d749201009"),
    (["node:", "188cfef0b0292679c21a8dd5f40e4d91ada2ece0e79af80dc8a841a09c3caee3", ":",
        "c1cdd5787c07dd978b685fc09006ed514e640743699770e3cd39c80b73200d74"],
      "dd18c5a1df80700288185a4c6be676a672496529312d373fda1a988cead6d72b"),
    (["node1:", "671328c00b035b68a4ca41fb3afd7095fb5b070203ed00861591d1d749201009"],
      "4a416cfd01da26aaec9aaa9a0d20ddb355a1917195afb93356f5ea92dd103d6f"),
    (["node:", "dd18c5a1df80700288185a4c6be676a672496529312d373fda1a988cead6d72b", ":",
        "4a416cfd01da26aaec9aaa9a0d20ddb355a1917195afb93356f5ea92dd103d6f"],
      "88bd2c84539c4eabf77eaaed636f551531d816195a304675affd0b5b0ea33b02"),
    (["node:", "d52cb9dc448e244975fa22ae017cea6c01952a9510ccc4abb9d8a31e03262472", ":",
        "b9fd33432759b7d36b7be54b9934267b8ab9c0c767ff0dea1ae0fb704e1621b3"],
      "823e03f5477b3d46caefda8d91eb51b04a5b4495a0ee4d6200c7702145315ce4"),
    (["node:", "4b2e115247a1590c21e969f44c96e82a351068a1c4f3172ca2890c1b712edd86", ":",
        "02a4458ab26d59d1737c4afbc9838296007a3985def00561b19c3cde600c186d"],
      "566a81cd580135257533c27f842278dee1d0b69a7ed6fdfeb4a8f00193472aff"),
    (["node:", "188cfef0b0292679c21a8dd5f40e4d91ada2ece0e79af80dc8a841a09c3caee3", ":",
        "823e03f5477b3d46caefda8d91eb51b04a5b4495a0ee4d6200c7702145315ce4"],
      "1addf5df9095f2465b3b9628b7941a55e9569861ee97255be18cf488073a6248"),
    (["node1:", "566a81cd580135257533c27f842278dee1d0b69a7ed6fdfeb4a8f00193472aff"],
      "6099341a6acf0743df105fe2478dafd353f4a52ed43fb2c9272488e3f562b022"),
    (["node:", "1addf5df9095f2465b3b9628b7941a55e9569861ee97255be18cf488073a6248", ":",
        "6099341a6acf0743df105fe2478dafd353f4a52ed43fb2c9272488e3f562b022"],
      "ab3fd20263e77229690761fe6f27df07d1498e1017c693049a721be6c0c6f5fb"),
    (["node:", "d52cb9dc448e244975fa22ae017cea6c01952a9510ccc4abb9d8a31e03262472", ":",
        "d1b36f80a34156a789a20302e8e122a28815a427fca5696f43451bb113443ae8"],
      "3b566247373274536e9f4eee50e3de93284e015df9ca2404a4dccab3f795af55"),
    (["node:", "188cfef0b0292679c21a8dd5f40e4d91ada2ece0e79af80dc8a841a09c3caee3", ":",
        "3b566247373274536e9f4eee50e3de93284e015df9ca2404a4dccab3f795af55"],
      "a5319cd11f30bfea95d1d467f781a0fca8ca0427c1c3319c1afc07164de7247b"),
    (["node:", "a5319cd11f30bfea95d1d467f781a0fca8ca0427c1c3319c1afc07164de7247b", ":",
        "6099341a6acf0743df105fe2478dafd353f4a52ed43fb2c9272488e3f562b022"],
      "214bc067b4e462d45b481d52434ed7aef718dc435360fbbb6cb426ffb841be24"),
    (["node:", "5f9f46cd9a37f718ea3f4e02c94dc242ce70557270854ec3d971d11b079989fa", ":",
        "e66efda7008c6c8254d3e20ffcece9a83c0631ca666b0733ed71e1ff54856c6a"],
      "85fb0e55279321ba6d22640f4511634bbdcf5b2a6832a04ecf169f4ae8c7175e"),
    (["node:", "d52cb9dc448e244975fa22ae017cea6c01952a9510ccc4abb9d8a31e03262472", ":",
        "02a4458ab26d59d1737c4afbc9838296007a3985def00561b19c3cde600c186d"],
      "d75770095dfe44e143e026387bcb9690d1e8ea1c28866d8e786c649fe2284506"),
    (["node:", "85fb0e55279321ba6d22640f4511634bbdcf5b2a6832a04ecf169f4ae8c7175e", ":",
        "d75770095dfe44e143e026387bcb9690d1e8ea1c28866d8e786c649fe2284506"],
      "8b1765e6209a06b88670d326e766f4922295aa3d7d9d11b5103aa9a141811d9c")]

/-- The SHA-256 digests of the heads maps. -/
def headsDigests : List (List (String × String) × String) :=
  [([("dev-b", headB1Cid)],
      "4efc79b84efa03f8ef5a51528bb4b0656a8742f414a5e1342ad3b3bf17b18d2e"),
    ([("dev-b", headB2Cid)],
      "6c1a0315f79deddc8d8ce5bc07038a48eb72d5e043abe12a53ba04d843c68709"),
    ([("dev-a", headA1Cid), ("dev-b", headB2Cid)],
      "96c09f5bd7392e3924346dfdc42046bb96cebaeeaf727922a2addb2d33a7d318"),
    ([("dev-a", headA2Cid), ("dev-b", headB2Cid)],
      "a5d246b905a94a10244917006d74bbda4c2e3638b16b67829ab1188d3132c569"),
    ([("dev-a", headA3Cid), ("dev-b", headB2Cid)],
      "f43f743db8ebfb049a9edc6e285c6ca278f333bed9f28b04c915543b910e4812"),
    ([("dev-a", headA4Cid), ("dev-b", headB2Cid)],
      "45d0a6961cab07e79fd2ab35bfe68fb32d34e68939ec93f5f7a3de707aab85fb")]

/-- SHA-256 on everything the run hashes. -/
def digests : List (Bytes × String) :=
  [(publicKey, "fe812c12f3ab4ce6ac5db69ac352f906cb1b11ef43fb33e252ef7ff552263889"),
    (asBytes "one", fileOneCid), (asBytes "two", fileTwoCid),
    (treeF.toCbor, treeFCid), (treeG.toCbor, treeGCid), (treeFG.toCbor, treeFGCid),
    (headB1.toCbor, headB1Cid), (headB2.toCbor, headB2Cid), (headA1.toCbor, headA1Cid),
    (headA2.toCbor, headA2Cid), (headA3.toCbor, headA3Cid), (headA4.toCbor, headA4Cid)] ++
  (leafDigests.map fun x => (asBytes (String.join ["leaf:", x.1, ":", x.2.1.repr]), x.2.2)) ++
  (nodeDigests.map fun x => (asBytes (String.join x.1), x.2)) ++
  headsDigests.map fun x =>
    (asBytes (String.join (x.1.map fun h => String.join [h.1, "=", h.2, ";"])), x.2)

def platform : Platform where
  crypto :=
    { sha256Hex := tabulatedHash digests
      isPublicKey := fun b => b = publicKey
      verifyStrict := fun k message signature =>
        k.toBytes = publicKey && sign message = signature }
  codec := dagCbor [treeF, treeG, treeFG] [headB1, headB2, headA1, headA2, headA3, headA4]
  cut b := [b]
  blake3Hex b :=
    if b = asBytes "one" then
      "d33fb48ab5adff269ae172b29a6913ff04f6f266207a7a8e976f2ecd571d4492"
    else "dc770fff53f50835f8cc957e01c0d5731d3c2ed544c375493a28c09be5e09763"

/-- Nothing is refused and nothing fails. -/
def env : SyncEnv := ⟨fun _ => none, none, fun _ => false, (0, 0)⟩

/-- A device that has not synced yet. -/
def fresh (files : List (String × LocalFile)) : Device where
  files := (∅ : LocalFiles).insertMany files
  index := ∅
  placeholders := ∅
  cache := ∅
  ledgers := []
  counter := 0
  lastHead := none
  base := none

/-- The devices before anything was published: `dev-b` has the file `f`. -/
def devices (device : String) : Device :=
  if device = "dev-b" then fresh [("f", ⟨420, 1, 0, asBytes "one"⟩)] else fresh []

def init : SyncWorld := SyncWorld.init ∅ .active devices

/-- `dev-b` converges, `dev-a` adds `g` and converges, and converges once more. -/
def script : List SyncAction :=
  convergeSteps "dev-b" env ++
    .write "dev-a" "g" ⟨420, 1, 0, asBytes "two"⟩ ::
    (convergeSteps "dev-a" env ++ convergeSteps "dev-a" env)

/-- The account after the first `n` steps. -/
def world (n : Nat) : SyncWorld := run (SyncWorld.step platform account) init (script.take n)

lemma lawful : platform.Lawful where
  sha256Hex_injective := tabulatedHash_injective
    (distinctDigests_of_take 4 (by decide +kernel) (by decide +kernel))
  decode_encodeManifest _ _ h := decodeAmong_encodeAmong h
  decode_encodeHead _ _ h := decodeAmong_encodeAmong h

lemma world_succ {n : Nat} {a : SyncAction} (h : script[n]? = some a) :
    world (n + 1) = SyncWorld.step platform account (world n) a := by
  rw [world, List.take_add_one, h, run_append, Option.toList_some, run_cons, run_nil]
  rw [world]

lemma world_seven :
    world 7 = SyncWorld.step platform account (world 6) (.adopt "dev-a" env) := world_succ rfl

lemma world_eight :
    world 8 = SyncWorld.step platform account (world 7) (.publish "dev-a" env) := world_succ rfl

/-- The second converge of `dev-a`. -/
lemma world_ten : world 10 =
    run (SyncWorld.step platform account) (world 7) (convergeSteps "dev-a" env) := by
  have hnine : world 9 = SyncWorld.step platform account (world 8) (.fold "dev-a" env) :=
    world_succ rfl
  have hten : world 10 = SyncWorld.step platform account (world 9) (.adopt "dev-a" env) :=
    world_succ rfl
  rw [hten, hnine, world_eight, convergeSteps, run_cons, run_cons, run_cons, run_nil]

/-- What the run is seen to do: the bases of the devices that commit, the first converge of
`dev-a`, its tree before and after the second one, the heads that one folds, and the last
commit. -/
lemma observed :
    (((world 0).devices "dev-b").base = none ∧ ((world 2).devices "dev-b").base = none ∧
      ((world 4).devices "dev-a").base = none ∧ ((world 6).devices "dev-a").base = none ∧
      ((world 7).devices "dev-a").base = some treeFGCid ∧
      ((logicalTree platform ((world 7).devices "dev-a")).1.contentId platform.crypto
        platform.codec).toOption = some treeFGCid) ∧
    ((world 6).phase "dev-a" = .materialized ∧
      (convergeAdopt platform account env "dev-a" ((world 6).devices "dev-a")
        (world 6).server).2.2.toOption.isSome = true) ∧
    (((world 7).devices "dev-a").entryAt platform "f" = some fileOne ∧
      ((world 7).devices "dev-a").entryAt platform "g" = some fileTwo ∧
      ((world 8).devices "dev-a").entryAt platform "f" = some fileOne ∧
      ((world 10).devices "dev-a").entryAt platform "g" = none) ∧
    (fetchHeads platform account.verifyingKey (world 8).server (world 8).server.heads).toOption.map
      (·.toList) = some [("dev-a", treeFG), ("dev-b", treeF)] ∧
    (world 10).server.slot.manifest.map (fun m => ((m.heads.getD ∅)["dev-a"]?,
      m.leaves.map ManifestLeaf.cid)) =
      some (some headA4Cid, [treeFCid, headA4Cid, fileOneCid, headB2Cid]) := by
  decide +kernel

/-- The head the last commit records, with the bytes behind its name. -/
def recordedHead : {head : DeviceHead // HeadNamed platform headA4Cid head} :=
  ⟨headA4, headA4.toCbor, by decide +kernel, by decide +kernel⟩

/-- Up to the second converge's first commit every base is kept: there is none yet, or it is the
tree that is published again. -/
lemma baseKept : Along (SyncWorld.step platform account) (BaseKept platform) init
    (script.take 8) := by
  obtain ⟨⟨h₀, h₂, h₄, h₆, h₇, hcid⟩, -⟩ := observed
  have hnone : ∀ (w : SyncWorld) (a : SyncAction) (device : String), a.commits = some device →
      (w.devices device).base = none → BaseKept platform w a := by
    intro w a device hcom hbase device' base hcom' hbase'
    rw [hcom] at hcom'
    obtain rfl := Option.some.inj hcom'
    rw [hbase] at hbase'
    simp at hbase'
  have hlocal : ∀ (w : SyncWorld) (a : SyncAction), a.commits = none → BaseKept platform w a := by
    intro w a hcom device base hcom'
    rw [hcom] at hcom'
    simp at hcom'
  refine along_of_take fun k a hk => ?_
  have hlt : k < 8 := by
    have := (List.getElem?_eq_some_iff.mp hk).1
    simpa [script, convergeSteps] using this
  rw [List.take_take, min_eq_left hlt.le]
  rw [List.getElem?_take_of_lt hlt] at hk
  change BaseKept platform (world k) a
  interval_cases k <;> obtain rfl := Option.some.inj hk
  · exact hnone _ _ "dev-b" rfl h₀
  · exact hlocal _ _ rfl
  · exact hnone _ _ "dev-b" rfl h₂
  · exact hlocal _ _ rfl
  · exact hnone _ _ "dev-a" rfl h₄
  · exact hlocal _ _ rfl
  · exact hnone _ _ "dev-a" rfl h₆
  intro device base hcom hbase
  obtain rfl : "dev-a" = device := Option.some.inj hcom
  rw [h₇] at hbase
  obtain rfl := Option.some.inj hbase
  refine Or.inl ?_
  cases hc : (logicalTree platform ((world 7).devices "dev-a")).1.contentId platform.crypto
    platform.codec with
  | error e =>
      rw [hc] at hcid
      simp [Except.toOption] at hcid
  | ok cid =>
      rw [hc] at hcid
      rw [Option.some.inj hcid]

end TwoDevices

/-- The first eight steps of the two devices: every base is kept, and so is every closure. -/
theorem keep_set_covers_heads_example :
    Along (SyncWorld.step TwoDevices.platform TwoDevices.account) (BaseKept TwoDevices.platform)
        TwoDevices.init (TwoDevices.script.take 8) ∧
      KeepSetCovers TwoDevices.platform (TwoDevices.world 8).server :=
  ⟨TwoDevices.baseKept, keep_set_covers_heads TwoDevices.lawful TwoDevices.account ∅ .active
    TwoDevices.devices (TwoDevices.script.take 8) TwoDevices.baseKept⟩

/-- The second converge of `dev-a` publishes a tree that differs from its base.  The committed
head names that base, and the committed leaves do not list it. -/
theorem own_base_not_kept :
    ¬ KeepSetCovers TwoDevices.platform (run (SyncWorld.step TwoDevices.platform
      TwoDevices.account) TwoDevices.init TwoDevices.script).server := by
  show ¬ KeepSetCovers TwoDevices.platform (TwoDevices.world 10).server
  intro h
  obtain ⟨-, -, -, -, hlast⟩ := TwoDevices.observed
  obtain ⟨m, hm, hobs⟩ := Option.map_eq_some_iff.mp hlast
  obtain ⟨hhead, hleaves⟩ := Prod.mk.inj hobs
  obtain ⟨leaf, hleaf, hcid⟩ := (h m hm "dev-a" TwoDevices.headA4Cid hhead).2
    TwoDevices.treeFGCid (.base TwoDevices.recordedHead.2 rfl)
  have hmem : TwoDevices.treeFGCid ∈ m.leaves.map ManifestLeaf.cid :=
    hcid ▸ List.mem_map_of_mem hleaf
  rw [hleaves] at hmem
  exact absurd hmem (by decide +kernel)

end Ciss
