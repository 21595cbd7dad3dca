import Ciss.Mesh.Order
import Ciss.Sync.StaleHead

/-!
# Three carriers of one identity

A device's head is named by the frontier under a device id, announced under a device id and a
counter, and signed with both.  `decode_verified` checks the signature.  Nothing compares what is
signed with the other two: `converge` folds the tree of any verified head under the key at which
the frontier names it, and the slot takes an announcement at the counter it states.

`carriers_agree_iff` says exactly when they agree nevertheless: the blobs that the frontier names
carry the device ids they are named under, and the announcements that win their slots carry the
counters of the heads they name.
-/

namespace Ciss

/-- The address names a head that verifies. -/
def VerifiedHead (P : Platform) (verifier : VerifyingKey) (cid : String) (head : DeviceHead) :
    Prop :=
  ∃ bytes, P.crypto.sha256Hex bytes = cid ∧
    DeviceHead.decodeVerified P.crypto P.codec bytes verifier = .ok head

section

variable {P : Platform} {verifier : VerifyingKey} {s : SyncServer} {heads : HeadCids}
  {trees : Heads} {cid device : String} {tree : FsManifest} {head head' : DeviceHead}

lemma VerifiedHead.unique (hP : P.Lawful) (h : VerifiedHead P verifier cid head)
    (h' : VerifiedHead P verifier cid head') : head = head' := by
  obtain ⟨bytes, hsha, hdec⟩ := h
  obtain ⟨bytes', hsha', hdec'⟩ := h'
  obtain rfl := hP.sha256Hex_injective (hsha.trans hsha'.symm)
  exact Except.ok.inj (hdec.symm.trans hdec')

/-! ## The trees that are folded -/

/-- The tree is the fs-manifest of the verified head that the frontier names under the device, and
the head is the device's own. -/
def FoldedOwn (P : Platform) (verifier : VerifyingKey) (heads : HeadCids) (device : String)
    (tree : FsManifest) : Prop :=
  ∃ cid head, heads[device]? = some cid ∧ VerifiedHead P verifier cid head ∧
    head.deviceId = device ∧ TreeNamed P head.fsRoot tree

/-- Every verified head that the frontier names is of the device it is named under. -/
def NamesOwn (P : Platform) (verifier : VerifyingKey) (heads : HeadCids) : Prop :=
  ∀ (device cid : String) (head : DeviceHead), heads[device]? = some cid →
    VerifiedHead P verifier cid head → head.deviceId = device

/-- A tree that is fetched for a head is the tree of that head. -/
lemma fetchHead_verified (h : fetchHead P verifier s cid = .ok tree) :
    ∃ head, VerifiedHead P verifier cid head ∧ TreeNamed P head.fsRoot tree := by
  unfold fetchHead at h
  obtain ⟨bytes, hget, h⟩ := bind_eq_ok.mp h
  obtain ⟨head, hdec, h⟩ := bind_eq_ok.mp h
  exact ⟨head, ⟨bytes, SyncServer.get_eq_ok hget, hdec⟩, fetchManifest_named h⟩

/-- Trees are fetched for the devices of the frontier. -/
lemma fetchHeads_mem (h : fetchHeads P verifier s heads = .ok trees)
    (ht : trees[device]? = some tree) : ∃ cid, heads[device]? = some cid := by
  have hlist : ∀ (l : List (String × String)) (trees trees' : Heads),
      l.foldlM (fun (trees : Heads) x => do
        let tree ← fetchHead P verifier s x.2
        return trees.insert x.1 tree) trees = .ok trees' →
      trees'[device]? = some tree → trees[device]? = some tree ∨ ∃ x ∈ l, x.1 = device := by
    intro l
    induction l with
    | nil =>
        intro trees trees' h ht
        obtain rfl := Except.ok.inj h
        exact Or.inl ht
    | cons x l ih =>
        intro trees trees' h ht
        rw [List.foldlM_cons] at h
        obtain ⟨mid, hx, h⟩ := bind_eq_ok.mp h
        obtain ⟨tree', -, hins⟩ := bind_eq_ok.mp hx
        obtain rfl := Except.ok.inj hins
        rcases ih _ _ h ht with hmid | ⟨y, hy, hdev⟩
        · by_cases hd : x.1 = device
          · exact Or.inr ⟨x, List.mem_cons_self, hd⟩
          · refine Or.inl ?_
            rwa [Std.ExtTreeMap.getElem?_insert, if_neg (by simpa using hd)] at hmid
        · exact Or.inr ⟨y, List.mem_cons_of_mem _ hy, hdev⟩
  rcases hlist _ _ _ h ht with hempty | ⟨x, hx, rfl⟩
  · simp at hempty
  · exact ⟨x.2, Std.ExtTreeMap.mem_toList_iff_getElem?_eq_some.mp hx⟩

/-- **Every folded tree is the tree of its device** exactly when the heads that the frontier names
are. -/
lemma folded_own_iff (hP : P.Lawful) (h : fetchHeads P verifier s heads = .ok trees) :
    (∀ device tree, trees[device]? = some tree → FoldedOwn P verifier heads device tree) ↔
      NamesOwn P verifier heads := by
  constructor
  · intro hown device cid head hc hhead
    obtain ⟨tree, -, htree⟩ := fetchHeads_getElem? h hc
    obtain ⟨cid', head', hc', hhead', hdev, -⟩ := hown device tree htree
    rw [hc] at hc'
    obtain rfl := Option.some.inj hc'
    rw [hhead.unique hP hhead']
    exact hdev
  · intro hnames device tree htree
    obtain ⟨cid, hc⟩ := fetchHeads_mem h htree
    obtain ⟨tree', hfetch, htree'⟩ := fetchHeads_getElem? h hc
    rw [htree] at htree'
    obtain rfl := Option.some.inj htree'
    obtain ⟨head, hhead, hroot⟩ := fetchHead_verified hfetch
    exact ⟨cid, head, hc, hhead, hnames device cid head hc hhead, hroot⟩

/-- What `converge` folds are those trees. -/
lemma convergeFold_own (hP : P.Lawful) {key : Keypair} {env : SyncEnv} {deviceId : String}
    {d d' : Device} {m : Materialized} (h : convergeFold P key env deviceId d s = (d', .ok m))
    (hnames : ∀ frontier, s.frontier = some frontier → NamesOwn P key.verifyingKey frontier.heads) :
    ∃ frontier trees base outcome, s.frontier = some frontier ∧
      fold P.crypto P.codec trees base = .ok outcome ∧ outcome.tree = m.tree ∧
      ∀ device tree, trees[device]? = some tree →
        FoldedOwn P key.verifyingKey frontier.heads device tree := by
  unfold convergeFold at h
  rcases hf : s.frontier with _ | frontier
  · rw [hf] at h
    simp at h
  rw [hf] at h
  dsimp only at h
  rcases hfetch : fetchHeads P key.verifyingKey s frontier.heads with e | trees
  · rw [hfetch] at h
    simp at h
  rw [hfetch] at h
  dsimp only at h
  rcases hbase : fetchBase P s d.base with e | base
  · rw [hbase] at h
    simp at h
  rw [hbase] at h
  dsimp only at h
  rcases hfold : fold P.crypto P.codec trees base with e | outcome
  · rw [hfold] at h
    simp at h
  rw [hfold] at h
  refine ⟨frontier, trees, base, outcome, rfl, hfold, ?_,
    (folded_own_iff hP hfetch).mpr (hnames frontier hf)⟩
  dsimp only at h
  split at h
  · simp at h
  · split at h
    · simp at h
    · have hm := Except.ok.inj (congrArg Prod.snd h)
      rw [← hm]

end

/-! ## The counters that win -/

/-- Every slot is held at the counter that is signed in the head it names. -/
def SlotsSigned (P : Platform) (verifier : VerifyingKey) (slot : SlotState) : Prop :=
  ∀ (device : String) (counter : Nat) (cid : String) (head : DeviceHead),
    slot.remote[device]? = some (counter, cid) → VerifiedHead P verifier cid head →
      head.counter = counter

/-- The announcement states the counter that is signed in the head it names. -/
def Announcement.Signed (P : Platform) (verifier : VerifyingKey) (a : Announcement) : Prop :=
  ∀ head, VerifiedHead P verifier a.headSha256 head → head.counter = a.counter

/-- The slot holds nothing as new of the device. -/
def Announcement.Wins (slot : SlotState) (a : Announcement) : Prop :=
  a.kind = announceKind ∧ ∀ held, slot.remote[a.deviceId]? = some held → held.1 < a.counter

/-- If the announcement wins its slot, it states a signed counter. -/
def WinsSigned (P : Platform) (verifier : VerifyingKey) (slot : SlotState) (a : Announcement) :
    Prop :=
  a.Wins slot → a.Signed P verifier

section

variable {P : Platform} {verifier : VerifyingKey} {slot : SlotState} {a : Announcement}
  {device : String}

lemma remote_of_wins (h : a.Wins slot) :
    (receive slot a).remote[a.deviceId]? = some (a.counter, a.headSha256) := by
  rw [remote_receive, if_pos ⟨h.1, rfl⟩]
  rcases hheld : slot.remote[a.deviceId]? with _ | held
  · rfl
  · have hlt := h.2 held hheld
    simp [takeNewer, hlt]

/-- Only an announcement that wins changes a slot. -/
lemma remote_of_loses (h : ¬ (a.Wins slot ∧ a.deviceId = device)) :
    (receive slot a).remote[device]? = slot.remote[device]? := by
  rw [remote_receive]
  split
  · rename_i hhere
    obtain ⟨hkind, rfl⟩ := hhere
    rcases hheld : slot.remote[a.deviceId]? with _ | held
    · refine absurd ⟨⟨hkind, ?_⟩, rfl⟩ h
      intro held hheld'
      rw [hheld] at hheld'
      simp at hheld'
    · have hle : a.counter ≤ held.1 := by
        by_contra hlt
        refine h ⟨⟨hkind, ?_⟩, rfl⟩
        intro held' hheld'
        rw [hheld] at hheld'
        obtain rfl := Option.some.inj hheld'
        omega
      simp [takeNewer, hle]
  · rfl

lemma SlotsSigned.receive (h : SlotsSigned P verifier slot) (ha : WinsSigned P verifier slot a) :
    SlotsSigned P verifier (receive slot a) := by
  intro device counter cid head hremote hhead
  by_cases hwins : a.Wins slot ∧ a.deviceId = device
  · obtain ⟨hwins, rfl⟩ := hwins
    rw [remote_of_wins hwins] at hremote
    obtain ⟨rfl, rfl⟩ := Prod.mk.inj (Option.some.inj hremote)
    exact ha hwins head hhead
  · rw [remote_of_loses hwins] at hremote
    exact h device counter cid head hremote hhead

/-- **Slots are held at signed counters** through a stream of announcements exactly when the
announcements that win state signed counters. -/
lemma slots_signed_iff (anns : List Announcement) :
    (∀ k, SlotsSigned P verifier (receiveAll .default (anns.take k))) ↔
      Along receive (WinsSigned P verifier) .default anns := by
  constructor
  · intro h
    apply along_of_take
    intro k a hk hwins head hhead
    have hnext : receiveAll .default (anns.take (k + 1)) =
        receive (receiveAll .default (anns.take k)) a := by
      rw [List.take_add_one, hk]
      simp [receiveAll]
    have hsigned := h (k + 1)
    rw [hnext] at hsigned
    exact hsigned a.deviceId a.counter a.headSha256 head (remote_of_wins hwins) hhead
  · intro h k
    have htake : Along receive (WinsSigned P verifier) .default (anns.take k) := by
      rw [← List.take_append_drop k anns, along_append] at h
      exact h.1
    have hinit : SlotsSigned P verifier .default := by
      intro device counter cid head hremote
      simp [SlotState.default] at hremote
    exact run_invariant (fun _ _ hslot ha => hslot.receive ha) hinit htake

end

/-- **When the carriers agree.**  Whatever a transport serves, the trees that are fetched to be
folded are those of the devices they are folded under exactly when the verified heads that the
frontier names are of the devices they are named under; and whatever a peer hears, its slots are
held at the counters that are signed in the heads they name exactly when the announcements that
win state those counters. -/
theorem carriers_agree_iff {P : Platform} (hP : P.Lawful) (verifier : VerifyingKey) :
    (∀ (s : SyncServer) (heads : HeadCids) (trees : Heads),
      fetchHeads P verifier s heads = .ok trees →
      ((∀ device tree, trees[device]? = some tree → FoldedOwn P verifier heads device tree) ↔
        NamesOwn P verifier heads)) ∧
    ∀ anns : List Announcement,
      (∀ k, SlotsSigned P verifier (receiveAll .default (anns.take k))) ↔
        Along receive (WinsSigned P verifier) .default anns :=
  ⟨fun _ _ _ h => folded_own_iff hP h, fun anns => slots_signed_iff anns⟩

/-! ### A head under another name

A peer hears that `dev-a` has published the head of `dev-b`, at counter 99. -/

namespace Gossip

open TwoDevices (treeF treeFCid headB1 headB1Cid)

/-- The announcement of `dev-b`'s head for `dev-a`. -/
def swapped : Announcement := { announcedF with deviceId := "dev-a", counter := 99 }

/-- What its provider serves: the head, its tree and the chunk. -/
def served : SyncServer where
  blobs := (∅ : ByCid Bytes).insertMany [(headB1Cid, headB1.toCbor), (treeFCid, treeF.toCbor)]
  slot := ⟨.active, none⟩

/-- The frontier with one device. -/
def oneHead (device : String) : HeadCids := (∅ : HeadCids).insert device headB1Cid

/-- What the peer has after the announcement, and what a converge fetches and would fold. -/
lemma observed :
    (receive .default swapped).remote["dev-a"]? = some (99, headB1Cid) ∧
      (receive .default swapped).frontier.map (fun f => f.heads.toList) =
        some [("dev-a", headB1Cid)] ∧
      (fetchHeads platform account.verifyingKey served (oneHead "dev-a")).toOption.map (·.toList) =
        some [("dev-a", treeF)] ∧
      (fetchHeads platform account.verifyingKey served (oneHead "dev-b")).toOption.map (·.toList) =
        some [("dev-b", treeF)] := by
  decide +kernel

lemma headB1_verified : VerifiedHead platform account.verifyingKey headB1Cid headB1 :=
  ⟨headB1.toCbor, by decide +kernel, by decide +kernel⟩

/-- Under its own name the head of `dev-b` is named rightly. -/
lemma namesOwn : NamesOwn platform account.verifyingKey (oneHead "dev-b") := by
  intro device cid head hc hhead
  rw [oneHead, Std.ExtTreeMap.getElem?_insert] at hc
  split at hc
  · rename_i heq
    obtain rfl := Std.LawfulEqCmp.eq_of_compare heq
    obtain rfl := Option.some.inj hc
    rw [hhead.unique lawful headB1_verified]
    rfl
  · simp at hc

lemma announcedF_signed : announcedF.Signed platform account.verifyingKey := by
  intro head hhead
  rw [hhead.unique lawful headB1_verified]
  rfl

end Gossip

/-- Under its own name and at its own counter, the head of `dev-b` is folded and heard rightly. -/
theorem carriers_agree_for_dev_b :
    (∃ trees, fetchHeads Gossip.platform Gossip.account.verifyingKey Gossip.served
        (Gossip.oneHead "dev-b") = .ok trees ∧ ∀ device tree, trees[device]? = some tree →
          FoldedOwn Gossip.platform Gossip.account.verifyingKey (Gossip.oneHead "dev-b") device
            tree) ∧
      ∀ k, SlotsSigned Gossip.platform Gossip.account.verifyingKey
        (receiveAll .default ([Gossip.announcedF].take k)) := by
  obtain ⟨hfolded, hslots⟩ := carriers_agree_iff Gossip.lawful Gossip.account.verifyingKey
  refine ⟨?_, (hslots _).mpr ⟨fun _ => Gossip.announcedF_signed, trivial⟩⟩
  obtain ⟨-, -, -, hfetch⟩ := Gossip.observed
  rcases htrees : fetchHeads Gossip.platform Gossip.account.verifyingKey Gossip.served
    (Gossip.oneHead "dev-b") with e | trees
  · rw [htrees] at hfetch
    simp [Except.toOption] at hfetch
  · exact ⟨trees, rfl, (hfolded _ _ _ htrees).mpr Gossip.namesOwn⟩

/-- **A head under another name.**  The slot of `dev-a` is held at 99 by a head of `dev-b` that is
signed with the counter 1, and the tree of `dev-b` is what a converge folds for `dev-a`. -/
theorem head_folded_under_other_name :
    ((receive .default Gossip.swapped).remote["dev-a"]? = some (99, TwoDevices.headB1Cid) ∧
        VerifiedHead Gossip.platform Gossip.account.verifyingKey TwoDevices.headB1Cid
          TwoDevices.headB1 ∧ TwoDevices.headB1.deviceId = "dev-b" ∧
        TwoDevices.headB1.counter = 1) ∧
      ¬ SlotsSigned Gossip.platform Gossip.account.verifyingKey (receive .default Gossip.swapped) ∧
      (receive .default Gossip.swapped).frontier.map (fun f => f.heads.toList) =
        some [("dev-a", TwoDevices.headB1Cid)] ∧
      ∃ trees, fetchHeads Gossip.platform Gossip.account.verifyingKey Gossip.served
          (Gossip.oneHead "dev-a") = .ok trees ∧ trees["dev-a"]? = some TwoDevices.treeF ∧
        ¬ FoldedOwn Gossip.platform Gossip.account.verifyingKey (Gossip.oneHead "dev-a") "dev-a"
          TwoDevices.treeF := by
  obtain ⟨hremote, hfrontier, hfetch, -⟩ := Gossip.observed
  refine ⟨⟨hremote, Gossip.headB1_verified, rfl, rfl⟩, ?_, hfrontier, ?_⟩
  · intro h
    have hcounter := h "dev-a" 99 TwoDevices.headB1Cid TwoDevices.headB1 hremote
      Gossip.headB1_verified
    exact absurd hcounter (by decide)
  · rcases htrees : fetchHeads Gossip.platform Gossip.account.verifyingKey Gossip.served
      (Gossip.oneHead "dev-a") with e | trees
    · rw [htrees] at hfetch
      simp [Except.toOption] at hfetch
    · rw [htrees] at hfetch
      refine ⟨trees, rfl, ?_, ?_⟩
      · apply Std.ExtTreeMap.mem_toList_iff_getElem?_eq_some.mp
        have hlist : trees.toList = [("dev-a", TwoDevices.treeF)] := Option.some.inj hfetch
        rw [hlist]
        simp
      · rintro ⟨cid, head, hc, hhead, hdev, -⟩
        obtain rfl : TwoDevices.headB1Cid = cid := by simpa [Gossip.oneHead] using hc
        rw [hhead.unique Gossip.lawful Gossip.headB1_verified] at hdev
        exact absurd hdev (by decide)

end Ciss
