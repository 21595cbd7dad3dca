import Ciss.Sync.Frontier

/-!
# What a head keeps alive

Blobs are named by their digest, so what an address stands for does not depend on the server:
`HeadNamed` and `TreeNamed` say which device head and which tree an address names, and
`InClosure` which addresses a head needs, the head itself, its tree, the chunks of that tree and
the base it was folded against.

`extendWithHeadClosure_ok` says that a head another device published is listed with its whole
closure.  The own head takes a different way into the keep-set: the blobs of the push and the
head's own address, and nothing else (`AcceptedBackup.own`).  `backupFrontier_spec` puts the two
together: what a backup leaves behind, accepted or not.
-/

namespace Ciss

/-- What the client relies on in its libraries: no two blobs share an address, and the serializer
reads back what it writes. -/
structure Platform.Lawful (P : Platform) : Prop where
  sha256Hex_injective : Function.Injective P.crypto.sha256Hex
  decode_encodeManifest : ∀ m bytes, P.codec.encodeManifest m = .ok bytes →
    P.codec.decodeManifest bytes = .ok m
  decode_encodeHead : ∀ head bytes, P.codec.encodeHead head = .ok bytes →
    P.codec.decodeHead bytes = .ok head

/-! ## Names -/

/-- The address names this device head. -/
def HeadNamed (P : Platform) (cid : String) (head : DeviceHead) : Prop :=
  ∃ bytes, P.crypto.sha256Hex bytes = cid ∧ P.codec.decodeHead bytes = .ok head

/-- The address names this tree. -/
def TreeNamed (P : Platform) (cid : String) (tree : FsManifest) : Prop :=
  ∃ bytes, P.crypto.sha256Hex bytes = cid ∧ FsManifest.decode P.codec bytes = .ok tree

/-- The address names a device head whose tree can be named too. -/
def Resolves (P : Platform) (headCid : String) : Prop :=
  ∃ head tree, HeadNamed P headCid head ∧ TreeNamed P head.fsRoot tree

/-- The blobs a head needs. -/
inductive InClosure (P : Platform) (headCid : String) : String → Prop where
  | head : InClosure P headCid headCid
  | tree {head : DeviceHead} : HeadNamed P headCid head → InClosure P headCid head.fsRoot
  | chunk {head : DeviceHead} {tree : FsManifest} {path : String} {entry : FileEntry}
      {c : ChunkRef} : HeadNamed P headCid head → TreeNamed P head.fsRoot tree →
      tree.entries[path]? = some entry → c ∈ entry.chunks → InClosure P headCid c.sha256
  | base {head : DeviceHead} {cid : String} : HeadNamed P headCid head → head.base = some cid →
      InClosure P headCid cid

section

variable {P : Platform} {s : SyncServer} {cid headCid : String} {bytes : Bytes}
  {head head' : DeviceHead} {tree tree' : FsManifest}

lemma HeadNamed.unique (hP : P.Lawful) (h : HeadNamed P cid head) (h' : HeadNamed P cid head') :
    head = head' := by
  obtain ⟨b, hb, hd⟩ := h
  obtain ⟨b', hb', hd'⟩ := h'
  obtain rfl := hP.sha256Hex_injective (hb.trans hb'.symm)
  rw [hd] at hd'
  exact Except.ok.inj hd'

lemma TreeNamed.unique (hP : P.Lawful) (h : TreeNamed P cid tree) (h' : TreeNamed P cid tree') :
    tree = tree' := by
  obtain ⟨b, hb, hd⟩ := h
  obtain ⟨b', hb', hd'⟩ := h'
  obtain rfl := hP.sha256Hex_injective (hb.trans hb'.symm)
  rw [hd] at hd'
  exact Except.ok.inj hd'

/-- The closure of a head that can be read. -/
lemma inClosure_iff (hP : P.Lawful) (hh : HeadNamed P headCid head)
    (ht : TreeNamed P head.fsRoot tree) :
    InClosure P headCid cid ↔ cid = headCid ∨ cid = head.fsRoot ∨
      (∃ (path : String) (entry : FileEntry), tree.entries[path]? = some entry ∧
        ∃ c ∈ entry.chunks, c.sha256 = cid) ∨ head.base = some cid := by
  constructor
  · intro h
    cases h with
    | head => exact Or.inl rfl
    | tree hh' =>
        obtain rfl := hh.unique hP hh'
        exact Or.inr (Or.inl rfl)
    | chunk hh' ht' he hc =>
        obtain rfl := hh.unique hP hh'
        obtain rfl := ht.unique hP ht'
        exact Or.inr (Or.inr (Or.inl ⟨_, _, he, _, hc, rfl⟩))
    | base hh' hb =>
        obtain rfl := hh.unique hP hh'
        exact Or.inr (Or.inr (Or.inr hb))
  · rintro (rfl | rfl | ⟨path, entry, he, c, hc, rfl⟩ | hb)
    · exact .head
    · exact .tree hh
    · exact .chunk hh ht he hc
    · exact .base hh hb

/-- A tree that was encoded is named by the digest of its bytes. -/
lemma treeNamed_of_encode (hP : P.Lawful) (hkind : tree.kind = fsManifestKind)
    (h : tree.encode P.codec = .ok bytes) : TreeNamed P (P.crypto.sha256Hex bytes) tree := by
  have henc : P.codec.encodeManifest tree = .ok bytes := mapError_eq_ok.mp h
  refine ⟨bytes, rfl, bind_eq_ok.mpr ⟨tree, ?_, ?_⟩⟩
  · exact mapError_eq_ok.mpr (hP.decode_encodeManifest _ _ henc)
  · rw [if_pos hkind]
    rfl

/-- A head that was encoded is named by the digest of its bytes. -/
lemma headNamed_of_encode (hP : P.Lawful) (h : head.encode P.codec = .ok bytes) :
    HeadNamed P (P.crypto.sha256Hex bytes) head :=
  ⟨bytes, rfl, hP.decode_encodeHead _ _ (mapError_eq_ok.mp h)⟩

/-! ## Fetching by name -/

lemma verifyServerCid_eq_ok {expected got : String} {u : Unit}
    (h : verifyServerCid expected got = .ok u) : expected = got := by
  unfold verifyServerCid at h
  split at h
  · assumption
  · simp at h

/-- What a fetch returns has the address that was asked for. -/
lemma SyncServer.get_eq_ok (h : s.get P cid = .ok bytes) : P.crypto.sha256Hex bytes = cid := by
  unfold SyncServer.get at h
  split at h
  · simp at h
  · obtain ⟨_, hv, h⟩ := bind_eq_ok.mp h
    obtain rfl := Except.ok.inj h
    exact (verifyServerCid_eq_ok hv).symm

lemma DeviceHead.decodeVerified_eq_ok {verifier : VerifyingKey}
    (h : DeviceHead.decodeVerified P.crypto P.codec bytes verifier = .ok head) :
    P.codec.decodeHead bytes = .ok head := by
  unfold DeviceHead.decodeVerified at h
  obtain ⟨head', hd, h⟩ := bind_eq_ok.mp h
  have hhead : head' = head := by
    by_cases hkind : head'.kind = deviceHeadKind
    · by_cases hsig : verifyMessage P.crypto verifier (preimage head'.deviceId head'.counter
          head'.fsRoot head'.parent head'.base) head'.signature = true
      · simpa [hkind, hsig, pure, Except.pure] using h
      · simp [hkind, hsig, throw, throwThe, MonadExceptOf.throw, bind, Except.bind] at h
    · simp [hkind, throw, throwThe, MonadExceptOf.throw, bind, Except.bind] at h
  exact hhead ▸ mapError_eq_ok.mp hd

end

/-! ## The keep-set of a proposal -/

section

variable {P : Platform} {s : SyncServer} {verifier : VerifyingKey} {cid headCid : String}
  {leaves leaves' : Leaves}

lemma mem_foldl_insert_chunks {chunks : List ChunkRef} :
    cid ∈ chunks.foldl (fun (leaves : Leaves) c => leaves.insert c.sha256 c.len) leaves ↔
      cid ∈ leaves ∨ ∃ c ∈ chunks, c.sha256 = cid := by
  induction chunks generalizing leaves with
  | nil => simp
  | cons c chunks ih =>
      rw [List.foldl_cons, ih, Std.ExtTreeMap.mem_insert, byteCompare_eq_iff]
      simp only [List.exists_mem_cons_iff]
      tauto

lemma mem_insertChunks {m : FsManifest} :
    cid ∈ insertChunks leaves m ↔ cid ∈ leaves ∨
      ∃ (path : String) (entry : FileEntry), m.entries[path]? = some entry ∧
        ∃ c ∈ entry.chunks, c.sha256 = cid := by
  have hlist : ∀ (l : List (String × FileEntry)) (leaves : Leaves),
      cid ∈ l.foldl (fun leaves x => x.2.chunks.foldl
        (fun (leaves : Leaves) c => leaves.insert c.sha256 c.len) leaves) leaves ↔
        cid ∈ leaves ∨ ∃ x ∈ l, ∃ c ∈ x.2.chunks, c.sha256 = cid := by
    intro l
    induction l with
    | nil => simp
    | cons x l ih =>
        intro leaves
        rw [List.foldl_cons, ih, mem_foldl_insert_chunks, List.exists_mem_cons_iff]
        exact or_assoc
  rw [insertChunks, Std.ExtTreeMap.foldl_eq_foldl_toList, hlist]
  simp only [Prod.exists, Std.ExtTreeMap.mem_toList_iff_getElem?_eq_some]

/-- **The closure of another device's head.**  When the listing succeeds, the head resolves and
every blob of its closure is listed, next to what was listed before. -/
lemma extendWithHeadClosure_ok (hP : P.Lawful)
    (h : extendWithHeadClosure P s verifier headCid leaves = .ok leaves') :
    (∀ cid ∈ leaves, cid ∈ leaves') ∧ Resolves P headCid ∧
      ∀ cid, InClosure P headCid cid → cid ∈ leaves' := by
  unfold extendWithHeadClosure at h
  obtain ⟨headBytes, hget, h⟩ := bind_eq_ok.mp h
  obtain ⟨head, hdec, h⟩ := bind_eq_ok.mp h
  obtain ⟨manifestBytes, hget', h⟩ := bind_eq_ok.mp h
  obtain ⟨tree, hdec', h⟩ := bind_eq_ok.mp h
  have hh : HeadNamed P headCid head :=
    ⟨headBytes, SyncServer.get_eq_ok hget, DeviceHead.decodeVerified_eq_ok hdec⟩
  have ht : TreeNamed P head.fsRoot tree := ⟨manifestBytes, SyncServer.get_eq_ok hget', hdec'⟩
  -- what is listed before the base is looked at
  have hlisted : ∀ cid, cid ∈ insertChunks ((leaves.insert headCid headBytes.length).insert
      head.fsRoot manifestBytes.length) tree ↔ cid ∈ leaves ∨ cid = headCid ∨ cid = head.fsRoot ∨
        ∃ (path : String) (entry : FileEntry), tree.entries[path]? = some entry ∧
          ∃ c ∈ entry.chunks, c.sha256 = cid := by
    intro cid
    rw [mem_insertChunks, Std.ExtTreeMap.mem_insert, Std.ExtTreeMap.mem_insert, byteCompare_eq_iff,
      byteCompare_eq_iff, eq_comm (b := cid), eq_comm (b := cid)]
    tauto
  have hfinal : ∀ final : Leaves, (∀ cid ∈ insertChunks ((leaves.insert headCid
      headBytes.length).insert head.fsRoot manifestBytes.length) tree, cid ∈ final) →
      (∀ base, head.base = some base → base ∈ final) →
      (∀ cid ∈ leaves, cid ∈ final) ∧ Resolves P headCid ∧
        ∀ cid, InClosure P headCid cid → cid ∈ final := by
    intro final hsub hbase
    refine ⟨fun cid hc => hsub cid ((hlisted cid).mpr (Or.inl hc)), ⟨head, tree, hh, ht⟩, ?_⟩
    intro cid hc
    rcases (inClosure_iff hP hh ht).mp hc with hc | hc | hc | hc
    · exact hsub cid ((hlisted cid).mpr (Or.inr (Or.inl hc)))
    · exact hsub cid ((hlisted cid).mpr (Or.inr (Or.inr (Or.inl hc))))
    · exact hsub cid ((hlisted cid).mpr (Or.inr (Or.inr (Or.inr hc))))
    · exact hbase cid hc
  rcases hb : head.base with _ | base
  · rw [hb] at h hfinal
    obtain rfl := Except.ok.inj h
    exact hfinal _ (fun _ hc => hc) (by simp)
  · rw [hb] at h hfinal
    dsimp only at h
    split at h
    · rename_i hin
      obtain rfl := Except.ok.inj h
      refine hfinal _ (fun _ hc => hc) ?_
      intro base' hbase'
      obtain rfl := Option.some.inj hbase'
      exact Std.ExtTreeMap.contains_iff_mem.mp hin
    · obtain ⟨baseBytes, -, h⟩ := bind_eq_ok.mp h
      obtain rfl := Except.ok.inj h
      refine hfinal _ (fun cid hc => ?_) ?_
      · rw [Std.ExtTreeMap.mem_insert]
        exact Or.inr hc
      · intro base' hbase'
        obtain rfl := Option.some.inj hbase'
        simp

/-- The loop over the other heads: every one of them is listed with its closure. -/
lemma foldlM_extendWithHeadClosure_ok (hP : P.Lawful) {deviceId : String}
    {l : List (String × String)}
    (h : l.foldlM (fun leaves x => if x.1 = deviceId then pure leaves
      else extendWithHeadClosure P s verifier x.2 leaves) leaves = .ok leaves') :
    (∀ cid ∈ leaves, cid ∈ leaves') ∧ ∀ x ∈ l, x.1 ≠ deviceId →
      Resolves P x.2 ∧ ∀ cid, InClosure P x.2 cid → cid ∈ leaves' := by
  induction l generalizing leaves with
  | nil =>
      obtain rfl := Except.ok.inj h
      simp
  | cons y l ih =>
      rw [List.foldlM_cons] at h
      obtain ⟨mid, hy, h⟩ := bind_eq_ok.mp h
      obtain ⟨hmono, hall⟩ := ih h
      by_cases hid : y.1 = deviceId
      · rw [if_pos hid] at hy
        obtain rfl := Except.ok.inj hy
        refine ⟨hmono, ?_⟩
        intro x hx hne
        rcases List.mem_cons.mp hx with rfl | hx
        · exact absurd hid hne
        · exact hall x hx hne
      · rw [if_neg hid] at hy
        obtain ⟨hmono', hres, hcl⟩ := extendWithHeadClosure_ok hP hy
        refine ⟨fun cid hc => hmono cid (hmono' cid hc), ?_⟩
        intro x hx hne
        rcases List.mem_cons.mp hx with rfl | hx
        · exact ⟨hres, fun cid hc => hmono cid (hcl cid hc)⟩
        · exact hall x hx hne

end

/-- The proposal lists an address. -/
def Proposal.Lists (proposal : Proposal) (cid : String) : Prop :=
  ∃ size, (cid, size) ∈ proposal.leaves

/-- The manifest lists an address. -/
def Manifest.Lists (m : Manifest) (cid : String) : Prop := ∃ leaf ∈ m.leaves, leaf.cid = cid

section

variable {P : Platform} {s s' : SyncServer} {verifier : VerifyingKey} {b : Pending}
  {frontier : Option FrontierView} {proposal : Proposal} {key : Keypair}
  {fault : Option PersistError} {retriesLeft : Nat} {r : Except SyncError Nat}

/-- What a proposal lists: the blobs of the push, the own head, and the closure of every other
device's head. -/
lemma proposeCommit_lists (hP : P.Lawful)
    (h : proposeCommit P verifier b s frontier = .ok proposal) :
    (∀ x ∈ b.needed, proposal.Lists x.1) ∧ proposal.Lists b.headCid ∧
      ∀ (device c : String), proposal.heads[device]? = some c → device ≠ b.deviceId →
        Resolves P c ∧ ∀ cid, InClosure P c cid → proposal.Lists cid := by
  unfold proposeCommit at h
  obtain ⟨leaves, hloop, h⟩ := bind_eq_ok.mp h
  obtain rfl := Except.ok.inj h
  have hlists : ∀ cid ∈ leaves, ∃ size, (cid, size) ∈ leaves.toList := by
    intro cid hc
    rw [Std.ExtTreeMap.mem_iff_isSome_getElem?] at hc
    obtain ⟨size, hsize⟩ := Option.isSome_iff_exists.mp hc
    exact ⟨size, Std.ExtTreeMap.mem_toList_iff_getElem?_eq_some.mpr hsize⟩
  obtain ⟨hmono, hall⟩ := foldlM_extendWithHeadClosure_ok hP hloop
  refine ⟨?_, ?_, ?_⟩
  · intro x hx
    refine hlists x.1 (hmono x.1 ?_)
    rw [Std.ExtTreeMap.mem_insert, Std.ExtTreeMap.mem_insertMany_list]
    refine Or.inr (Or.inr ?_)
    rw [List.contains_iff_mem]
    exact List.mem_map_of_mem hx
  · exact hlists b.headCid (hmono b.headCid (by simp))
  · intro device c hc hne
    obtain ⟨hres, hcl⟩ := hall (device, c)
      (Std.ExtTreeMap.mem_toList_iff_getElem?_eq_some.mpr hc) hne
    exact ⟨hres, fun cid hcid => hlists cid (hcl cid hcid)⟩

/-- **What the commit loop can do.**  It fails and the server is as it was, or its last round
commits the proposal made from the frontier that was there: a stale commit leaves the server alone,
so every round starts from the same one. -/
lemma commitLoop_commits (h : commitLoop P key fault b retriesLeft s = (s', r)) :
    (s' = s ∧ ∃ e, r = .error e) ∨
      ∃ proposal, proposeCommit P key.verifyingKey b s s.frontier = .ok proposal ∧
        commitFrontier P key fault s proposal = (s', .ok ()) ∧ r = .ok proposal.seq := by
  induction retriesLeft generalizing s with
  | zero =>
      unfold commitLoop at h
      split at h
      · exact Or.inl ⟨(Prod.mk.inj h).1.symm, _, (Prod.mk.inj h).2.symm⟩
      rename_i proposal hp
      split at h
      · rename_i s₁ hc
        obtain ⟨rfl, rfl⟩ := Prod.mk.inj h
        exact Or.inr ⟨proposal, hp, hc, rfl⟩
      · rename_i s₁ attempted hc
        obtain ⟨rfl, rfl⟩ := Prod.mk.inj h
        exact Or.inl ⟨commitFrontier_error hc, _, rfl⟩
      · rename_i s₁ e _ hc
        obtain ⟨rfl, rfl⟩ := Prod.mk.inj h
        exact Or.inl ⟨commitFrontier_error hc, _, rfl⟩
  | succ n ih =>
      unfold commitLoop at h
      split at h
      · exact Or.inl ⟨(Prod.mk.inj h).1.symm, _, (Prod.mk.inj h).2.symm⟩
      rename_i proposal hp
      split at h
      · rename_i s₁ hc
        obtain ⟨rfl, rfl⟩ := Prod.mk.inj h
        exact Or.inr ⟨proposal, hp, hc, rfl⟩
      · rename_i s₁ attempted hc
        rw [commitFrontier_error hc] at h
        exact ih h
      · rename_i s₁ e _ hc
        obtain ⟨rfl, rfl⟩ := Prod.mk.inj h
        exact Or.inl ⟨commitFrontier_error hc, _, rfl⟩

/-- The slot after the commit loop. -/
lemma commitLoop_cases (h : commitLoop P key fault b retriesLeft s = (s', r)) :
    (s' = s ∧ ∃ e, r = .error e) ∨
      ∃ proposal m, proposeCommit P key.verifyingKey b s s.frontier = .ok proposal ∧
        s' = { s with slot := { s.slot with manifest := some m } } ∧ r = .ok proposal.seq ∧
        m.heads = some proposal.heads ∧
        ∀ x, x ∈ m.leaves ↔ (x.cid, x.size) ∈ proposal.leaves := by
  rcases commitLoop_commits h with h | ⟨proposal, hp, hc, hr⟩
  · exact Or.inl h
  · rcases commitFrontier_cases hc with ⟨-, e, he⟩ | ⟨m, hs, -, -, hheads, hleaves, -⟩
    · simp at he
    · exact Or.inr ⟨proposal, m, hp, hs, hr, hheads, hleaves⟩

end

/-! ## A backup as a whole -/

/-- What an accepted backup of `deviceId` committed: `d` and `s` are the device and the server
before it, `m` is the manifest the slot holds after it. -/
structure AcceptedBackup (P : Platform) (deviceId : String) (d : Device) (s : SyncServer)
    (report : FrontierReport) (m : Manifest) : Prop where
  heads : m.heads = some (s.heads.insert deviceId report.deviceHeadCid)
  /-- The new head names the device's tree and its base. -/
  head : ∃ head, HeadNamed P report.deviceHeadCid head ∧
    head.fsRoot = report.pushed.fsManifestCid ∧ head.base = d.base
  tree : TreeNamed P report.pushed.fsManifestCid (logicalTree P d).1
  treeCid : (logicalTree P d).1.contentId P.crypto P.codec = .ok report.pushed.fsManifestCid
  /-- What is listed of the own head: itself, its tree and the tree's chunks. -/
  own : m.Lists report.deviceHeadCid ∧ m.Lists report.pushed.fsManifestCid ∧
    ∀ (path : String) (entry : FileEntry), (logicalTree P d).1.entries[path]? = some entry →
      ∀ c ∈ entry.chunks, m.Lists c.sha256
  /-- Every other head is listed with its closure. -/
  others : ∀ (device c : String), s.heads[device]? = some c → device ≠ deviceId →
    Resolves P c ∧ ∀ cid, InClosure P c cid → m.Lists cid

section

variable {P : Platform} {s s' : SyncServer} {d d' : Device} {key : Keypair} {deviceId : String}
  {refuse : String → Option ServerError} {fault : Option PersistError}
  {r : Except SyncError FrontierReport}

/-- **What a backup can do.**  The device keeps its directory, its tree and its base.  It fails
and the slot is as it was, or the slot holds the accepted commit. -/
theorem backupFrontier_spec (hP : P.Lawful)
    (h : backupFrontier P key refuse fault deviceId d s = (d', s', r)) :
    d.SameTree P d' ∧
      ((s'.slot.manifest = s.slot.manifest ∧ ∃ e, r = .error e) ∨
        ∃ report m, r = .ok report ∧ s'.slot.manifest = some m ∧
          AcceptedBackup P deviceId d s report m) := by
  unfold backupFrontier at h
  rcases hpush : pushTree P refuse d s with ⟨d₁, s₁, e | pushed⟩
  · obtain ⟨hg, -, hsame⟩ := pushTree_frame hpush
    rw [hpush] at h
    simp only [Prod.mk.injEq] at h
    obtain ⟨rfl, rfl, rfl⟩ := h
    exact ⟨hsame, Or.inl ⟨by rw [hg.slot], e, rfl⟩⟩
  obtain ⟨hg, -, hsame⟩ := pushTree_frame hpush
  obtain ⟨bytes, henc, hcid, -, hneeded⟩ := pushTree_ok hpush
  rw [hpush] at h
  dsimp only at h
  split at h
  · rename_i e _
    simp only [Prod.mk.injEq] at h
    obtain ⟨rfl, rfl, rfl⟩ := h
    exact ⟨hsame, Or.inl ⟨by rw [hg.slot], e, rfl⟩⟩
  rename_i headBytes hhead
  rcases hput : s₁.put P (refuse (P.crypto.sha256Hex headBytes)) (P.crypto.sha256Hex headBytes)
    headBytes with ⟨s₂, e | u⟩
  · obtain ⟨hg', -⟩ := hput ▸ SyncServer.put_spec (P := P) s₁ _ _ _
    rw [hput] at h
    simp only [Prod.mk.injEq] at h
    obtain ⟨rfl, rfl, rfl⟩ := h
    exact ⟨hsame, Or.inl ⟨by rw [(hg.trans hg').slot], e, rfl⟩⟩
  obtain ⟨hg', -⟩ := hput ▸ SyncServer.put_spec (P := P) s₁ _ _ _
  have hslot : s₂.slot = s.slot := (hg.trans hg').slot
  rw [hput] at h
  dsimp only at h
  split at h
  · rename_i hloop
    simp only [Prod.mk.injEq] at h
    obtain ⟨rfl, rfl, rfl⟩ := h
    rcases commitLoop_cases hloop with ⟨rfl, e, he⟩ | ⟨proposal, m, -, -, he, -⟩
    · exact ⟨hsame, Or.inl ⟨by rw [hslot], _, rfl⟩⟩
    · simp at he
  · rename_i s₃ seq hloop
    simp only [Prod.mk.injEq] at h
    obtain ⟨rfl, rfl, rfl⟩ := h
    refine ⟨⟨hsame.files, hsame.entryAt, hsame.base⟩, Or.inr ?_⟩
    rcases commitLoop_cases hloop with ⟨-, e, he⟩ | ⟨proposal, m, hprop, rfl, -, hheads, hleaves⟩
    · simp at he
    obtain ⟨hown, hhc, hothers⟩ := proposeCommit_lists hP hprop
    obtain ⟨-, hpheads⟩ := proposeCommit_seq_heads hprop
    have hfrontier : s₂.heads = s.heads := by
      simp [SyncServer.heads, SyncServer.frontier, hslot]
    have hph : proposal.heads = s.heads.insert deviceId (P.crypto.sha256Hex headBytes) := by
      rw [← hfrontier]
      exact hpheads
    have hlists : ∀ cid, proposal.Lists cid → m.Lists cid := by
      rintro cid ⟨size, hmem⟩
      exact ⟨⟨cid, size⟩, (hleaves _).mpr hmem, rfl⟩
    refine ⟨_, m, rfl, rfl, ⟨?_, ?_, ?_, ?_, ⟨?_, ?_, ?_⟩, ?_⟩⟩
    · rw [hheads, hph]
    · exact ⟨_, headNamed_of_encode hP hhead, rfl, hsame.base⟩
    · rw [hcid]
      exact treeNamed_of_encode hP rfl henc
    · rw [hcid]
      exact bind_eq_ok.mpr ⟨bytes, henc, rfl⟩
    · exact hlists _ hhc
    · exact hlists _ (hown (pushed.fsManifestCid, bytes.length) (by simp [hneeded]))
    · intro path entry he c hc
      obtain ⟨size, hmem⟩ := mem_distinctChunks.mpr ⟨path, entry, he, c, hc, rfl⟩
      exact hlists _ (hown (c.sha256, size) (by rw [hneeded]; exact List.mem_append_left _ hmem))
    · intro device c hc hne
      obtain ⟨hres, hcl⟩ := hothers device c
        (by rw [hph, Std.ExtTreeMap.getElem?_insert, if_neg (by simpa using Ne.symm hne)]; exact hc)
        hne
      exact ⟨hres, fun cid hcid => hlists cid (hcl cid hcid)⟩

end

end Ciss
