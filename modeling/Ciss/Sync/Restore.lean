import Ciss.Sync.Quote

/-!
# Cold restore

A restore that is given no fs-manifest looks for one among the leaves of the keep-set: it tries
them by size, the smallest first, and takes the first whose bytes decode.

After a backup the keep-set lists the tree's fs-manifest and the chunks of its files, and a chunk
is whatever the user's file says.  `restore_selects_iff` states when the search ends at the
fs-manifest that was backed up: exactly when no chunk of the tree is itself an fs-manifest and
comes before it in the order of the search.
-/

namespace Ciss

/-! ## The search -/

/-- Try the candidates in order; the first whose bytes decode is the fs-manifest. -/
def firstManifest (P : Platform) (s : SyncServer) :
    List (String × Nat) → Except SyncError (Option (String × Bytes))
  | [] => .ok none
  | (cid, _) :: leaves => do
      let bytes ← s.get P cid
      verifyContent P.crypto cid bytes
      if (FsManifest.decode P.codec bytes).isOk then return some (cid, bytes)
      else firstManifest P s leaves

/-- Find the fs-manifest among the leaves of the keep-set, the smallest first. -/
def discoverFsManifest (P : Platform) (s : SyncServer) : Except SyncError (String × Bytes) :=
  match s.frontier with
  | none => .error (.decode "no keep-set manifest on the server")
  | some view => do
      let leaves := view.leaves.insertionSort fun a b => a.2 ≤ b.2
      match ← firstManifest P s leaves with
      | some found => return found
      | none => throw (.decode (String.join ["no fs-manifest among the ", leaves.length.repr,
          " keep-set leaves"]))

/-! ## The restore -/

/-- What a restore did. -/
structure RestoreReport where
  files : Nat
  chunksFetched : Nat
  bytesFetched : Nat
  fsManifestCid : String
  deriving DecidableEq, Repr

/-- The content of an entry, chunk by chunk, from the server. -/
def restoreContent (P : Platform) (s : SyncServer) (entry : FileEntry) : Except SyncError Bytes :=
  entry.chunks.foldlM (fun content c => do
    let bytes ← s.get P c.sha256
    verifyContent P.crypto c.sha256 bytes
    return content ++ bytes) []

/-- Restore the files in order, up to the first failure; returns the chunks and the bytes that
were fetched. -/
def restoreFiles (P : Platform) (env : SyncEnv) (s : SyncServer) :
    List (String × FileEntry) → LocalFiles → LocalFiles × Except SyncError (Nat × Nat)
  | [], files => (files, .ok (0, 0))
  | (path, entry) :: rest, files =>
      match restoreContent P s entry with
      | .error e => (files, .error e)
      | .ok content =>
          match writeVerifiedFile env path entry content files with
          | (files, .error e) => (files, .error e)
          | (files, .ok ()) =>
              match restoreFiles P env s rest files with
              | (files, .error e) => (files, .error e)
              | (files, .ok (chunks, bytes)) =>
                  (files, .ok (chunks + entry.chunks.length, bytes + content.length))

/-- The fs-manifest to restore from: the given one, or the one that is found. -/
def locateFsManifest (P : Platform) (s : SyncServer) (fsManifestCid : Option String) :
    Except SyncError (String × Bytes) :=
  match fsManifestCid with
  | some cid => do
      let bytes ← s.get P cid
      verifyContent P.crypto cid bytes
      return (cid, bytes)
  | none => discoverFsManifest P s

/-- Restore a tree into the directory. -/
def restore (P : Platform) (env : SyncEnv) (s : SyncServer) (fsManifestCid : Option String)
    (files : LocalFiles) : LocalFiles × Except SyncError RestoreReport :=
  match locateFsManifest P s fsManifestCid with
  | .error e => (files, .error e)
  | .ok (cid, manifestBytes) =>
      match FsManifest.decode P.codec manifestBytes with
      | .error e => (files, .error e)
      | .ok manifest =>
          match restoreFiles P env s manifest.entries.toList files with
          | (files, .error e) => (files, .error e)
          | (files, .ok (chunks, bytes)) =>
              (files, .ok ⟨manifest.entries.size, chunks, bytes, cid⟩)

/-- A restore that is given no fs-manifest takes this one. -/
def Selects (P : Platform) (s : SyncServer) (cid : String) : Prop :=
  ∃ bytes, discoverFsManifest P s = .ok (cid, bytes)

/-- The bytes are an fs-manifest. -/
def OpensAs (P : Platform) (bytes : Bytes) : Prop := (FsManifest.decode P.codec bytes).isOk = true

/-- The search comes to the first blob before it comes to the second: it is smaller, or of the
same size and its address is. -/
def TriedBefore (P : Platform) (b b' : Bytes) : Prop :=
  b.length < b'.length ∨ b.length = b'.length ∧
    byteCompare (P.crypto.sha256Hex b) (P.crypto.sha256Hex b') = .lt

/-- A chunk of the tree is an fs-manifest, and the search comes to it before it comes to the tree's
own. -/
def Shadowed (P : Platform) (tree : FsManifest) : Prop :=
  ∃ manifestBytes, tree.encode P.codec = .ok manifestBytes ∧
    ∃ (path : String) (entry : FileEntry), tree.entries[path]? = some entry ∧
      ∃ c ∈ entry.chunks, ∃ piece, P.crypto.sha256Hex piece = c.sha256 ∧ OpensAs P piece ∧
        TriedBefore P piece manifestBytes

/-- What the serializer writes for a head is not read as an fs-manifest, which has other fields. -/
def Codec.HeadsApart (K : Codec) : Prop :=
  ∀ head bytes tree, K.encodeHead head = .ok bytes → K.decodeManifest bytes ≠ .ok tree

/-! ## What the search finds -/

/-- The leaves stand in the order of their addresses. -/
def Manifest.Ordered (m : Manifest) : Prop :=
  m.leaves.Pairwise fun a b => byteCompare a.cid b.cid = .lt

/-- Every leaf is on the server, with the listed size. -/
def SyncServer.HoldsLeaves (P : Platform) (s : SyncServer) (m : Manifest) : Prop :=
  ∀ leaf ∈ m.leaves, ∃ b, s.blobs[leaf.cid]? = some b ∧ P.crypto.sha256Hex b = leaf.cid ∧
    b.length = leaf.size

section

variable {P : Platform} {s : SyncServer} {m : Manifest} {cid : String} {bytes : Bytes}
  {leaves : List (String × Nat)}

lemma SyncServer.get_of_getElem? (h : s.blobs[cid]? = some bytes)
    (hsha : P.crypto.sha256Hex bytes = cid) : s.get P cid = .ok bytes := by
  simp [SyncServer.get, h, verifyContent, verifyServerCid, hsha, bind, Except.bind, pure,
    Except.pure]

/-- The bytes of an address decode. -/
def SyncServer.opens (P : Platform) (s : SyncServer) (cid : String) : Bool :=
  match s.get P cid with
  | .ok bytes => (FsManifest.decode P.codec bytes).isOk
  | .error _ => false

/-- On a server that holds every candidate, the search finds the first that decodes. -/
lemma firstManifest_eq (h : ∀ x ∈ leaves, s.Holds P x.1) :
    ∃ found, firstManifest P s leaves = .ok found ∧
      found.map Prod.fst = (leaves.find? fun x => s.opens P x.1).map Prod.fst := by
  induction leaves with
  | nil => exact ⟨none, rfl, rfl⟩
  | cons x leaves ih =>
      obtain ⟨cid, size⟩ := x
      obtain ⟨b, hb, hsha⟩ := h (cid, size) (by simp)
      have hget : s.get P cid = .ok b := SyncServer.get_of_getElem? hb hsha
      have hverify : verifyContent P.crypto cid b = .ok () := by
        simp [verifyContent, verifyServerCid, hsha]
      unfold firstManifest
      rw [List.find?_cons]
      have hopens : s.opens P cid = (FsManifest.decode P.codec b).isOk := by
        simp only [SyncServer.opens, hget]
      dsimp only
      rw [hopens, hget]
      simp only [bind, Except.bind, hverify]
      rcases hd : (FsManifest.decode P.codec b).isOk with _ | _
      · obtain ⟨found, hfound, hfst⟩ := ih fun x hx => h x (List.mem_cons_of_mem _ hx)
        exact ⟨found, hfound, hfst⟩
      · exact ⟨some (cid, b), rfl, rfl⟩

end

section

variable {P : Platform} {s : SyncServer} {m : Manifest} {cid : String} {bytes : Bytes}

lemma byteCompare_lt_asymm {a b : String} (h : byteCompare a b = .lt) : byteCompare b a ≠ .lt := by
  have hswap : byteCompare b a = (byteCompare a b).swap := Std.OrientedCmp.eq_swap
  rw [hswap, h]
  simp

/-- The leaves in the order of the search. -/
lemma Manifest.Ordered.pairwise_sorted (h : m.Ordered) :
    ((m.leaves.map fun l => (l.cid, l.size)).insertionSort fun a b => a.2 ≤ b.2).Pairwise
      fun a b => a.2 < b.2 ∨ a.2 = b.2 ∧ byteCompare a.1 b.1 = .lt := by
  apply pairwise_insertionSort_of_pairwise
  exact List.pairwise_map.mpr h

/-- What is selected is the first leaf that decodes. -/
lemma selects_iff_find (hm : s.slot.manifest = some m) (hholds : s.HoldsLeaves P m) :
    Selects P s cid ↔ ∃ size, (((m.leaves.map fun l => (l.cid, l.size)).insertionSort
      fun a b => a.2 ≤ b.2).find? fun x => s.opens P x.1) = some (cid, size) := by
  have hview : s.frontier = some ⟨m.seq, m.heads.getD ∅, m.leaves.map fun l => (l.cid, l.size)⟩ := by
    rw [SyncServer.frontier, hm]
    rfl
  have hall : ∀ x ∈ (m.leaves.map fun l => (l.cid, l.size)).insertionSort fun a b => a.2 ≤ b.2,
      s.Holds P x.1 := by
    intro x hx
    obtain ⟨leaf, hleaf, rfl⟩ := List.mem_map.mp ((List.mem_insertionSort _).mp hx)
    obtain ⟨b, hb, hsha, -⟩ := hholds leaf hleaf
    exact ⟨b, hb, hsha⟩
  obtain ⟨found, hfound, hfst⟩ := firstManifest_eq hall
  unfold Selects discoverFsManifest
  rw [hview]
  dsimp only
  rw [hfound]
  constructor
  · rintro ⟨bytes, h⟩
    rcases found with _ | ⟨cid', bytes'⟩
    · simp [bind, Except.bind, throw, throwThe, MonadExceptOf.throw] at h
    · have hcid : cid' = cid := by
        simp only [bind, Except.bind, pure, Except.pure, Except.ok.injEq, Prod.mk.injEq] at h
        exact h.1
      obtain ⟨x, hx, hxcid⟩ := Option.map_eq_some_iff.mp hfst.symm
      exact ⟨x.2, hx.trans (congrArg some (Prod.ext (hxcid.trans hcid) rfl))⟩
  · rintro ⟨size, hsize⟩
    rw [hsize] at hfst
    obtain ⟨x, rfl, hx⟩ := Option.map_eq_some_iff.mp hfst
    refine ⟨x.2, ?_⟩
    simp only [bind, Except.bind, pure, Except.pure]
    exact congrArg Except.ok (Prod.ext hx rfl)

/-- **What the search finds.**  An fs-manifest that is listed is selected exactly when no other
leaf is one and is tried before it. -/
lemma selects_iff (hP : P.Lawful) (hm : s.slot.manifest = some m) (hordered : m.Ordered)
    (hholds : s.HoldsLeaves P m) (hlisted : m.Lists (P.crypto.sha256Hex bytes))
    (hopens : OpensAs P bytes) :
    Selects P s (P.crypto.sha256Hex bytes) ↔
      ∀ b, m.Lists (P.crypto.sha256Hex b) → OpensAs P b → ¬TriedBefore P b bytes := by
  have hleaf : ∀ (b : Bytes) (size : Nat), (P.crypto.sha256Hex b, size) ∈
      ((m.leaves.map fun l => (l.cid, l.size)).insertionSort fun a b => a.2 ≤ b.2) →
      size = b.length ∧ s.opens P (P.crypto.sha256Hex b) = (FsManifest.decode P.codec b).isOk := by
    intro b size hmem
    obtain ⟨leaf, hl, he⟩ := List.mem_map.mp ((List.mem_insertionSort _).mp hmem)
    obtain ⟨hcid, hsize⟩ := Prod.mk.inj he
    obtain ⟨b', hb', hsha, hlen⟩ := hholds leaf hl
    obtain rfl := hP.sha256Hex_injective (hsha.trans hcid)
    refine ⟨hsize.symm.trans hlen.symm, ?_⟩
    rw [SyncServer.opens, SyncServer.get_of_getElem? (hcid ▸ hb') rfl]
  have hmem : ∀ b : Bytes, m.Lists (P.crypto.sha256Hex b) → (P.crypto.sha256Hex b, b.length) ∈
      ((m.leaves.map fun l => (l.cid, l.size)).insertionSort fun a b => a.2 ≤ b.2) := by
    rintro b ⟨leaf, hl, hcid⟩
    have hin : (leaf.cid, leaf.size) ∈
        ((m.leaves.map fun l => (l.cid, l.size)).insertionSort fun a b => a.2 ≤ b.2) :=
      (List.mem_insertionSort _).mpr (List.mem_map_of_mem hl)
    rw [hcid] at hin
    rwa [(hleaf b leaf.size hin).1] at hin
  have hasymm : ∀ {x y : String × Nat}, (x.2 < y.2 ∨ x.2 = y.2 ∧ byteCompare x.1 y.1 = .lt) →
      ¬(y.2 < x.2 ∨ y.2 = x.2 ∧ byteCompare y.1 x.1 = .lt) := by
    rintro x y (hlt | ⟨heq, hlt⟩) (hlt' | ⟨heq', hlt'⟩)
    · omega
    · omega
    · omega
    · exact byteCompare_lt_asymm hlt hlt'
  rw [selects_iff_find hm hholds]
  simp only [find?_eq_some_iff_of_pairwise hasymm hordered.pairwise_sorted]
  constructor
  · rintro ⟨size, hin, -, hfirst⟩ b hb hopen hbefore
    obtain rfl := (hleaf bytes size hin).1
    refine hfirst _ (hmem b hb) ?_ hbefore
    rw [(hleaf b _ (hmem b hb)).2]
    exact hopen
  · intro hfirst
    refine ⟨bytes.length, hmem bytes hlisted, ?_, ?_⟩
    · rw [(hleaf bytes _ (hmem bytes hlisted)).2]
      exact hopens
    · rintro ⟨cid, size⟩ hin hopen hbefore
      obtain ⟨leaf, hl, he⟩ := List.mem_map.mp ((List.mem_insertionSort _).mp hin)
      obtain ⟨b, hb, hsha, -⟩ := hholds leaf hl
      obtain ⟨rfl, -⟩ := Prod.mk.inj he
      rw [← hsha] at hin hopen hbefore
      obtain ⟨rfl, hdec⟩ := hleaf b size hin
      exact hfirst b ⟨leaf, hl, hsha.symm⟩ (hdec.symm.trans hopen) hbefore

/-- A restore that selects an fs-manifest is the restore of that fs-manifest. -/
lemma restore_of_selects (h : Selects P s cid) (env : SyncEnv) (files : LocalFiles) :
    restore P env s none files = restore P env s (some cid) files := by
  have hfirst : ∀ (leaves : List (String × Nat)) (found : String × Bytes),
      firstManifest P s leaves = .ok (some found) → s.get P found.1 = .ok found.2 ∧
        verifyContent P.crypto found.1 found.2 = .ok () := by
    intro leaves found hf
    induction leaves with
    | nil => simp [firstManifest] at hf
    | cons x leaves ih =>
        obtain ⟨c, size⟩ := x
        unfold firstManifest at hf
        obtain ⟨b, hget, hf⟩ := bind_eq_ok.mp hf
        obtain ⟨u, hverify, hf⟩ := bind_eq_ok.mp hf
        split at hf
        · obtain rfl := Option.some.inj (Except.ok.inj hf)
          exact ⟨hget, hverify⟩
        · exact ih hf
  obtain ⟨bytes, hd⟩ := h
  have hlocate : locateFsManifest P s (some cid) = .ok (cid, bytes) := by
    unfold discoverFsManifest at hd
    split at hd
    · simp at hd
    · obtain ⟨found, hf, hd⟩ := bind_eq_ok.mp hd
      rcases found with _ | found
      · simp [throw, throwThe, MonadExceptOf.throw] at hd
      · obtain rfl := Except.ok.inj hd
        obtain ⟨hget, hverify⟩ := hfirst _ _ hf
        simp only [locateFsManifest, hget, hverify, bind, Except.bind, pure, Except.pure]
  have hnone : locateFsManifest P s none = .ok (cid, bytes) := hd
  simp only [restore, hlocate, hnone]

end

/-! ## What a backup commits -/

section

variable {C : Crypto} {items : List ManifestLeaf} {customerId : String} {key : Keypair}
  {verifier : VerifyingKey} {seq : Nat} {heads : Option HeadCids}

/-- A built manifest that verifies lists its leaves in order, each address once. -/
lemma ordered_of_verify
    (h : (Manifest.buildSigned C items customerId key seq heads).verify C verifier = true) :
    (Manifest.buildSigned C items customerId key seq heads).Ordered := by
  have hnodup : ((sortLeaves items).map ManifestLeaf.cid).Nodup := by
    unfold Manifest.verify at h
    split at h
    · simp at h
    · rename_i hvalid
      rw [Bool.or_eq_true, not_or] at hvalid
      by_contra hnot
      refine hvalid.2 ?_
      rw [hasDuplicateCids, Bool.not_eq_true']
      exact decide_eq_false hnot
  have hne : (sortLeaves items).Pairwise fun a b => a.cid ≠ b.cid := List.pairwise_map.mp hnodup
  refine ((pairwise_insertionSort_byteCompare ManifestLeaf.cid items).and hne).imp ?_
  rintro a b ⟨hle, hne⟩
  rcases hc : byteCompare a.cid b.cid with _ | _ | _
  · rfl
  · exact absurd (byteCompare_eq_iff.mp hc) hne
  · simp [hc] at hle

end

section

variable {P : Platform} {key : Keypair} {fault : Option PersistError} {s s' : SyncServer}
  {m : Manifest}

lemma ordered_of_commitKeepSet {leaves : List (String × Nat)} {seq : Nat}
    (h : commitKeepSet P key fault s leaves seq = (s', .ok ())) (hm : s'.slot.manifest = some m) :
    m.Ordered := by
  unfold commitKeepSet at h
  dsimp only at h
  rcases hp : opPutManifest P.crypto s.slot fault (deriveId P.crypto key.verifyingKey)
      key.publicKeyHex (some (buildManifest P.crypto (leaves.map fun x => ManifestLeaf.mk x.1 x.2)
        (deriveId P.crypto key.verifyingKey) key seq)) with ⟨slot, res⟩
  rw [hp] at h
  rcases opPutManifest_cases hp with ⟨-, e, rfl⟩ | ⟨m', _, hbody, -, -, -, hverify, -, rfl, rfl⟩
  · simp at h
  · simp only [Prod.mk.injEq] at h
    obtain ⟨rfl, -⟩ := h
    obtain rfl := Option.some.inj hbody
    obtain rfl := Option.some.inj hm
    exact ordered_of_verify hverify

lemma ordered_of_commitFrontier {proposal : Proposal}
    (h : commitFrontier P key fault s proposal = (s', .ok ())) (hm : s'.slot.manifest = some m) :
    m.Ordered := by
  unfold commitFrontier at h
  dsimp only at h
  rcases hp : opPutManifest P.crypto s.slot fault (deriveId P.crypto key.verifyingKey)
      key.publicKeyHex (some (buildManifestWithHeads P.crypto
        (proposal.leaves.map fun x => ManifestLeaf.mk x.1 x.2)
        (deriveId P.crypto key.verifyingKey) key proposal.seq proposal.heads)) with ⟨slot, res⟩
  rw [hp] at h
  rcases opPutManifest_cases hp with ⟨-, e, rfl⟩ | ⟨m', _, hbody, -, -, -, hverify, -, rfl, rfl⟩
  · simp at h
  · simp only [Prod.mk.injEq] at h
    obtain ⟨rfl, -⟩ := h
    obtain rfl := Option.some.inj hbody
    obtain rfl := Option.some.inj hm
    exact ordered_of_verify hverify

/-- The leaves a device proposes when no other device has a head: the blobs of its push and its
own head. -/
lemma proposeCommit_alone {verifier : VerifyingKey} {b : Pending} {proposal : Proposal}
    (halone : ∀ other ∈ s.heads, other = b.deviceId)
    (h : proposeCommit P verifier b s s.frontier = .ok proposal) :
    proposal.leaves = (((∅ : Leaves).insertMany b.needed).insert b.headCid b.headLen).toList := by
  unfold proposeCommit at h
  obtain ⟨leaves, hloop, h⟩ := bind_eq_ok.mp h
  obtain rfl := Except.ok.inj h
  have hskip : ∀ (l : List (String × String)), (∀ x ∈ l, x.1 = b.deviceId) → ∀ (leaves : Leaves),
      l.foldlM (fun leaves x => if x.1 = b.deviceId then pure leaves
        else extendWithHeadClosure P s verifier x.2 leaves) leaves = .ok leaves := by
    intro l hl leaves
    induction l with
    | nil => rfl
    | cons x l ih =>
        rw [List.foldlM_cons, if_pos (hl x (by simp))]
        exact ih fun y hy => hl y (List.mem_cons_of_mem _ hy)
  rw [hskip _ ?_] at hloop
  · rw [Except.ok.inj hloop]
  · intro x hx
    have hmem := Std.ExtTreeMap.mem_toList_iff_getElem?_eq_some.mp hx
    rw [Std.ExtTreeMap.getElem?_insert] at hmem
    split at hmem
    · rename_i heq
      exact (Std.LawfulEqCmp.eq_of_compare heq).symm
    · apply halone
      rw [Std.ExtTreeMap.mem_iff_isSome_getElem?]
      exact Option.isSome_iff_exists.mpr ⟨_, hmem⟩

end

section

variable {P : Platform} {s : SyncServer} {m : Manifest} {tree : FsManifest} {bytes : Bytes}
  {opened : Bool} {i : Install P} {cid : String} {n : Nat}

/-- A manifest that lists the blobs of a tree, and besides only blobs that are no fs-manifest. -/
lemma selects_iff_not_shadowed (hP : P.Lawful) (hm : s.slot.manifest = some m)
    (hordered : m.Ordered) (hholds : s.HoldsLeaves P m) (hkind : tree.kind = fsManifestKind)
    (henc : tree.encode P.codec = .ok bytes) (other : String → Prop)
    (hother : ∀ b, other (P.crypto.sha256Hex b) → ¬OpensAs P b)
    (hlists : ∀ cid, m.Lists cid ↔ (∃ n, (cid, n) ∈ distinctChunks tree) ∨
      cid = P.crypto.sha256Hex bytes ∨ other cid) :
    Selects P s (P.crypto.sha256Hex bytes) ↔ ¬Shadowed P tree := by
  have hopens : OpensAs P bytes := by
    obtain ⟨b, hb, hdec⟩ := treeNamed_of_encode hP hkind henc
    obtain rfl := hP.sha256Hex_injective hb
    rw [OpensAs, hdec]
    rfl
  rw [selects_iff hP hm hordered hholds ((hlists _).mpr (Or.inr (Or.inl rfl))) hopens]
  constructor
  · rintro hfirst ⟨bytes', henc', path, entry, he, c, hc, piece, hsha, hopen, hbefore⟩
    obtain rfl : bytes' = bytes := Except.ok.inj (henc'.symm.trans henc)
    refine hfirst piece ((hlists _).mpr (Or.inl ?_)) hopen hbefore
    exact mem_distinctChunks.mpr ⟨path, entry, he, c, hc, hsha.symm⟩
  · intro hnot b hb hopen hbefore
    rcases (hlists _).mp hb with hchunk | hsame | hb
    · obtain ⟨path, entry, he, c, hc, hcid⟩ := mem_distinctChunks.mp hchunk
      exact hnot ⟨bytes, henc, path, entry, he, c, hc, b, hcid.symm, hopen, hbefore⟩
    · obtain rfl := hP.sha256Hex_injective hsame
      rcases hbefore with hlt | ⟨-, hlt⟩
      · exact absurd hlt (lt_irrefl _)
      · exact byteCompare_lt_asymm hlt hlt
    · exact hother b hb hopen

/-- The chunks of a tree are listed with the lengths of their bytes. -/
lemma length_of_mem_distinctChunks (hP : P.Lawful) (hcut : P.CutsWhole)
    (h : (cid, n) ∈ distinctChunks (logicalTreeWith P opened i.device).1) {b : Bytes}
    (hb : P.crypto.sha256Hex b = cid) : b.length = n := by
  obtain ⟨size, hsize⟩ := exists_size hP
  obtain ⟨x, hx, hin⟩ := List.mem_flatMap.mp (firsts_sublist.mem h)
  obtain ⟨c, hc, he⟩ := List.mem_map.mp hin
  obtain ⟨rfl, rfl⟩ := Prod.mk.inj he
  have hread := logicalTreeWith_read i.recorded
    (Std.ExtTreeMap.mem_toList_iff_getElem?_eq_some.mp hx)
  rw [(chunk_len hcut hsize hread hc).1, ← hb, hsize]

lemma getElem?_insertMany {l : List (String × Nat)} {leaves : Leaves}
    (h : (leaves.insertMany l)[cid]? = some n) : leaves[cid]? = some n ∨ (cid, n) ∈ l := by
  induction l generalizing leaves with
  | nil => exact Or.inl (by simpa using h)
  | cons x l ih =>
      rw [Std.ExtTreeMap.insertMany_cons] at h
      rcases ih h with h | h
      · rw [Std.ExtTreeMap.getElem?_insert] at h
        split at h
        · rename_i heq
          obtain rfl := Option.some.inj h
          rw [← Std.LawfulEqCmp.eq_of_compare heq]
          exact Or.inr (by simp)
        · exact Or.inl h
      · exact Or.inr (List.mem_cons_of_mem _ h)

lemma logicalTreeWith_kind : (logicalTreeWith P opened i.device).1.kind = fsManifestKind := by
  unfold logicalTreeWith
  split
  · rfl
  · rfl

end

section

variable {P : Platform} {env : PushEnv} {opened : Bool} {i : Install P} {d' : Device}
  {w w' : Wire} {key : Keypair} {fault : Option PersistError} {deviceId : String}

/-- The search after a plain backup. -/
lemma selects_after_backup (hP : P.Lawful) (hcut : P.CutsWhole) (ha : w.server.Addressed P)
    (htrue : TruthfulHave w.server env.haveSet) {report : BackupReport}
    (h : backup P key env fault opened i.device w = (d', w', .ok report)) :
    Selects P w'.server report.pushed.fsManifestCid ↔
      ¬Shadowed P (logicalTreeWith P opened i.device).1 := by
  have hcomplete := completeBackup_of_backup hP hcut ha htrue h
  unfold backup at h
  rcases hpush : pushOver P env opened i.device w with ⟨d₁, w₁, e | pushed⟩
  · rw [hpush] at h
    simp at h
  rw [hpush] at h
  dsimp only at h
  rcases hc : commitKeepSet P key fault w₁.server pushed.needed
      ((w₁.server.slot.manifest.map Manifest.seq).elim 1 (· + 1)) with ⟨s, e | u⟩
  · rw [hc] at h
    simp at h
  rw [hc] at h
  simp only [Prod.mk.injEq, Except.ok.injEq] at h
  obtain ⟨-, rfl, rfl⟩ := h
  obtain ⟨bytes, henc, hcid, hneeded, -⟩ := pushOver_stored hpush
  rcases commitKeepSet_cases hc with ⟨-, e, he⟩ | ⟨m, rfl, -, -, hleaves⟩
  · simp at he
  have hholds : SyncServer.HoldsLeaves P
      { w₁.server with slot := { w₁.server.slot with manifest := some m } } m := by
    intro leaf hleaf
    have hin := (hleaves leaf).mp hleaf
    obtain ⟨b, hb, hsha⟩ := hcomplete.stored _ hin
    refine ⟨b, hb, hsha, ?_⟩
    rw [hneeded] at hin
    rcases List.mem_append.mp hin with hin | hin
    · exact length_of_mem_distinctChunks hP hcut hin hsha
    · obtain ⟨hcid', hsize⟩ := Prod.mk.inj (List.mem_singleton.mp hin)
      rw [hsize, hP.sha256Hex_injective (hsha.trans (hcid'.trans hcid))]
  dsimp only
  rw [hcid]
  refine selects_iff_not_shadowed hP rfl (ordered_of_commitKeepSet hc rfl) hholds
    logicalTreeWith_kind henc (fun _ => False) (by simp) ?_
  intro cid
  rw [or_false]
  constructor
  · rintro ⟨leaf, hleaf, rfl⟩
    have hin := (hleaves leaf).mp hleaf
    rw [hneeded] at hin
    rcases List.mem_append.mp hin with hin | hin
    · exact Or.inl ⟨_, hin⟩
    · exact Or.inr ((Prod.mk.inj (List.mem_singleton.mp hin)).1.trans hcid)
  · rintro (⟨n, hn⟩ | rfl)
    · refine ⟨⟨cid, n⟩, (hleaves _).mpr ?_, rfl⟩
      rw [hneeded]
      exact List.mem_append_left _ hn
    · refine ⟨⟨P.crypto.sha256Hex bytes, bytes.length⟩, (hleaves _).mpr ?_, rfl⟩
      rw [hneeded, hcid]
      simp

end

section

variable {P : Platform} {env : PushEnv} {i : Install P} {d' : Device} {w w' : Wire}
  {key : Keypair} {fault : Option PersistError} {deviceId : String}

/-- The search after a frontier backup of the account's only device. -/
lemma selects_after_frontier (hP : P.Lawful) (hcut : P.CutsWhole) (hapart : P.codec.HeadsApart)
    (ha : w.server.Addressed P) (htrue : TruthfulHave w.server env.haveSet)
    (halone : ∀ other ∈ w.server.heads, other = deviceId) {report : FrontierReport}
    (h : backupFrontierOver P key env fault deviceId i.device w = (d', w', .ok report)) :
    Selects P w'.server report.pushed.fsManifestCid ↔
      ¬Shadowed P (logicalTreeWith P true i.device).1 := by
  obtain ⟨hcomplete, hhead⟩ := completeBackup_of_frontier hP hcut ha htrue h
  unfold backupFrontierOver at h
  rcases hpush : pushOver P env true i.device w with ⟨d₁, w₁, e | pushed⟩
  · rw [hpush] at h
    simp at h
  rw [hpush] at h
  dsimp only at h
  split at h
  · simp at h
  rename_i headBytes hencode
  have hspec := SyncServer.put_spec (P := P) w₁.server
    (env.refuse w₁.accepted.length (P.crypto.sha256Hex headBytes)) (P.crypto.sha256Hex headBytes)
    headBytes
  unfold Wire.put at h
  rcases hput : w₁.server.put P (env.refuse w₁.accepted.length (P.crypto.sha256Hex headBytes))
      (P.crypto.sha256Hex headBytes) headBytes with ⟨s₂, e | u⟩
  · rw [hput] at h
    simp at h
  rw [hput] at h hspec
  obtain ⟨hgrows, -, -⟩ := hspec
  dsimp only at h
  rcases hloop : commitLoop P key fault ⟨deviceId, pushed.needed, P.crypto.sha256Hex headBytes,
      headBytes.length⟩ maxCommitRetries s₂ with ⟨s₃, e | seq⟩
  · rw [hloop] at h
    simp at h
  rw [hloop] at h
  simp only [Prod.mk.injEq, Except.ok.injEq] at h
  obtain ⟨-, rfl, rfl⟩ := h
  obtain ⟨bytes, henc, hcid, hneeded, hgrows', -⟩ := pushOver_stored hpush
  rcases commitLoop_commits hloop with ⟨-, e, he⟩ | ⟨proposal, hprop, hc, -⟩
  · simp at he
  rcases commitFrontier_cases hc with ⟨-, e, he⟩ | ⟨m, rfl, -, -, -, hleaves, -⟩
  · simp at he
  -- the slot the proposal was made from is the one before the push
  have hleaves' : proposal.leaves = (((∅ : Leaves).insertMany pushed.needed).insert
      (P.crypto.sha256Hex headBytes) headBytes.length).toList := by
    apply proposeCommit_alone ?_ hprop
    intro other ho
    apply halone
    rw [SyncServer.heads, SyncServer.frontier, ← hgrows'.slot, ← hgrows.slot]
    exact ho
  have hleaf : ∀ cid n, (cid, n) ∈ proposal.leaves →
      (cid = P.crypto.sha256Hex headBytes ∧ n = headBytes.length) ∨ (cid, n) ∈ pushed.needed := by
    intro cid n hin
    rw [hleaves', Std.ExtTreeMap.mem_toList_iff_getElem?_eq_some,
      Std.ExtTreeMap.getElem?_insert] at hin
    split at hin
    · rename_i heq
      exact Or.inl ⟨(Std.LawfulEqCmp.eq_of_compare heq).symm, (Option.some.inj hin).symm⟩
    · rcases getElem?_insertMany hin with hin | hin
      · simp at hin
      · exact Or.inr hin
  obtain ⟨hown, hownHead, -⟩ := proposeCommit_lists hP hprop
  have hlists : ∀ cid, (∃ n, (cid, n) ∈ proposal.leaves) → m.Lists cid := by
    rintro cid ⟨n, hn⟩
    exact ⟨⟨cid, n⟩, (hleaves _).mpr hn, rfl⟩
  have hholds : SyncServer.HoldsLeaves P
      { s₂ with slot := { s₂.slot with manifest := some m } } m := by
    intro leaf hmem
    rcases hleaf _ _ ((hleaves leaf).mp hmem) with ⟨hlcid, hsize⟩ | hin
    · obtain ⟨b, hb, hsha⟩ := hhead
      obtain rfl := hP.sha256Hex_injective hsha
      rw [hlcid, hsize]
      exact ⟨b, hb, rfl, rfl⟩
    · obtain ⟨b, hb, hsha⟩ := hcomplete.stored _ hin
      refine ⟨b, hb, hsha, ?_⟩
      rw [hneeded] at hin
      rcases List.mem_append.mp hin with hin | hin
      · exact length_of_mem_distinctChunks hP hcut hin hsha
      · obtain ⟨hcid', hsize⟩ := Prod.mk.inj (List.mem_singleton.mp hin)
        rw [hsize, hP.sha256Hex_injective (hsha.trans (hcid'.trans hcid))]
  dsimp only
  rw [hcid]
  refine selects_iff_not_shadowed hP rfl (ordered_of_commitFrontier hc rfl) hholds
    logicalTreeWith_kind henc (fun cid => cid = P.crypto.sha256Hex headBytes) ?_ ?_
  · intro b hb hopen
    obtain rfl := hP.sha256Hex_injective hb
    rw [OpensAs] at hopen
    rcases hd : FsManifest.decode P.codec b with e | tree
    · rw [hd] at hopen
      simp [Except.isOk, Except.toBool] at hopen
    · obtain ⟨tree', hd', -⟩ := bind_eq_ok.mp hd
      exact hapart _ _ tree' (mapError_eq_ok.mp hencode) (mapError_eq_ok.mp hd')
  · intro cid
    constructor
    · rintro ⟨leaf, hmem, rfl⟩
      rcases hleaf _ _ ((hleaves leaf).mp hmem) with ⟨hlcid, -⟩ | hin
      · exact Or.inr (Or.inr hlcid)
      · rw [hneeded] at hin
        rcases List.mem_append.mp hin with hin | hin
        · exact Or.inl ⟨_, hin⟩
        · exact Or.inr (Or.inl ((Prod.mk.inj (List.mem_singleton.mp hin)).1.trans hcid))
    · rintro (⟨n, hn⟩ | rfl | rfl)
      · apply hlists
        exact hown (cid, n) (by rw [hneeded]; exact List.mem_append_left _ hn)
      · apply hlists
        exact hown (P.crypto.sha256Hex bytes, bytes.length) (by rw [hneeded, hcid]; simp)
      · exact hlists _ hownHead

end

/-- **Cold restore finds the tree that was backed up** exactly when none of the user's own bytes
are in its way.  After a `backup`, or a `backup_frontier` of the account's only device, a restore
that is given no fs-manifest selects the one that was committed if and only if no chunk of the
tree is an fs-manifest that is smaller than the tree's own, or of its size with a smaller
address. -/
theorem restore_selects_iff {P : Platform} (hP : P.Lawful) (hcut : P.CutsWhole)
    (hapart : P.codec.HeadsApart) (key : Keypair) (env : PushEnv) (fault : Option PersistError)
    (i : Install P) (w : Wire) (ha : w.server.Addressed P)
    (htrue : TruthfulHave w.server env.haveSet) :
    (∀ opened d' w' report, backup P key env fault opened i.device w = (d', w', .ok report) →
        (Selects P w'.server report.pushed.fsManifestCid ↔
          ¬Shadowed P (logicalTreeWith P opened i.device).1)) ∧
      ∀ deviceId, (∀ other ∈ w.server.heads, other = deviceId) → ∀ d' w' report,
        backupFrontierOver P key env fault deviceId i.device w = (d', w', .ok report) →
          (Selects P w'.server report.pushed.fsManifestCid ↔
            ¬Shadowed P (logicalTreeWith P true i.device).1) := by
  constructor
  · intro opened d' w' report h
    exact selects_after_backup hP hcut ha htrue h
  · intro deviceId halone d' w' report h
    exact selects_after_frontier hP hcut hapart ha htrue halone h

/-- The serializer tells heads from fs-manifests by their first byte already. -/
lemma dagCbor_headsApart (manifests : List FsManifest) (heads : List DeviceHead) :
    (dagCbor manifests heads).HeadsApart := by
  have hhead : ∀ head : DeviceHead, head.toCbor.head? = some 0xa7 := fun _ => rfl
  have htree : ∀ tree : FsManifest, tree.toCbor.head? = some 0xa2 := fun _ => rfl
  intro head bytes tree he hd
  obtain rfl : head.toCbor = bytes := by
    change encodeAmong DeviceHead.toCbor heads head = .ok bytes at he
    unfold encodeAmong at he
    split at he
    · exact Except.ok.inj he
    · simp at he
  have hsame : tree.toCbor = head.toCbor := by
    change decodeAmong FsManifest.toCbor manifests head.toCbor = .ok tree at hd
    unfold decodeAmong at hd
    split at hd
    · rename_i v hfind
      obtain rfl := Except.ok.inj hd
      simpa using List.find?_some hfind
    · simp at hd
  have hbyte := htree tree
  rw [hsame, hhead] at hbyte
  simp at hbyte

/-- After the backup of the evicted file the search finds its fs-manifest. -/
theorem restore_selects_iff_recovered :
    (∃ report, TwoDevices.recovered.2.2 = .ok report) ∧
      ∀ report, TwoDevices.recovered.2.2 = .ok report →
        (Selects TwoDevices.platform TwoDevices.recovered.2.1.server report.pushed.fsManifestCid ↔
          ¬Shadowed TwoDevices.platform
            (logicalTreeWith TwoDevices.platform true TwoDevices.evicted.device).1) := by
  constructor
  · have h := TwoDevices.recovered_isOk.1
    rcases hr : TwoDevices.recovered.2.2 with e | report
    · rw [hr] at h
      simp [Except.toOption] at h
    · exact ⟨report, rfl⟩
  · have eq_of_result : ∀ (x : Device × Wire × Except SyncError FrontierReport)
        {c : Except SyncError FrontierReport}, x.2.2 = c → x = (x.1, x.2.1, c) := by
      rintro ⟨a, b, c⟩ _ rfl
      rfl
    intro report hr
    refine (restore_selects_iff TwoDevices.lawful TwoDevices.cutsWhole (dagCbor_headsApart _ _)
      TwoDevices.account TwoDevices.bare none TwoDevices.evicted ⟨TwoDevices.init.server, []⟩
      ?_ ?_).2 "dev-b" ?_ TwoDevices.recovered.1 TwoDevices.recovered.2.1 report ?_
    · intro cid b hb
      simp [TwoDevices.init, SyncWorld.init] at hb
    · intro cid hc
      simp [TwoDevices.bare] at hc
    · intro other ho
      simp [TwoDevices.init, SyncWorld.init, SyncServer.heads, SyncServer.frontier] at ho
    · rw [← TwoDevices.recovered]
      exact eq_of_result _ hr

/-! ### A file that is an fs-manifest

The user keeps a copy of an empty tree's fs-manifest, 36 bytes, in a file. -/

namespace Decoy

/-- The content of the file. -/
def content : Bytes := FsManifest.new.toCbor

def contentCid : String := "cd566de37f0feaf01ca8c5753382c4f5fa7883b36f40d77860ead0d682b151bc"

/-- The tree with the file. -/
def tree : FsManifest :=
  treeOf [("f", ⟨420, 1, 0, 36, [⟨contentCid,
    "1157d7afa6d4ab62dd21d3163d8c993cdeb84ed9ae091f219dc53fa012e94da6", 36⟩]⟩)]

def treeCid : String := "bb08a1f4f52b182304b59c087fbbea4d34483a52f877d3efa2eec30cb81a6d05"

/-- What SHA-256 is applied to in the run, and its digests. -/
def digests : List (Bytes × String) :=
  [(TwoDevices.publicKey, "fe812c12f3ab4ce6ac5db69ac352f906cb1b11ef43fb33e252ef7ff552263889"),
    (content, contentCid), (tree.toCbor, treeCid),
    (asBytes (String.join ["leaf:", treeCid, ":176"]),
      "40635fedb505304e2cab0841dfefb2302900a013c950575d702eda226fa00c31"),
    (asBytes (String.join ["leaf:", contentCid, ":36"]),
      "4e39ab34310b29da32ba313496e0a6d44f4b29941319c0fbae9776f8ae29fa72"),
    (asBytes (String.join ["node:",
      "40635fedb505304e2cab0841dfefb2302900a013c950575d702eda226fa00c31", ":",
      "4e39ab34310b29da32ba313496e0a6d44f4b29941319c0fbae9776f8ae29fa72"]),
      "fc5c6eb3577c480df35c32954790c4ab7a0f1ebd89a24ac2b65b5211a1ac5415")]

/-- The manifest of the backup is all the account signs. -/
def sign (message : Bytes) : Bytes :=
  if message = asBytes (String.join ["ciss/v1/manifest:id:",
      "fe812c12f3ab4ce6ac5db69ac352f906cb1b11ef43fb33e252ef7ff552263889", ":1:2:212:",
      "fc5c6eb3577c480df35c32954790c4ab7a0f1ebd89a24ac2b65b5211a1ac5415"]) then
    (hexDecode "233d9515c1582a24742b7d147a7d2858022b0614401ba9b204e8bdfd1a0382e1").getD [] ++
      (hexDecode "86bcdb05c0ed9f3b8a886093a889d0fa348f3db54c3b5c9416cbf526ff4e3b02").getD []
  else []

def platform : Platform where
  crypto :=
    { sha256Hex := tabulatedHash digests
      isPublicKey := fun b => b = TwoDevices.publicKey
      verifyStrict := fun k message signature =>
        k.toBytes = TwoDevices.publicKey && sign message = signature }
  codec := dagCbor [FsManifest.new, tree] []
  cut b := [b]
  blake3Hex _ := "1157d7afa6d4ab62dd21d3163d8c993cdeb84ed9ae091f219dc53fa012e94da6"

def device : Device := TwoDevices.fresh [("f", ⟨420, 1, 0, content⟩)]

/-- The backup of the file to an empty server that answers every put. -/
def backedUp : Device × Wire × Except SyncError BackupReport :=
  backup platform ⟨⟨TwoDevices.publicKey⟩, sign⟩
    ⟨fun _ => false, onDisk device.files, fun _ _ => none, true⟩ none false device
    ⟨⟨∅, ⟨.active, none⟩⟩, []⟩

end Decoy

/-- The backup commits the tree with the file; a restore that is given no fs-manifest takes the
file's content for it, reports success and restores nothing. -/
theorem decoy_is_restored :
    Decoy.backedUp.2.2.toOption.map (fun report => report.pushed.fsManifestCid) =
        some Decoy.treeCid ∧
      (discoverFsManifest Decoy.platform Decoy.backedUp.2.1.server).toOption.map Prod.fst =
        some Decoy.contentCid ∧
      (restore Decoy.platform TwoDevices.env Decoy.backedUp.2.1.server none ∅).2.toOption =
        some ⟨0, 0, 0, Decoy.contentCid⟩ := by
  decide +kernel

end Ciss
