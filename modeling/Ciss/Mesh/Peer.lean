import Ciss.Mesh.Order

/-!
# Two hashes for one blob

A peer names blobs by their SHA-256 addresses and stores them under their BLAKE3 hashes.  What
leads from the one to the other is held twice: in memory, with the providers and whether the blob
is local, and durably, for the next start of the process.

Four places write it, by two rules.  A put overwrites both.  A registration, by an announcement, by
the chunks of a fetched fs-manifest or by `learn`, overwrites the durable alias, and leaves a
mapping that is in memory alone.  So an announcement that names another second hash for a blob that
is held changes nothing until the peer starts again and looks the blob up under it
(`announced_alias_loses_blob`).

`local_blobs_survive` says that every local blob survives a restart, at every point of every run,
as long as the registrations of local blobs agree with what is in memory, what is fetched is
fetched under the durable alias, and the aliases a start takes up lead to the right bytes.
-/

namespace Ciss

/-! ## The index -/

/-- What the peer knows about one address: its second hash, who is believed to hold the blob, and
whether the local store does. -/
structure Mapping where
  blake3 : String
  providers : List String
  isLocal : Bool
  deriving DecidableEq, Repr

/-- A peer with its durable state: the alias table, and the blob store under the second hashes. -/
structure IrohPeer where
  index : Std.ExtTreeMap String Mapping compare
  aliases : Std.ExtTreeMap String String compare
  store : Std.ExtTreeMap String Bytes compare
  slot : SlotState

/-- What surrounds one call. -/
structure PeerEnv where
  /-- The store fails when it is asked whether it holds the blob, when it is read, or written. -/
  hasFault : Option String
  getFault : Option String
  addFault : Option String
  /-- What the providers stream for a hash. -/
  served : String → List String → Option Bytes

namespace IrohPeer

/-- Add a provider to a mapping. -/
def addProvider (m : Mapping) (provider : String) : Mapping :=
  if provider ∈ m.providers then m else { m with providers := m.providers ++ [provider] }

/-- Register (or extend) a mapping: the alias is written through, a mapping that is there keeps its
hash. -/
def registerMapping (cid blake3 : String) (provider : Option String) (peer : IrohPeer) : IrohPeer :=
  let entry := peer.index[cid]?.getD ⟨blake3, [], false⟩
  { peer with
    aliases := peer.aliases.insert cid blake3
    index := peer.index.insert cid (provider.elim entry (addProvider entry)) }

/-- The blob is held from now on. -/
def markLocal (cid : String) (peer : IrohPeer) : IrohPeer :=
  match peer.index[cid]? with
  | some m => { peer with index := peer.index.insert cid { m with isLocal := true } }
  | none => peer

/-- Store bytes under their address. -/
def put (P : Platform) (env : PeerEnv) (cid : String) (bytes : Bytes) (peer : IrohPeer) :
    IrohPeer × Except SyncError Unit :=
  match verifyServerCid cid (P.crypto.sha256Hex bytes), env.addFault with
  | .error e, _ => (peer, .error e)
  | .ok (), some text => (peer, .error (.transport text))
  | .ok (), none =>
      let blake3 := P.blake3Hex bytes
      let entry := peer.index[cid]?.getD ⟨blake3, [], true⟩
      ({ peer with
        store := peer.store.insertIfNew blake3 bytes
        aliases := peer.aliases.insert cid blake3
        index := peer.index.insert cid { entry with blake3 := blake3, isLocal := true } }, .ok ())

/-- Make sure that the store holds what a mapping names; what is streamed is verified against the
second hash. -/
def download (P : Platform) (env : PeerEnv) (cid : String) (m : Mapping) (peer : IrohPeer) :
    IrohPeer × Except SyncError Unit :=
  if peer.store.contains m.blake3 then (peer, .ok ())
  else
    match env.served m.blake3 m.providers with
    | none => (peer, .error (.transport (String.join ["iroh download ", cid])))
    | some bytes =>
        if P.blake3Hex bytes = m.blake3 then
          ({ peer with store := peer.store.insertIfNew m.blake3 bytes }, .ok ())
        else (peer, .error (.transport (String.join ["iroh download ", cid])))

/-- Read the bytes at an address, from the store or from the providers. -/
def get (P : Platform) (env : PeerEnv) (cid : String) (peer : IrohPeer) :
    IrohPeer × Except SyncError Bytes :=
  match peer.index[cid]? with
  | none => (peer, .error (.transport (String.join ["no sha256→blake3 mapping for ", cid])))
  | some m =>
      match env.hasFault with
      | some text => (peer, .error (.transport text))
      | none =>
          match peer.download P env cid m with
          | (peer, .error e) => (peer, .error e)
          | (peer, .ok ()) =>
              match env.getFault, peer.store[m.blake3]? with
              | some text, _ => (peer, .error (.transport text))
              | none, none => (peer, .error (.transport (String.join ["iroh get_bytes ", cid])))
              | none, some bytes =>
                  match verifyServerCid cid (P.crypto.sha256Hex bytes) with
                  | .error e => (peer, .error e)
                  | .ok () => (peer.markLocal cid, .ok bytes)

/-- The chunks of a tree, file by file. -/
def chunksOf (tree : FsManifest) : List ChunkRef :=
  tree.entries.toList.flatMap fun x => x.2.chunks

/-- Add providers to the mapping of an address. -/
def addProviders (cid : String) (providers : List String) (peer : IrohPeer) : IrohPeer :=
  match peer.index[cid]? with
  | some m => { peer with index := peer.index.insert cid (providers.foldl addProvider m) }
  | none => peer

/-- Register a chunk, with the providers of the tree that names it. -/
def primeChunk (providers : List String) (peer : IrohPeer) (c : ChunkRef) : IrohPeer :=
  (peer.registerMapping c.sha256 c.blake3 none).addProviders c.sha256 providers

/-- `MeshPeer::get`: a fetched fs-manifest teaches the second hashes of its chunks. -/
def getPriming (P : Platform) (env : PeerEnv) (cid : String) (peer : IrohPeer) :
    IrohPeer × Except SyncError Bytes :=
  match peer.get P env cid with
  | (peer, .error e) => (peer, .error e)
  | (peer, .ok bytes) =>
      match FsManifest.decode P.codec bytes with
      | .error _ => (peer, .ok bytes)
      | .ok tree =>
          let providers := (peer.index[cid]?.map Mapping.providers).getD []
          ((chunksOf tree).foldl (primeChunk providers) peer, .ok bytes)

/-- Ingest one announcement: the two mappings, and the frontier entry. -/
def ingest (ann : Announcement) (peer : IrohPeer) : IrohPeer :=
  let peer := peer.registerMapping ann.headSha256 ann.headBlake3 (some ann.addr)
  let peer := peer.registerMapping ann.fsRootSha256 ann.fsRootBlake3 (some ann.addr)
  { peer with
    slot := (mergeAnnouncement peer.slot ann.deviceId ann.counter ann.headSha256).1 }

/-- The receive loop with one announcement; one of another kind is ignored. -/
def hear (ann : Announcement) (peer : IrohPeer) : IrohPeer :=
  if ann.kind ≠ announceKind then peer else peer.ingest ann

/-- The index of a start: every durable alias, local if the store holds it. -/
def rehydrate (peer : IrohPeer) : IrohPeer where
  index := peer.aliases.map fun _ blake3 => ⟨blake3, [], peer.store.contains blake3⟩
  aliases := peer.aliases
  store := peer.store
  slot := .default

/-- A peer whose state root is new. -/
def new : IrohPeer := ⟨∅, ∅, ∅, .default⟩

end IrohPeer

/-! ## Runs of a peer -/

/-- What happens to a peer. -/
inductive PeerAction where
  | put (env : PeerEnv) (cid : String) (bytes : Bytes)
  | get (env : PeerEnv) (cid : String)
  | hear (ann : Announcement)
  /-- `learn`. -/
  | learn (cid blake3 : String) (provider : String)
  /-- The process ends, and starts again. -/
  | restart

/-- One step. -/
def IrohPeer.step (P : Platform) (peer : IrohPeer) : PeerAction → IrohPeer
  | .put env cid bytes => (peer.put P env cid bytes).1
  | .get env cid => (peer.getPriming P env cid).1
  | .hear ann => peer.hear ann
  | .learn cid blake3 provider => peer.registerMapping cid blake3 (some provider)
  | .restart => peer.rehydrate

/-- The blob is local. -/
def IrohPeer.Holds (peer : IrohPeer) (cid : String) : Prop :=
  ∃ m, peer.index[cid]? = some m ∧ m.isLocal = true

/-- Every local blob is local after a restart, under an alias whose stored bytes hash to its
address. -/
def IrohPeer.Survives (P : Platform) (peer : IrohPeer) : Prop :=
  ∀ cid, peer.Holds cid → ∃ m bytes, peer.rehydrate.index[cid]? = some m ∧ m.isLocal = true ∧
    peer.rehydrate.store[m.blake3]? = some bytes ∧ P.crypto.sha256Hex bytes = cid

/-- A registration leaves a local blob its second hash. -/
def IrohPeer.Agrees (peer : IrohPeer) (cid blake3 : String) : Prop :=
  ∀ m, peer.index[cid]? = some m → m.isLocal = true → m.blake3 = blake3

/-- **What a step must not do**: register another second hash for a local blob, make a blob local
that is registered under another second hash durably, ask for a tree that names another second hash
for a local chunk, whether or not the tree is fetched, or start with an alias of a blob that is not
local and whose stored bytes are not the blob's. -/
def LeavesAliases (P : Platform) (peer : IrohPeer) : PeerAction → Prop
  | .put _ _ _ => True
  | .get _ cid =>
      (∀ m, peer.index[cid]? = some m → peer.aliases[cid]? = some m.blake3) ∧
        ∀ tree, TreeNamed P cid tree → ∀ c ∈ IrohPeer.chunksOf tree,
          peer.Agrees c.sha256 c.blake3 ∧
            (c.sha256 = cid → ∀ m, peer.index[cid]? = some m → m.blake3 = c.blake3)
  | .hear ann => ann.kind = announceKind → peer.Agrees ann.headSha256 ann.headBlake3 ∧
      peer.Agrees ann.fsRootSha256 ann.fsRootBlake3
  | .learn cid blake3 _ => peer.Agrees cid blake3
  | .restart => ∀ cid blake3 bytes, ¬ peer.Holds cid → peer.aliases[cid]? = some blake3 →
      peer.store[blake3]? = some bytes → P.crypto.sha256Hex bytes = cid

/-! ## What a step does to the aliases -/

/-- Stored bytes stand under their second hash, and a local blob is stored under the hash that its
mapping and its durable alias name. -/
structure IrohPeer.Sound (P : Platform) (peer : IrohPeer) : Prop where
  addressed : ∀ (blake3 : String) (bytes : Bytes), peer.store[blake3]? = some bytes →
    P.blake3Hex bytes = blake3
  held : ∀ (cid : String) (m : Mapping), peer.index[cid]? = some m → m.isLocal = true →
    peer.aliases[cid]? = some m.blake3 ∧
      ∃ bytes, peer.store[m.blake3]? = some bytes ∧ P.crypto.sha256Hex bytes = cid

namespace IrohPeer

section

variable {P : Platform} {peer peer' : IrohPeer} {cid cid' blake3 blake3' : String} {m m' : Mapping}
  {bytes : Bytes} {env : PeerEnv} {provider : Option String} {providers : List String}

@[simp] lemma addProvider_blake3 {p : String} : (addProvider m p).blake3 = m.blake3 := by
  unfold addProvider
  split
  · rfl
  · rfl

@[simp] lemma addProvider_isLocal {p : String} : (addProvider m p).isLocal = m.isLocal := by
  unfold addProvider
  split
  · rfl
  · rfl

lemma foldl_addProvider : (providers.foldl addProvider m).blake3 = m.blake3 ∧
    (providers.foldl addProvider m).isLocal = m.isLocal := by
  induction providers generalizing m with
  | nil => exact ⟨rfl, rfl⟩
  | cons p providers ih =>
      obtain ⟨hb, hl⟩ := ih (m := addProvider m p)
      exact ⟨hb.trans addProvider_blake3, hl.trans addProvider_isLocal⟩

/-- A registration extends the mapping that is there, or makes one of a blob that is not local. -/
lemma registerMapping_index (h : (peer.registerMapping cid blake3 provider).index[cid']? = some m') :
    (∃ m, peer.index[cid']? = some m ∧ m'.blake3 = m.blake3 ∧ m'.isLocal = m.isLocal) ∨
      (cid' = cid ∧ m'.blake3 = blake3 ∧ m'.isLocal = false) := by
  dsimp only [registerMapping] at h
  rw [Std.ExtTreeMap.getElem?_insert] at h
  split at h
  · rename_i heq
    obtain rfl := Std.LawfulEqCmp.eq_of_compare heq
    obtain rfl := Option.some.inj h
    rcases hm : peer.index[cid]? with _ | m
    · refine Or.inr ⟨rfl, ?_⟩
      cases provider with
      | none => exact ⟨rfl, rfl⟩
      | some p => exact ⟨addProvider_blake3, addProvider_isLocal⟩
    · refine Or.inl ⟨m, rfl, ?_⟩
      cases provider with
      | none => exact ⟨rfl, rfl⟩
      | some p => exact ⟨addProvider_blake3, addProvider_isLocal⟩
  · exact Or.inl ⟨m', h, rfl, rfl⟩

lemma Agrees.registerMapping (h : peer.Agrees cid' blake3') :
    (peer.registerMapping cid blake3 provider).Agrees cid' blake3' := by
  intro m' hm' hlocal
  obtain ⟨m, hm, hblake3, hl⟩ | ⟨-, -, hl⟩ := registerMapping_index hm'
  · rw [hblake3]
    exact h m hm (hl ▸ hlocal)
  · rw [hl] at hlocal
    simp at hlocal

/-- A registration that agrees keeps the peer sound. -/
lemma Sound.registerMapping (h : peer.Sound P) (ha : peer.Agrees cid blake3) :
    (peer.registerMapping cid blake3 provider).Sound P := by
  refine ⟨h.addressed, ?_⟩
  intro cid' m' hm' hlocal
  obtain ⟨m, hm, hblake3, hl⟩ | ⟨-, -, hl⟩ := registerMapping_index hm'
  · rw [hl] at hlocal
    obtain ⟨halias, hbytes⟩ := h.held cid' m hm hlocal
    rw [hblake3]
    refine ⟨?_, hbytes⟩
    change (peer.aliases.insert cid blake3)[cid']? = _
    rw [Std.ExtTreeMap.getElem?_insert]
    split
    · rename_i heq
      obtain rfl := Std.LawfulEqCmp.eq_of_compare heq
      rw [ha m hm hlocal]
    · exact halias
  · rw [hl] at hlocal
    simp at hlocal

/-- What is known of the addresses is extended by providers. -/
lemma addProviders_index (h : (peer.addProviders cid providers).index[cid']? = some m') :
    ∃ m, peer.index[cid']? = some m ∧ m'.blake3 = m.blake3 ∧ m'.isLocal = m.isLocal := by
  unfold addProviders at h
  rcases hm : peer.index[cid]? with _ | m
  · rw [hm] at h
    exact ⟨m', h, rfl, rfl⟩
  · rw [hm] at h
    dsimp only at h
    rw [Std.ExtTreeMap.getElem?_insert] at h
    split at h
    · rename_i heq
      obtain rfl := Std.LawfulEqCmp.eq_of_compare heq
      obtain rfl := Option.some.inj h
      exact ⟨m, hm, foldl_addProvider⟩
    · exact ⟨m', h, rfl, rfl⟩

lemma addProviders_durable : (peer.addProviders cid providers).aliases = peer.aliases ∧
    (peer.addProviders cid providers).store = peer.store := by
  unfold addProviders
  split
  · exact ⟨rfl, rfl⟩
  · exact ⟨rfl, rfl⟩

lemma Sound.addProviders (h : peer.Sound P) : (peer.addProviders cid providers).Sound P := by
  obtain ⟨haliases, hstore⟩ : (peer.addProviders cid providers).aliases = peer.aliases ∧
      (peer.addProviders cid providers).store = peer.store := addProviders_durable
  refine ⟨hstore ▸ h.addressed, ?_⟩
  intro cid' m' hm' hlocal
  obtain ⟨m, hm, hblake3, hl⟩ := addProviders_index hm'
  rw [hblake3, haliases, hstore]
  exact h.held cid' m hm (hl ▸ hlocal)

lemma Agrees.addProviders (h : peer.Agrees cid' blake3') :
    (peer.addProviders cid providers).Agrees cid' blake3' := by
  intro m' hm' hlocal
  obtain ⟨m, hm, hblake3, hl⟩ := addProviders_index hm'
  rw [hblake3]
  exact h m hm (hl ▸ hlocal)

/-- The chunks of a fetched tree are registered one after the other. -/
lemma Sound.primeChunks {chunks : List ChunkRef} (h : peer.Sound P)
    (ha : ∀ c ∈ chunks, peer.Agrees c.sha256 c.blake3) :
    (chunks.foldl (primeChunk providers) peer).Sound P := by
  induction chunks generalizing peer with
  | nil => exact h
  | cons c chunks ih =>
      refine ih (h.registerMapping (ha c List.mem_cons_self)).addProviders ?_
      intro c' hc'
      exact (ha c' (List.mem_cons_of_mem _ hc')).registerMapping.addProviders

/-- The store may have gained bytes under their second hash; nothing else has changed. -/
def Stores (P : Platform) (peer peer' : IrohPeer) : Prop :=
  peer' = peer ∨ ∃ blake3 bytes, P.blake3Hex bytes = blake3 ∧
    peer' = { peer with store := peer.store.insertIfNew blake3 bytes }

lemma Stores.refl : peer.Stores P peer := Or.inl rfl

lemma Stores.index (h : peer.Stores P peer') : peer'.index = peer.index := by
  obtain rfl | ⟨blake3, bytes, -, rfl⟩ := h
  · rfl
  · rfl

lemma Stores.aliases (h : peer.Stores P peer') : peer'.aliases = peer.aliases := by
  obtain rfl | ⟨blake3, bytes, -, rfl⟩ := h
  · rfl
  · rfl

/-- What is streamed was verified. -/
lemma download_stores {r : Except SyncError Unit} (h : peer.download P env cid m = (peer', r)) :
    peer.Stores P peer' := by
  unfold download at h
  split at h
  · obtain ⟨rfl, -⟩ := Prod.mk.inj h
    exact Stores.refl
  · split at h
    · obtain ⟨rfl, -⟩ := Prod.mk.inj h
      exact Stores.refl
    · split at h
      · rename_i bytes _ hblake3
        obtain ⟨rfl, -⟩ := Prod.mk.inj h
        exact Or.inr ⟨m.blake3, bytes, hblake3, rfl⟩
      · obtain ⟨rfl, -⟩ := Prod.mk.inj h
        exact Stores.refl

/-- What is in the store stays. -/
lemma getElem?_insertIfNew_of_some {store : Std.ExtTreeMap String Bytes compare} {bytes' : Bytes}
    (h : store[blake3']? = some bytes') :
    (store.insertIfNew blake3 bytes)[blake3']? = some bytes' := by
  rw [Std.ExtTreeMap.getElem?_insertIfNew]
  split
  · rename_i hnew
    obtain ⟨heq, hnew⟩ := hnew
    rw [Std.LawfulEqCmp.eq_of_compare heq, Std.ExtTreeMap.mem_iff_isSome_getElem?, h] at hnew
    simp at hnew
  · exact h

/-- Bytes added under their second hash keep the peer sound. -/
lemma Sound.addBytes (h : peer.Sound P) (hblake3 : P.blake3Hex bytes = blake3) :
    Sound P { peer with store := peer.store.insertIfNew blake3 bytes } := by
  refine ⟨?_, ?_⟩
  · intro b bytes' hb
    dsimp only at hb
    rw [Std.ExtTreeMap.getElem?_insertIfNew] at hb
    split at hb
    · rename_i hnew
      obtain rfl := Option.some.inj hb
      rw [hblake3, Std.LawfulEqCmp.eq_of_compare hnew.1]
    · exact h.addressed b bytes' hb
  · intro cid m hm hlocal
    obtain ⟨halias, bytes', hbytes', hsha⟩ := h.held cid m hm hlocal
    exact ⟨halias, bytes', getElem?_insertIfNew_of_some hbytes', hsha⟩

lemma Sound.stores (h : peer.Sound P) (hs : peer.Stores P peer') : peer'.Sound P := by
  obtain rfl | ⟨blake3, bytes, hb, rfl⟩ := hs
  · exact h
  · exact h.addBytes hb

end

end IrohPeer

namespace IrohPeer

section

variable {P : Platform} {peer peer' : IrohPeer} {cid cid' blake3 : String} {m : Mapping}
  {bytes : Bytes} {env : PeerEnv}

/-- Bytes that were there under the same hash are the same bytes. -/
lemma getElem?_insertIfNew_self (hblake3 : Function.Injective P.blake3Hex) (h : peer.Sound P) :
    (peer.store.insertIfNew (P.blake3Hex bytes) bytes)[P.blake3Hex bytes]? = some bytes := by
  rcases hold : peer.store[P.blake3Hex bytes]? with _ | bytes'
  · rw [Std.ExtTreeMap.getElem?_insertIfNew, if_pos]
    refine ⟨by simp, ?_⟩
    rw [Std.ExtTreeMap.mem_iff_isSome_getElem?, hold]
    simp
  · obtain rfl := hblake3 (h.addressed _ _ hold)
    exact getElem?_insertIfNew_of_some hold

lemma Sound.put (hblake3 : Function.Injective P.blake3Hex) (h : peer.Sound P) :
    (peer.put P env cid bytes).1.Sound P := by
  unfold IrohPeer.put
  split
  · exact h
  · exact h
  · rename_i hcid _
    have hsha : P.crypto.sha256Hex bytes = cid := (verifyServerCid_eq_ok hcid).symm
    have hadded := h.addBytes (rfl : P.blake3Hex bytes = _)
    refine ⟨hadded.addressed, ?_⟩
    intro cid' m' hm' hlocal
    dsimp only at hm' ⊢
    rw [Std.ExtTreeMap.getElem?_insert] at hm' ⊢
    split at hm'
    · rename_i heq
      obtain rfl := Std.LawfulEqCmp.eq_of_compare heq
      obtain rfl := Option.some.inj hm'
      rw [if_pos heq]
      exact ⟨rfl, bytes, getElem?_insertIfNew_self hblake3 h, hsha⟩
    · rename_i hne
      rw [if_neg hne]
      exact hadded.held cid' m' hm' hlocal

/-- **What a fetch can do.**  The peer may have downloaded; if bytes are returned, they have the
address, are stored under the hash of its mapping, and the address is local from now on. -/
lemma get_cases {r : Except SyncError Bytes} (h : peer.get P env cid = (peer', r)) :
    (∃ e, r = .error e ∧ peer.Stores P peer') ∨
      ∃ m bytes mid, r = .ok bytes ∧ P.crypto.sha256Hex bytes = cid ∧ peer.index[cid]? = some m ∧
        peer.Stores P mid ∧ mid.store[m.blake3]? = some bytes ∧
        peer' = { mid with index := peer.index.insert cid { m with isLocal := true } } := by
  unfold IrohPeer.get at h
  rcases hm : peer.index[cid]? with _ | m
  · rw [hm] at h
    obtain ⟨rfl, rfl⟩ := Prod.mk.inj h
    exact Or.inl ⟨_, rfl, Stores.refl⟩
  rw [hm] at h
  dsimp only at h
  split at h
  · obtain ⟨rfl, rfl⟩ := Prod.mk.inj h
    exact Or.inl ⟨_, rfl, Stores.refl⟩
  rcases hd : peer.download P env cid m with ⟨mid, r'⟩
  rw [hd] at h
  have hmid : peer.Stores P mid := download_stores hd
  have hfail : ∀ e, (mid, Except.error e) = (peer', r) → ∃ e, r = .error e ∧ peer.Stores P peer' := by
    intro e he
    obtain ⟨rfl, rfl⟩ := Prod.mk.inj he
    exact ⟨e, rfl, hmid⟩
  rcases r' with e | u
  · exact Or.inl (hfail e h)
  dsimp only at h
  split at h
  · exact Or.inl (hfail _ h)
  · exact Or.inl (hfail _ h)
  · rename_i bytes _ hbytes
    split at h
    · exact Or.inl (hfail _ h)
    · rename_i hcid
      obtain ⟨rfl, rfl⟩ := Prod.mk.inj h
      refine Or.inr ⟨m, bytes, mid, rfl, (verifyServerCid_eq_ok hcid).symm, rfl, hmid, hbytes, ?_⟩
      unfold markLocal
      rw [hmid.index, hm]

/-- A fetch under the durable alias keeps the peer sound, and so do the registrations of the chunks
of what is fetched, if they agree. -/
lemma Sound.getPriming (h : peer.Sound P)
    (halias : ∀ m, peer.index[cid]? = some m → peer.aliases[cid]? = some m.blake3)
    (hchunks : ∀ tree, TreeNamed P cid tree → ∀ c ∈ chunksOf tree, peer.Agrees c.sha256 c.blake3 ∧
      (c.sha256 = cid → ∀ m, peer.index[cid]? = some m → m.blake3 = c.blake3)) :
    (peer.getPriming P env cid).1.Sound P := by
  unfold IrohPeer.getPriming
  rcases hget : peer.get P env cid with ⟨peer', r⟩
  obtain ⟨e, rfl, hstores⟩ | ⟨m, bytes, mid, rfl, hsha, hm, hmid, hbytes, rfl⟩ := get_cases hget
  · exact h.stores hstores
  have hsound := h.stores hmid
  have hfetched : Sound P { mid with index := peer.index.insert cid { m with isLocal := true } } := by
    refine ⟨hsound.addressed, ?_⟩
    intro cid' m' hm' hlocal
    dsimp only at hm' ⊢
    rw [Std.ExtTreeMap.getElem?_insert] at hm'
    split at hm'
    · rename_i heq
      obtain rfl := Std.LawfulEqCmp.eq_of_compare heq
      obtain rfl := Option.some.inj hm'
      exact ⟨hmid.aliases ▸ halias m hm, bytes, hbytes, hsha⟩
    · exact hsound.held cid' m' (hmid.index ▸ hm') hlocal
  dsimp only
  rcases hdec : FsManifest.decode P.codec bytes with e | tree
  · exact hfetched
  · refine hfetched.primeChunks ?_
    intro c hc m' hm' hlocal
    obtain ⟨hagrees, hself⟩ := hchunks tree ⟨bytes, hsha, hdec⟩ c hc
    dsimp only at hm'
    rw [Std.ExtTreeMap.getElem?_insert] at hm'
    split at hm'
    · rename_i heq
      obtain rfl := Option.some.inj hm'
      exact hself (Std.LawfulEqCmp.eq_of_compare heq).symm m hm
    · exact hagrees m' hm' hlocal

/-- What a start takes from an alias. -/
lemma rehydrate_index (halias : peer.aliases[cid]? = some blake3) :
    peer.rehydrate.index[cid]? = some ⟨blake3, [], peer.store.contains blake3⟩ := by
  simp [rehydrate, halias]

lemma Sound.rehydrate (h : peer.Sound P)
    (hstart : ∀ cid blake3 bytes, ¬ peer.Holds cid → peer.aliases[cid]? = some blake3 →
      peer.store[blake3]? = some bytes → P.crypto.sha256Hex bytes = cid) :
    peer.rehydrate.Sound P := by
  refine ⟨h.addressed, ?_⟩
  intro cid m hm hlocal
  obtain ⟨blake3, halias⟩ : ∃ blake3, peer.aliases[cid]? = some blake3 := by
    rcases ha : peer.aliases[cid]? with _ | blake3
    · simp [IrohPeer.rehydrate, ha] at hm
    · exact ⟨blake3, rfl⟩
  rw [rehydrate_index halias] at hm
  obtain rfl := Option.some.inj hm
  refine ⟨halias, ?_⟩
  obtain ⟨bytes, hbytes⟩ : ∃ bytes, peer.store[blake3]? = some bytes := by
    apply Option.isSome_iff_exists.mp
    rw [← Std.ExtTreeMap.mem_iff_isSome_getElem?]
    exact Std.ExtTreeMap.mem_iff_contains.mpr hlocal
  refine ⟨bytes, hbytes, ?_⟩
  by_cases hheld : peer.Holds cid
  · obtain ⟨m, hm, hl⟩ := hheld
    obtain ⟨halias', bytes', hbytes', hsha⟩ := h.held cid m hm hl
    rw [halias] at halias'
    rw [← Option.some.inj halias', hbytes] at hbytes'
    rw [Option.some.inj hbytes']
    exact hsha
  · exact hstart cid blake3 bytes hheld halias hbytes

/-- A sound peer keeps what is local over a restart. -/
lemma Sound.survives (h : peer.Sound P) : peer.Survives P := by
  rintro cid ⟨m, hm, hlocal⟩
  obtain ⟨halias, bytes, hbytes, hsha⟩ := h.held cid m hm hlocal
  refine ⟨_, bytes, rehydrate_index halias, ?_, hbytes, hsha⟩
  apply Std.ExtTreeMap.mem_iff_contains.mp
  rw [Std.ExtTreeMap.mem_iff_isSome_getElem?, hbytes]
  rfl

/-- An announcement whose two second hashes agree keeps the peer sound. -/
lemma Sound.hear {ann : Announcement} (h : peer.Sound P)
    (ha : ann.kind = announceKind → peer.Agrees ann.headSha256 ann.headBlake3 ∧
      peer.Agrees ann.fsRootSha256 ann.fsRootBlake3) : (peer.hear ann).Sound P := by
  unfold IrohPeer.hear
  split
  · exact h
  · rename_i hkind
    obtain ⟨hhead, hroot⟩ := ha (not_not.mp hkind)
    have hfirst : (peer.registerMapping ann.headSha256 ann.headBlake3 (some ann.addr)).Sound P :=
      h.registerMapping hhead
    have hsecond : ((peer.registerMapping ann.headSha256 ann.headBlake3
        (some ann.addr)).registerMapping ann.fsRootSha256 ann.fsRootBlake3
        (some ann.addr)).Sound P := hfirst.registerMapping hroot.registerMapping
    exact ⟨hsecond.addressed, hsecond.held⟩

/-- **One step keeps the peer sound.** -/
lemma Sound.step (hblake3 : Function.Injective P.blake3Hex) (h : peer.Sound P) {a : PeerAction}
    (ha : LeavesAliases P peer a) : (peer.step P a).Sound P := by
  cases a with
  | put env cid bytes => exact h.put hblake3
  | get env cid => exact h.getPriming ha.1 ha.2
  | hear ann => exact h.hear ha
  | learn cid blake3 provider => exact h.registerMapping ha
  | restart => exact h.rehydrate ha

end

end IrohPeer

/-- **Local blobs survive a restart**, in every state that a peer reaches, from a new state root, by
a run whose steps leave the aliases of local blobs alone; the run may contain restarts itself. -/
theorem local_blobs_survive {P : Platform} (hblake3 : Function.Injective P.blake3Hex)
    (acts : List PeerAction) (h : Along (IrohPeer.step P) (LeavesAliases P) .new acts) :
    (run (IrohPeer.step P) .new acts).Survives P := by
  have hnew : IrohPeer.new.Sound P := by
    refine ⟨?_, ?_⟩
    · intro blake3 bytes hb
      simp [IrohPeer.new] at hb
    · intro cid m hm
      simp [IrohPeer.new] at hm
  exact (run_invariant (fun _ _ hpeer ha => hpeer.step hblake3 ha) hnew h).survives

/-! ## The blobs of a peer -/

/-- The blobs that are local, by their addresses. -/
def IrohPeer.Shows (peer : IrohPeer) (blobs : ByCid Bytes) : Prop :=
  ∀ cid : String, blobs[cid]? =
    (peer.index[cid]?.filter Mapping.isLocal).bind fun m => peer.store[m.blake3]?

/-- **The put of `MeshNode`**, which keeps blobs by their addresses, is the put of a sound peer, as
far as its local blobs go. -/
theorem put_shows {P : Platform} (hblake3 : Function.Injective P.blake3Hex) {peer : IrohPeer}
    {node : MeshNode} (h : peer.Sound P) (hshows : peer.Shows node.blobs) (env : PeerEnv)
    (cid : String) (bytes : Bytes) :
    (peer.put P env cid bytes).1.Shows (node.put P env.addFault cid bytes).1.blobs ∧
      (peer.put P env cid bytes).2 = (node.put P env.addFault cid bytes).2 := by
  unfold IrohPeer.put MeshNode.put
  rcases verifyServerCid cid (P.crypto.sha256Hex bytes) with e | u
  · exact ⟨hshows, rfl⟩
  rcases env.addFault with _ | text
  · dsimp only
    refine ⟨?_, rfl⟩
    intro cid'
    rw [Std.ExtTreeMap.getElem?_insert, Std.ExtTreeMap.getElem?_insert]
    by_cases hcid : cid = cid'
    · subst hcid
      rw [if_pos (byteCompare_eq_iff.mpr rfl)]
      simp only [Std.compare_self, if_true, Option.filter_some, Option.bind_some,
        IrohPeer.getElem?_insertIfNew_self hblake3 h]
    · rw [if_neg (by simpa [byteCompare_eq_iff] using hcid), if_neg (by simpa using hcid), hshows cid']
      rcases hm : peer.index[cid']?.filter Mapping.isLocal with _ | m
      · rfl
      · obtain ⟨hm, hlocal⟩ := Option.filter_eq_some_iff.mp hm
        obtain ⟨-, bytes', hbytes', -⟩ := h.held cid' m hm hlocal
        dsimp only [Option.bind_some]
        rw [hbytes', IrohPeer.getElem?_insertIfNew_of_some hbytes']
  · exact ⟨hshows, rfl⟩

/-- **A registration that disagrees loses the blob**: no condition on the registrations of local
blobs is weaker. -/
theorem registered_alias_loses_blob {P : Platform} (hP : P.Lawful) {peer : IrohPeer}
    (h : peer.Sound P) {cid blake3 : String} (hno : ¬ peer.Agrees cid blake3)
    (provider : Option String) : ¬ (peer.registerMapping cid blake3 provider).Survives P := by
  intro hsurvives
  obtain ⟨m, hm, hlocal, hne⟩ : ∃ m, peer.index[cid]? = some m ∧ m.isLocal = true ∧
      m.blake3 ≠ blake3 := by
    simpa [IrohPeer.Agrees] using hno
  obtain ⟨-, bytes, hbytes, hsha⟩ := h.held cid m hm hlocal
  have hholds : (peer.registerMapping cid blake3 provider).Holds cid := by
    refine ⟨provider.elim m (IrohPeer.addProvider m), ?_, ?_⟩
    · simp [IrohPeer.registerMapping, hm]
    · cases provider with
      | none => exact hlocal
      | some p => simpa using hlocal
  have halias : (peer.registerMapping cid blake3 provider).aliases[cid]? = some blake3 := by
    simp [IrohPeer.registerMapping]
  obtain ⟨m', bytes', hm', -, hbytes', hsha'⟩ := hsurvives cid hholds
  rw [IrohPeer.rehydrate_index halias] at hm'
  obtain rfl := Option.some.inj hm'
  obtain rfl := hP.sha256Hex_injective (hsha.trans hsha'.symm)
  apply hne
  rw [← h.addressed _ _ hbytes]
  exact h.addressed _ _ hbytes'

/-! ### An announcement of a blob that is held -/

namespace Gossip

open TwoDevices (treeF fileOneCid treeFCid)

/-- The store works, and nobody serves anything. -/
def peerEnv : PeerEnv := ⟨none, none, none, fun _ _ => none⟩

/-- An announcement that names another second hash for the chunk `one`. -/
def misnamed : Announcement :=
  { announcedF with
    headSha256 := fileOneCid
    headBlake3 := "0000000000000000000000000000000000000000000000000000000000000000" }

/-- The peer puts the chunk and its tree. -/
def puts : List PeerAction :=
  [.put peerEnv fileOneCid (asBytes "one"), .put peerEnv treeFCid treeF.toCbor]

def peerHolding : IrohPeer := run (IrohPeer.step platform) .new puts

/-- The peer after it has heard an announcement as well. -/
def peerAfter (ann : Announcement) : IrohPeer :=
  run (IrohPeer.step platform) .new (puts ++ [.hear ann])

lemma blake3_injective : Function.Injective platform.blake3Hex :=
  tabulatedHash_injective (distinctDigests_of_take 4 (by decide +kernel) (by decide +kernel))

/-- What the index says of the chunk and of the tree, before an announcement is heard, after, and
after a restart. -/
lemma peer_observed :
    peerHolding.index[treeFCid]?.map Mapping.blake3 = some announcedF.fsRootBlake3 ∧
      peerHolding.index[announcedF.headSha256]? = none ∧
      ((peerAfter announcedF).index[treeFCid]?.map Mapping.isLocal = some true) ∧
      ((peerAfter misnamed).index[fileOneCid]?.map Mapping.isLocal = some true) ∧
      ((peerAfter misnamed).rehydrate.index[fileOneCid]?.map Mapping.isLocal = some false) := by
  decide +kernel

lemma leavesAliases : Along (IrohPeer.step platform) (LeavesAliases platform) .new
    (puts ++ [.hear announcedF]) := by
  obtain ⟨hroot, hhead, -⟩ := peer_observed
  have hagrees : peerHolding.Agrees announcedF.headSha256 announcedF.headBlake3 ∧
      peerHolding.Agrees announcedF.fsRootSha256 announcedF.fsRootBlake3 := by
    refine ⟨?_, ?_⟩
    · intro m hm
      rw [hhead] at hm
      simp at hm
    · intro m hm _
      have hm' : peerHolding.index[treeFCid]? = some m := hm
      rw [hm'] at hroot
      exact Option.some.inj hroot
  exact along_append.mpr ⟨⟨trivial, trivial, trivial⟩, fun _ => hagrees, trivial⟩

end Gossip

/-- A peer that holds the chunk and the tree of `f` hears of the head of `f`, and keeps both. -/
theorem local_blobs_survive_announcement :
    (Gossip.peerAfter Gossip.announcedF).Survives Gossip.platform ∧
      (Gossip.peerAfter Gossip.announcedF).Holds TwoDevices.treeFCid := by
  refine ⟨local_blobs_survive Gossip.blake3_injective _ Gossip.leavesAliases, ?_⟩
  obtain ⟨-, -, hlocal, -⟩ := Gossip.peer_observed
  exact Option.map_eq_some_iff.mp hlocal

/-- **An announced alias loses a blob**: the chunk is local, an announcement names another second
hash for it, and after a restart it is not. -/
theorem announced_alias_loses_blob :
    (Gossip.peerAfter Gossip.misnamed).Holds TwoDevices.fileOneCid ∧
      ¬ (Gossip.peerAfter Gossip.misnamed).rehydrate.Holds TwoDevices.fileOneCid ∧
      ¬ (Gossip.peerAfter Gossip.misnamed).Survives Gossip.platform := by
  obtain ⟨-, -, -, hlocal, hlost⟩ := Gossip.peer_observed
  have hnot : ∀ m, (Gossip.peerAfter Gossip.misnamed).rehydrate.index[TwoDevices.fileOneCid]? =
      some m → m.isLocal ≠ true := by
    intro m hm
    rw [hm] at hlost
    simpa using hlost
  have hholds : (Gossip.peerAfter Gossip.misnamed).Holds TwoDevices.fileOneCid :=
    Option.map_eq_some_iff.mp hlocal
  refine ⟨hholds, ?_, ?_⟩
  · rintro ⟨m, hm, hl⟩
    exact hnot m hm hl
  · intro h
    obtain ⟨m, bytes, hm, hl, -⟩ := h _ hholds
    exact hnot m hm hl

end Ciss
