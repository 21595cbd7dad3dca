import Ciss.Sync.Complete

/-!
# The quote and the charge

`price_backup` quotes the bytes of the want-set, every address counted once.  The push uploads
file by file, and a chunk that is wanted is put once for every place in the tree that lists it.
The two figures are the same exactly when no wanted chunk is listed twice
(`sent_eq_quoted_iff`).
-/

namespace Ciss

/-! ## The quote -/

/-- Rent in cents for a byte-day total. -/
def rentCents (byteDays : Nat) : Nat := byteDays * 1 / 10000

/-- The cost picture of a sync. -/
structure PriceQuote where
  files : Nat
  chunksToUpload : Nat
  chunksSkipped : Nat
  /-- The bytes a backup would transfer. -/
  bytes : Nat
  postageCents : Nat
  atRestBytes : Nat
  atRestBytesAfter : Nat
  rentCentsPerDay : Nat
  deriving DecidableEq, Repr

/-- Price a backup without moving a byte. -/
def priceBackup (P : Platform) (haveSet : String → Bool) (opened : Bool) (d : Device)
    (s : SyncServer) : Device × Except SyncError PriceQuote :=
  match planPush P haveSet opened d with
  | (d, .error e) => (d, .error e)
  | (d, .ok plan) =>
      let atRestBytesAfter := (plan.needed.map Prod.snd).sum
      (d, .ok
        { files := plan.manifest.entries.size
          chunksToUpload := plan.chunksToUpload
          chunksSkipped := plan.chunksTotal - plan.chunksToUpload
          bytes := plan.wantBytes
          postageCents := postageCents plan.wantBytes
          atRestBytes := ((s.frontier.elim [] FrontierView.leaves).map Prod.snd).sum
          atRestBytesAfter := atRestBytesAfter
          rentCentsPerDay := rentCents atRestBytesAfter })

/-- The addresses of the chunks of a tree, as often as they are listed. -/
def listedChunks (m : FsManifest) : List String :=
  m.entries.toList.flatMap fun x => x.2.chunks.map ChunkRef.sha256

/-! ## The bytes of an address -/

section

variable {P : Platform} {size : String → Nat} {tree : FsManifest} {plan : PushPlan}
  {haveSet : String → Bool} {env : PushEnv} {opened : Bool} {d : Device}
  {uploads : List (String × Except SyncError Bytes)} {entry : FileEntry} {path : String}

lemma exists_size (hP : P.Lawful) :
    ∃ size : String → Nat, ∀ bytes, size (P.crypto.sha256Hex bytes) = bytes.length := by
  refine ⟨Function.extend P.crypto.sha256Hex List.length fun _ => 0, ?_⟩
  intro bytes
  exact hP.sha256Hex_injective.extend_apply _ _ bytes

lemma map_payload_eq (hsize : ∀ bytes, size (P.crypto.sha256Hex bytes) = bytes.length)
    (hn : Named P uploads) (hok : ∀ x ∈ uploads, ∃ bytes, x.2 = .ok bytes) :
    uploads.map payload = (uploads.map Prod.fst).map size := by
  rw [List.map_map]
  apply List.map_congr_left
  intro x hx
  obtain ⟨bytes, hb⟩ := hok x hx
  rw [Function.comp_apply, ← hn x hx bytes hb, hsize, payload, hb]
  rfl

lemma chunk_len (hcut : P.CutsWhole)
    (hsize : ∀ bytes, size (P.crypto.sha256Hex bytes) = bytes.length) (hread : entry.Read P)
    {c : ChunkRef} (hc : c ∈ entry.chunks) : c.len = size c.sha256 ∧ 0 < size c.sha256 := by
  obtain ⟨f, rfl⟩ := hread
  rw [chunks_fileEntryFor] at hc
  obtain ⟨piece, hpiece, rfl⟩ := List.mem_map.mp hc
  refine ⟨(hsize piece).symm, ?_⟩
  change 0 < size (P.crypto.sha256Hex piece)
  rw [hsize]
  apply List.length_pos_of_ne_nil
  split at hpiece
  · simp at hpiece
  · rename_i hne
    exact hcut.nonempty _ (by simpa [List.isEmpty_iff] using hne) piece hpiece

/-! ## What is sent -/

/-- If no upload of a file fails, its uploads are its wanted chunks, one for each place that
lists one. -/
lemma map_fst_entryUploads {disk : String → OnDisk} {want : String → Bool}
    {recover : String → String → Except SyncError Bytes}
    (hok : ∀ x ∈ entryUploads P disk recover want path entry, ∃ bytes, x.2 = .ok bytes) :
    (entryUploads P disk recover want path entry).map Prod.fst =
      (entry.chunks.map ChunkRef.sha256).filter want := by
  unfold entryUploads at hok ⊢
  dsimp only at hok ⊢
  split at hok
  · rename_i hempty
    rw [if_pos hempty, List.isEmpty_iff.mp hempty]
    rfl
  rename_i hempty
  rw [if_neg hempty]
  split at hok
  · rw [List.map_map]
    exact List.map_id _
  · obtain ⟨bytes, hb⟩ := hok _ List.mem_cons_self
    simp at hb
  · rename_i bytes _
    split at hok
    · obtain ⟨bytes, hb⟩ := hok _ List.mem_cons_self
      simp at hb
    · rename_i hsame
      rw [if_neg hsame]
      rw [Bool.or_eq_true, not_or, List.any_eq_true] at hsame
      rw [List.map_filterMap]
      have hall : ∀ cid ∈ (entry.chunks.map ChunkRef.sha256).filter want,
          Option.map Prod.fst (((((chunkFile P bytes).reverse.find? fun x => x.1.sha256 = cid).map
            Prod.snd)).map fun bytes => ((cid, .ok bytes) : String × Except SyncError Bytes)) =
            some cid := by
        intro cid hcid
        rcases hfind : ((chunkFile P bytes).reverse.find? fun x => x.1.sha256 = cid).map Prod.snd
          with _ | piece
        · refine absurd ⟨cid, (List.mem_filter.mp hcid).1, ?_⟩ hsame.2
          rw [hfind]
          rfl
        · rw [hfind]
          rfl
      rw [List.filterMap_congr hall]
      exact List.filterMap_some

lemma PlanOf.map_fst_chunkUploads (hof : PlanOf P haveSet tree plan)
    (hok : ∀ x ∈ plan.chunkUploads P env opened d, ∃ bytes, x.2 = .ok bytes) :
    (plan.chunkUploads P env opened d).map Prod.fst =
      (listedChunks tree).filter fun c => !haveSet c := by
  rw [PushPlan.chunkUploads, hof.manifest, listedChunks, List.map_flatMap, List.filter_flatMap]
  apply List.flatMap_congr
  intro x hx
  have hentry : tree.entries[x.1]? = some x.2 :=
    Std.ExtTreeMap.mem_toList_iff_getElem?_eq_some.mp hx
  rw [map_fst_entryUploads fun y hy => hok y (by
    rw [PushPlan.chunkUploads, hof.manifest]
    exact List.mem_flatMap.mpr ⟨x, hx, hy⟩)]
  apply List.filter_congr
  intro cid hcid
  obtain ⟨c, hc, rfl⟩ := List.mem_map.mp hcid
  exact hof.wants_chunk hentry hc

lemma PlanOf.map_fst_want (hof : PlanOf P haveSet tree plan) :
    plan.want.map Prod.fst = distinct ((listedChunks tree).filter fun c => !haveSet c) ++
      [plan.fsManifestCid].filter fun c => !haveSet c := by
  have hdistinct : (distinctChunks tree).map Prod.fst = distinct (listedChunks tree) := by
    rw [distinctChunks, map_firsts_eq_distinct, List.map_flatMap, listedChunks]
    simp only [List.map_map]
    rfl
  have hfilter : ∀ l : List (String × Nat), (l.filter fun x => !haveSet x.1).map Prod.fst =
      (l.map Prod.fst).filter fun c => !haveSet c := by
    intro l
    rw [List.filter_map]
    rfl
  rw [hof.want, missingBlobs, hof.needed, hfilter, List.map_append, List.filter_append, hdistinct,
    filter_distinct]
  rfl

lemma PlanOf.wantBytes_eq (hcut : P.CutsWhole) (hof : PlanOf P haveSet tree plan)
    (hsize : ∀ bytes, size (P.crypto.sha256Hex bytes) = bytes.length)
    (hread : ∀ (path : String) (e : FileEntry), tree.entries[path]? = some e → e.Read P) :
    plan.wantBytes = ((plan.want.map Prod.fst).map size).sum := by
  rw [hof.wantBytes, List.map_map]
  congr 1
  apply List.map_congr_left
  intro x hx
  rw [hof.want, missingBlobs, hof.needed] at hx
  rcases List.mem_append.mp (List.mem_filter.mp hx).1 with hx | hx
  · have hmem := firsts_sublist.mem hx
    simp only [List.mem_flatMap, List.mem_map, Prod.exists] at hmem
    obtain ⟨p, e, he, c, hc, rfl⟩ := hmem
    exact (chunk_len hcut hsize
      (hread p e (Std.ExtTreeMap.mem_toList_iff_getElem?_eq_some.mp he)) hc).1
  · rw [List.mem_singleton.mp hx, Function.comp_apply, hof.cid, hsize]

end

section

variable {P : Platform} {env : PushEnv} {opened : Bool} {i : Install P} {d' : Device}
  {w w' : Wire} {pushed : PushedTree}

lemma pushOver_sent (h : pushOver P env opened i.device w = (d', w', .ok pushed)) :
    ∃ plan, planPush P env.haveSet opened i.device =
        ((logicalTreeWith P opened i.device).2, .ok plan) ∧
      PlanOf P env.haveSet (logicalTreeWith P opened i.device).1 plan ∧
      checkCeilings env opened (logicalTreeWith P opened i.device).2 plan.wantBytes = .ok () ∧
      (∀ x ∈ plan.uploads P env opened (logicalTreeWith P opened i.device).2,
        ∃ bytes, x.2 = .ok bytes) ∧
      w'.acceptedBytes = w.acceptedBytes +
        ((plan.uploads P env opened (logicalTreeWith P opened i.device).2).map payload).sum := by
  obtain ⟨-, -, ⟨e, he⟩, -⟩ | ⟨plan, hplan, hof, hceil, hw, ⟨e, e', he, -⟩ |
    ⟨count, total, pushed', hr, hrun, -⟩⟩ := pushOver_cases h
  · simp at he
  · simp at he
  refine ⟨plan, hplan, hof, hceil, runTransfers_bytes hrun, ?_⟩
  obtain ⟨hacc, ⟨⟨e, he⟩, -⟩ | ⟨hall, -⟩⟩ := runTransfers_accepted env.refuse w
    (hof.uploads_named env opened (logicalTreeWith P opened i.device).2)
  · rw [hrun] at he
    simp at he
  · rw [hw, Wire.acceptedBytes, hacc, hall, List.sum_append, Wire.acceptedBytes]

end

/-- **The quote is the charge, exactly when no wanted chunk is listed twice.**  For every install,
every have-set and every cache: the bytes a successful push sends
are the bytes `price_backup` quotes (and the ceilings were checked against) if and only if no
chunk that is missing from the have-set stands in two places of the tree. -/
theorem sent_eq_quoted_iff {P : Platform} (hP : P.Lawful) (hcut : P.CutsWhole) (i : Install P)
    (env : PushEnv) (opened : Bool) (w : Wire) (d' : Device) (w' : Wire) (pushed : PushedTree)
    (h : pushOver P env opened i.device w = (d', w', .ok pushed)) :
    ∃ quote, (priceBackup P env.haveSet opened i.device w.server).2 = .ok quote ∧
      checkCeilings env opened (logicalTreeWith P opened i.device).2 quote.bytes = .ok () ∧
      (w'.acceptedBytes = w.acceptedBytes + quote.bytes ↔
        ((listedChunks (logicalTreeWith P opened i.device).1).filter
          fun c => !env.haveSet c).Nodup) := by
  obtain ⟨plan, hplan, hof, hceil, hok, hsent⟩ := pushOver_sent h
  obtain ⟨size, hsize⟩ := exists_size hP
  have hread : ∀ (path : String) (e : FileEntry),
      (logicalTreeWith P opened i.device).1.entries[path]? = some e → e.Read P :=
    fun path e he => logicalTreeWith_read i.recorded he
  refine ⟨_, by rw [priceBackup, hplan], hceil, ?_⟩
  change w'.acceptedBytes = w.acceptedBytes + plan.wantBytes ↔ _
  -- both figures as sums of sizes of addresses
  have hmanifest : plan.manifestUpload.map Prod.fst =
      [plan.fsManifestCid].filter fun c => !env.haveSet c := by
    rw [PushPlan.manifestUpload, hof.wants_manifest, List.filter_singleton]
    cases env.haveSet plan.fsManifestCid <;> rfl
  rw [map_payload_eq hsize (hof.uploads_named _ _ _) hok, PushPlan.uploads, List.map_append,
    hof.map_fst_chunkUploads fun x hx => hok x (List.mem_append_left _ hx), hmanifest] at hsent
  rw [hof.wantBytes_eq hcut hsize hread, hof.map_fst_want, hsent]
  simp only [List.map_append, List.sum_append]
  have hpos : ∀ c ∈ (listedChunks (logicalTreeWith P opened i.device).1).filter
      fun c => !env.haveSet c, 0 < size c := by
    intro c hc
    obtain ⟨x, hx, hc⟩ := List.mem_flatMap.mp (List.mem_filter.mp hc).1
    obtain ⟨ref, href, rfl⟩ := List.mem_map.mp hc
    exact (chunk_len hcut hsize
      (hread x.1 x.2 (Std.ExtTreeMap.mem_toList_iff_getElem?_eq_some.mp hx)) href).2
  obtain ⟨-, hiff⟩ := sum_map_distinct hpos
  rw [← hiff]
  omega

/-! ### One file and its copy -/

/-- The tree of one evicted file: its chunk and its fs-manifest are quoted and sent, 177 bytes. -/
theorem sent_eq_quoted_iff_evicted :
    (pushOver TwoDevices.platform TwoDevices.bare true TwoDevices.evicted.device
        ⟨TwoDevices.init.server, []⟩).2.1.acceptedBytes = 177 ∧
      ∃ quote, (priceBackup TwoDevices.platform TwoDevices.bare.haveSet true
          TwoDevices.evicted.device TwoDevices.init.server).2 = .ok quote ∧
        checkCeilings TwoDevices.bare true (logicalTreeWith TwoDevices.platform true
          TwoDevices.evicted.device).2 quote.bytes = .ok () ∧
        (177 = 0 + quote.bytes ↔ ((listedChunks (logicalTreeWith TwoDevices.platform true
          TwoDevices.evicted.device).1).filter fun c => !TwoDevices.bare.haveSet c).Nodup) := by
  have hsent : (pushOver TwoDevices.platform TwoDevices.bare true TwoDevices.evicted.device
      ⟨TwoDevices.init.server, []⟩).2.1.acceptedBytes = 177 ∧
      (pushOver TwoDevices.platform TwoDevices.bare true TwoDevices.evicted.device
        ⟨TwoDevices.init.server, []⟩).2.2.toOption.isSome = true := by
    decide +kernel
  rcases hp : pushOver TwoDevices.platform TwoDevices.bare true TwoDevices.evicted.device
    ⟨TwoDevices.init.server, []⟩ with ⟨d', w', e | pushed⟩
  · rw [hp] at hsent
    simp [Except.toOption] at hsent
  · rw [hp] at hsent
    obtain ⟨quote, hquote, hceil, hiff⟩ := sent_eq_quoted_iff TwoDevices.lawful
      TwoDevices.cutsWhole TwoDevices.evicted TwoDevices.bare true _ d' w' pushed hp
    refine ⟨hsent.1, quote, hquote, hceil, ?_⟩
    rw [← hiff, hsent.1]
    rfl

namespace Copies

/-- The file `one`, twice. -/
def tree : FsManifest := treeOf [("f", fileOne), ("g", fileOne)]

/-- SHA-256 on the chunk and on the fs-manifest. -/
def digests : List (Bytes × String) :=
  [(asBytes "one", TwoDevices.fileOneCid),
    (tree.toCbor, "f2126883ffbf4c5b84b344094032b85163ea0ec3c3ad4c6971e48156f1b278ea")]

def platform : Platform where
  crypto := ⟨tabulatedHash digests, fun _ => false, fun _ _ _ => false⟩
  codec := dagCbor [tree] []
  cut b := [b]
  blake3Hex := TwoDevices.platform.blake3Hex

/-- A device with the two files. -/
def device : Device :=
  TwoDevices.fresh [("f", ⟨420, 1, 0, asBytes "one"⟩), ("g", ⟨420, 1, 0, asBytes "one"⟩)]

/-- An empty server that answers every put. -/
def env : PushEnv where
  haveSet _ := false
  disk := onDisk device.files
  refuse _ _ := none
  metered := true

/-- The push of the two files. -/
def push : Device × Wire × Except SyncError PushedTree :=
  pushOver platform env true device ⟨⟨∅, ⟨.active, none⟩⟩, []⟩

end Copies

/-- A file and its copy: the quote is 315 bytes, and the push that succeeds sends 318, the shared
chunk twice. -/
theorem shared_chunk_sent_twice :
    Copies.push.2.2.toOption.isSome = true ∧
      (priceBackup Copies.platform Copies.env.haveSet true Copies.device
        ⟨∅, ⟨.active, none⟩⟩).2.toOption.map PriceQuote.bytes = some 315 ∧
      Copies.push.2.1.accepted = [3, 3, 312] ∧ Copies.push.2.1.acceptedBytes = 318 := by
  decide +kernel

end Ciss
