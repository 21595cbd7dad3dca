import Ciss.Sync.CommitRace
import Ciss.Sync.Footprint
import Ciss.Sync.KeepSet

/-!
# What keeps an evicted file

An eviction checks once that every chunk of the file is named by the committed keep-set.  From then
on the chunks have to stay named: every commit replaces the whole keep-set, by the closures of all
heads and by the tree of the device that commits.

`EvictWorld` is one device that backs up, evicts and hydrates, one command at a time, in a race with
any number of commits of other devices; between the read and the put of a call, and between what an
eviction reads and each file it removes, anything else may happen.

A chunk stays named as long as the committed head of the device itself covers it: the other devices
list the closure of that head in every commit, and the device's own next tree contains its
placeholders.  So the placeholders are protected at every point of every run whose evictions take
only files that the own head covers (`evicted_stay_protected`).  The check of `evict` does not ask
for that: it also passes when a chunk is named because of another device's head, which that device
may replace (`evicted_on_another_head`).
-/

namespace Ciss

/-! ## The world -/

/-- A device with its namespace and the commits in flight. -/
structure EvictWorld where
  /-- The calls of the commit loop; call 0 is the device's own. -/
  race : Race
  device : Device
  /-- The have-set and the keep-set that an eviction has read. -/
  reading : Option ((String → Bool) × (String → Bool))

/-- One atomic step. -/
inductive EvictAction where
  /-- The directory, and all of the state but the placeholders, change in any way. -/
  | edit (d : Device)
  /-- An eviction reads the have-set and the keep-set. -/
  | evictRead (haveSet : String → Bool)
  /-- It takes one file; `stuck` says that the file cannot be removed. -/
  | evictFile (path : String) (stuck : Bool)
  | hydrateFile (env : SyncEnv) (path : String)
  /-- `backup_frontier` up to its commit loop. -/
  | push (env : PushEnv)
  /-- Its commit loop reads the frontier. -/
  | read
  /-- It puts its proposal; `recorded` says whether the device learns of it. -/
  | put (fault : Option PersistError) (recorded : Bool)
  /-- Other devices, and the server. -/
  | others (a : RaceAction)

/-- The step is not one of the device, or of its call. -/
def RaceAction.ofOthers (deviceId : String) : RaceAction → Bool
  | .store _ => true
  | .dial _ => true
  | .start pid b => pid ≠ 0 && b.deviceId ≠ deviceId
  | .read pid => pid ≠ 0
  | .put pid _ => pid ≠ 0

/-- Push the tree and upload the head; returns the call that enters the commit loop. -/
def beginBackup (P : Platform) (key : Keypair) (env : PushEnv) (deviceId : String) (d : Device)
    (s : SyncServer) : Device × SyncServer × Option CommitCall :=
  match pushOver P env true d ⟨s, []⟩ with
  | (d, w, .error _) => (d, w.server, none)
  | (d, w, .ok pushed) =>
      let head := DeviceHead.newSigned deviceId (d.counter + 1) pushed.fsManifestCid d.lastHead
        d.base key
      match head.encode P.codec with
      | .error _ => (d, w.server, none)
      | .ok headBytes =>
          let headCid := P.crypto.sha256Hex headBytes
          match w.put P env.refuse headCid headBytes with
          | (w, .error _) => (d, w.server, none)
          | (w, .ok ()) =>
              (d, w.server, some ⟨⟨deviceId, pushed.needed, headCid, headBytes.length⟩, 0, none⟩)

namespace EvictWorld

/-- One step; a step that is not enabled changes nothing. -/
def step (P : Platform) (key : Keypair) (deviceId : String) (w : EvictWorld) :
    EvictAction → EvictWorld
  | .edit d => { w with device := { d with placeholders := w.device.placeholders } }
  | .evictRead haveSet => { w with reading := some (haveSet, w.race.server.keepSet) }
  | .evictFile path stuck =>
      match w.reading, w.race.calls 0 with
      | some (haveSet, keep), none =>
          match evictFile P haveSet keep (fun _ => stuck) path w.device with
          | (d, .ok _) => { w with device := d }
          | (d, .error _) => { w with device := d, reading := none }
      | _, _ => w
  | .hydrateFile env path =>
      if (w.race.calls 0).isSome then w
      else { w with device := (hydrateFile P env w.race.server path w.device).1 }
  | .push env =>
      if (w.race.calls 0).isSome then w
      else
        match beginBackup P key env deviceId w.device w.race.server with
        | (d, s, call) => { w with race := { w.race with server := s }.setCall 0 call, device := d }
  | .read => { w with race := w.race.step P key (.read 0) }
  | .put fault recorded =>
      match w.race.calls 0 with
      | some ⟨b, _, some proposal⟩ =>
          let d := match (commitFrontier P key fault w.race.server proposal).2, recorded with
            | .ok (), true =>
                { w.device with counter := w.device.counter + 1, lastHead := some b.headCid }
            | _, _ => w.device
          { w with race := w.race.step P key (.put 0 fault), device := d }
      | _ => w
  | .others a => if a.ofOthers deviceId then { w with race := w.race.step P key a } else w

/-- No manifest, no commit in flight, and nothing evicted yet. -/
def init (blobs : ByCid Bytes) (mode : AccountMode) (d : Device) : EvictWorld where
  race := .init blobs mode
  device := { d with placeholders := ∅ }
  reading := none

end EvictWorld

/-! ## One command after the other -/

section

variable {P : Platform} {key : Keypair} {deviceId : String} {w : EvictWorld}

/-- After a refusal the eviction takes no further file. -/
lemma EvictWorld.run_evictFile_over (h : w.reading = none) (stuck : String → Bool)
    (paths : List String) :
    run (EvictWorld.step P key deviceId) w (paths.map fun p => .evictFile p (stuck p)) = w := by
  induction paths with
  | nil => rfl
  | cons path paths ih =>
      have hstep : w.step P key deviceId (.evictFile path (stuck path)) = w := by
        simp [EvictWorld.step, h]
      rw [List.map_cons, run_cons, hstep, ih]

lemma EvictWorld.run_evictFile {haveSet keep stuck : String → Bool}
    (h : w.reading = some (haveSet, keep)) (hidle : w.race.calls 0 = none) (paths : List String) :
    (run (EvictWorld.step P key deviceId) w
      (paths.map fun p => .evictFile p (stuck p))).device =
        (evict P haveSet keep stuck paths w.device).1 := by
  induction paths generalizing w with
  | nil => rfl
  | cons path paths ih =>
      have hstuck : Ciss.evictFile P haveSet keep (fun _ => stuck path) path w.device =
          Ciss.evictFile P haveSet keep stuck path w.device := by
        simp [Ciss.evictFile]
      rw [List.map_cons, run_cons]
      unfold evict
      rcases he : Ciss.evictFile P haveSet keep stuck path w.device with ⟨d, e | size⟩
      · have hstep : w.step P key deviceId (.evictFile path (stuck path)) =
            { w with device := d, reading := none } := by
          simp [EvictWorld.step, h, hidle, hstuck, he]
        rw [hstep, EvictWorld.run_evictFile_over rfl]
      · have hstep : w.step P key deviceId (.evictFile path (stuck path)) =
            { w with device := d } := by
          simp [EvictWorld.step, h, hidle, hstuck, he]
        rw [hstep]
        refine (ih (w := { w with device := d }) h hidle).trans ?_
        dsimp only
        rcases evict P haveSet keep stuck paths d with ⟨d', e | report⟩
        · rfl
        · rfl

/-- **An eviction that nobody interferes with** is `evict` against the committed keep-set. -/
theorem EvictWorld.run_evict (hidle : w.race.calls 0 = none) (haveSet stuck : String → Bool)
    (paths : List String) :
    (run (EvictWorld.step P key deviceId) w
      (.evictRead haveSet :: paths.map fun p => .evictFile p (stuck p))).device =
        (evict P haveSet w.race.server.keepSet stuck paths w.device).1 := by
  rw [run_cons]
  exact EvictWorld.run_evictFile (w := w.step P key deviceId (.evictRead haveSet)) rfl hidle paths

/-- The commit loop of the device is one call of the race. -/
lemma EvictWorld.run_rounds (fault : Option PersistError) (recorded : Bool) (n : Nat) :
    (run (EvictWorld.step P key deviceId) w
      (List.replicate n [.read, .put fault recorded]).flatten).race =
        run (Race.step P key) w.race (List.replicate n [.read 0, .put 0 fault]).flatten := by
  induction n generalizing w with
  | zero => rfl
  | succ n ih =>
      have hput : ∀ w : EvictWorld, (w.step P key deviceId (.put fault recorded)).race =
          w.race.step P key (.put 0 fault) := by
        intro w
        unfold EvictWorld.step Race.step
        dsimp only
        rcases w.race.calls 0 with _ | ⟨b, retries, _ | proposal⟩
        · rfl
        · rfl
        · rfl
      rw [List.replicate_succ, List.replicate_succ, List.flatten_cons, List.flatten_cons, run_append,
        run_append, ih, run_cons, run_cons, run_nil, hput]
      rfl

/-- **A backup that nobody interferes with** leaves the server as `backup_frontier` leaves it. -/
theorem EvictWorld.run_backup (hidle : w.race.calls 0 = none) (env : PushEnv)
    (fault : Option PersistError) (recorded : Bool) :
    (run (EvictWorld.step P key deviceId) w (.push env ::
      (List.replicate (maxCommitRetries + 1) [.read, .put fault recorded]).flatten)).race.server =
        (backupFrontierOver P key env fault deviceId w.device ⟨w.race.server, []⟩).2.1.server := by
  rw [run_cons, EvictWorld.run_rounds]
  have hpush : (w.step P key deviceId (.push env)).race =
      { w.race with server := (beginBackup P key env deviceId w.device w.race.server).2.1 }.setCall 0
        (beginBackup P key env deviceId w.device w.race.server).2.2 := by
    simp [EvictWorld.step, hidle]
  have hcall : (w.step P key deviceId (.push env)).race.calls 0 =
      (beginBackup P key env deviceId w.device w.race.server).2.2 := by
    simp [hpush, Race.setCall]
  have hserver : (w.step P key deviceId (.push env)).race.server =
      (beginBackup P key env deviceId w.device w.race.server).2.1 := by
    simp [hpush, Race.setCall]
  generalize (w.step P key deviceId (.push env)).race = r at hcall hserver ⊢
  unfold beginBackup at hcall hserver
  unfold backupFrontierOver
  rcases hp : pushOver P env true w.device ⟨w.race.server, []⟩ with ⟨d₁, w₁, e | pushed⟩
  · rw [hp] at hcall hserver
    rw [Race.run_rounds_over hcall, hserver]
  rw [hp] at hcall hserver
  dsimp only at hcall hserver ⊢
  rcases he : (DeviceHead.newSigned deviceId (d₁.counter + 1) pushed.fsManifestCid d₁.lastHead
    d₁.base key).encode P.codec with e | headBytes
  · rw [he] at hcall hserver
    rw [Race.run_rounds_over hcall, hserver]
  rw [he] at hcall hserver
  dsimp only at hcall hserver ⊢
  rcases hput : w₁.put P env.refuse (P.crypto.sha256Hex headBytes) headBytes with ⟨w₂, e | u⟩
  · rw [hput] at hcall hserver
    rw [Race.run_rounds_over hcall, hserver]
  rw [hput] at hcall hserver
  dsimp only at hcall hserver ⊢
  rw [Race.run_rounds hcall (Nat.zero_add _), hserver]
  rcases commitLoop P key fault ⟨deviceId, pushed.needed, P.crypto.sha256Hex headBytes,
    headBytes.length⟩ maxCommitRetries w₂.server with ⟨s, e | seq⟩
  · rfl
  · rfl

end

/-! ## Protection -/

/-- The address is that of a chunk of the tree that the head names. -/
def HeadChunk (P : Platform) (headCid cid : String) : Prop :=
  ∃ (head : DeviceHead) (tree : FsManifest) (path : String) (entry : FileEntry) (c : ChunkRef),
    HeadNamed P headCid head ∧ TreeNamed P head.fsRoot tree ∧
    tree.entries[path]? = some entry ∧ c ∈ entry.chunks ∧ c.sha256 = cid

/-- The address is that of a chunk of a placeholder. -/
def Device.Evicted (d : Device) (cid : String) : Prop :=
  ∃ (path : String) (entry : FileEntry) (c : ChunkRef), d.placeholders[path]? = some entry ∧
    c ∈ entry.chunks ∧ c.sha256 = cid

/-- The committed manifest names the address. -/
def SyncServer.Protects (s : SyncServer) (cid : String) : Prop :=
  ∃ m, s.slot.manifest = some m ∧ m.Lists cid

/-- The committed head of the device covers the address. -/
def SyncServer.OwnCovers (P : Platform) (deviceId : String) (s : SyncServer) (cid : String) : Prop :=
  ∃ headCid, s.heads[deviceId]? = some headCid ∧ HeadChunk P headCid cid

/-- A file that an eviction lets through is covered by the own committed head. -/
def EvictsCovered (P : Platform) (deviceId : String) (w : EvictWorld) : EvictAction → Prop
  | .evictFile path _ => ∀ haveSet keep f, w.reading = some (haveSet, keep) →
      w.device.files[path]? = some f →
      (∀ c ∈ (fileEntryFor P f).chunks, haveSet c.sha256 = true ∧ keep c.sha256 = true) →
      ∀ c ∈ (fileEntryFor P f).chunks, w.race.server.OwnCovers P deviceId c.sha256
  | _ => True

/-! ## What the device's own steps do -/

section

variable {P : Platform} {key : Keypair} {deviceId cid path : String} {d d' : Device}
  {s s' : SyncServer} {env : PushEnv}

lemma evicted_of_subset (h : ∀ (path : String) (entry : FileEntry),
      d'.placeholders[path]? = some entry → d.placeholders[path]? = some entry)
    (he : d'.Evicted cid) : d.Evicted cid := by
  obtain ⟨path, entry, c, hp, hc, hcid⟩ := he
  exact ⟨path, entry, c, h path entry hp, hc, hcid⟩

/-- The eviction of a file records nothing new, or the file it was let through for. -/
lemma evictFile_evicted {haveSet keep stuck : String → Bool}
    (he : (evictFile P haveSet keep stuck path d).1.Evicted cid) :
    d.Evicted cid ∨ ∃ f, d.files[path]? = some f ∧
      (∀ c ∈ (fileEntryFor P f).chunks, haveSet c.sha256 = true ∧ keep c.sha256 = true) ∧
      ∃ c ∈ (fileEntryFor P f).chunks, c.sha256 = cid := by
  unfold evictFile at he
  rcases hf : d.files[path]? with _ | f
  · rw [hf] at he
    exact Or.inl he
  rw [hf] at he
  dsimp only at he
  split at he
  · exact Or.inl he
  rename_i hmissing
  have hgate : ∀ c ∈ (fileEntryFor P f).chunks,
      haveSet c.sha256 = true ∧ keep c.sha256 = true := by
    intro c hc
    have hnot := List.filter_eq_nil_iff.mp (not_not.mp hmissing) c.sha256 (List.mem_map_of_mem hc)
    simpa using hnot
  have hinsert : ∀ d₁ : Device, d₁.placeholders = d.placeholders.insert path (fileEntryFor P f) →
      d₁.Evicted cid → d.Evicted cid ∨ ∃ f', some f = some f' ∧
        (∀ c ∈ (fileEntryFor P f').chunks, haveSet c.sha256 = true ∧ keep c.sha256 = true) ∧
        ∃ c ∈ (fileEntryFor P f').chunks, c.sha256 = cid := by
    rintro d₁ hd₁ ⟨path', entry, c, hp, hc, hcid⟩
    rw [hd₁, Std.ExtTreeMap.getElem?_insert] at hp
    split at hp
    · obtain rfl := Option.some.inj hp
      exact Or.inr ⟨f, rfl, hgate, c, hc, hcid⟩
    · exact Or.inl ⟨path', entry, c, hp, hc, hcid⟩
  split at he
  · exact hinsert _ rfl he
  · exact hinsert _ rfl he

/-- A hydration drops placeholders. -/
lemma hydrateFile_evicted {env : SyncEnv} (he : (hydrateFile P env s path d).1.Evicted cid) :
    d.Evicted cid := by
  unfold hydrateFile at he
  split at he
  · exact he
  · split at he
    · exact he
    · split at he
      · exact he
      · split at he
        · exact he
        · refine evicted_of_subset ?_ he
          intro path' entry hp
          dsimp only at hp
          rw [Std.ExtTreeMap.getElem?_erase] at hp
          split at hp
          · simp at hp
          · exact hp

/-- What is still evicted after a scan is a chunk of the scanned tree. -/
lemma logicalTree_evicted (he : (logicalTree P d).2.Evicted cid) :
    d.Evicted cid ∧ ∃ (path : String) (entry : FileEntry) (c : ChunkRef),
      (logicalTree P d).1.entries[path]? = some entry ∧ c ∈ entry.chunks ∧ c.sha256 = cid := by
  obtain ⟨path, entry, c, hp, hc, hcid⟩ := he
  have hfilter : (d.placeholders.filter fun path _ => !(scanTreeIndexed P d).contains path)[path]? =
      some entry := hp
  rw [Std.ExtTreeMap.getElem?_filter] at hfilter
  obtain ⟨hold, hnot⟩ : d.placeholders[path]? = some entry ∧
      (scanTreeIndexed P d).contains path = false := by
    simpa [Option.filter_eq_some_iff] using hfilter
  refine ⟨⟨path, entry, c, hold, hc, hcid⟩, path, entry, c, ?_, hc, hcid⟩
  change (d.placeholders ∪ scanTreeIndexed P d)[path]? = some entry
  rw [Std.ExtTreeMap.getElem?_union, Std.ExtTreeMap.getElem?_eq_none_of_contains_eq_false hnot,
    Option.none_or]
  exact hold

/-- **What a backup does before its commit loop.**  The slot stands, placeholders are only dropped,
and a call that comes out of it publishes a head that names every chunk still evicted; the chunks
of that head are among the blobs of the push. -/
lemma beginBackup_cases {call : Option CommitCall} (hP : P.Lawful)
    (h : beginBackup P key env deviceId d s = (d', s', call)) :
    s'.slot = s.slot ∧ (∀ cid, d'.Evicted cid → d.Evicted cid) ∧
      ∀ b retries proposal, call = some ⟨b, retries, proposal⟩ → proposal = none ∧
        b.deviceId = deviceId ∧ (∀ cid, d'.Evicted cid → HeadChunk P b.headCid cid) ∧
        ∀ cid, HeadChunk P b.headCid cid → ∃ n, (cid, n) ∈ b.needed := by
  unfold beginBackup at h
  rcases hpush : pushOver P env true d ⟨s, []⟩ with ⟨d₁, w₁, r⟩
  have hgrows : w₁.server.slot = s.slot := (pushOver_grows hpush).slot
  obtain ⟨ledgers, hd⟩ := pushOver_device hpush
  have hevicted : ∀ cid, d₁.Evicted cid → (logicalTree P d).2.Evicted cid := by
    intro cid he
    rw [hd] at he
    exact he
  have hdrop : ∀ cid, d₁.Evicted cid → d.Evicted cid :=
    fun cid he => (logicalTree_evicted (hevicted cid he)).1
  rw [hpush] at h
  rcases r with e | pushed
  · obtain ⟨rfl, rfl, rfl⟩ : d₁ = d' ∧ w₁.server = s' ∧ none = call := by simpa using h
    exact ⟨hgrows, hdrop, by simp⟩
  dsimp only at h
  split at h
  · obtain ⟨rfl, rfl, rfl⟩ : d₁ = d' ∧ w₁.server = s' ∧ none = call := by simpa using h
    exact ⟨hgrows, hdrop, by simp⟩
  rename_i headBytes hencode
  have hput := (SyncServer.put_spec (P := P) w₁.server (env.refuse w₁.accepted.length
    (P.crypto.sha256Hex headBytes)) (P.crypto.sha256Hex headBytes) headBytes).1
  unfold Wire.put at h
  rcases hp : w₁.server.put P (env.refuse w₁.accepted.length (P.crypto.sha256Hex headBytes))
      (P.crypto.sha256Hex headBytes) headBytes with ⟨s₂, e | u⟩
  · rw [hp] at h hput
    obtain ⟨rfl, rfl, rfl⟩ : d₁ = d' ∧ s₂ = s' ∧ none = call := by simpa using h
    exact ⟨hput.slot.trans hgrows, hdrop, by simp⟩
  rw [hp] at h hput
  obtain ⟨rfl, rfl, rfl⟩ : d₁ = d' ∧ s₂ = s' ∧ _ = call := by simpa using h
  refine ⟨hput.slot.trans hgrows, hdrop, ?_⟩
  intro b retries proposal hcall
  obtain ⟨rfl, -, rfl⟩ := CommitCall.mk.inj (Option.some.inj hcall)
  obtain ⟨treeBytes, htree, hroot, hneeded, -⟩ := pushOver_stored hpush
  have htreeNamed : TreeNamed P pushed.fsManifestCid (logicalTree P d).1 := by
    rw [hroot]
    exact treeNamed_of_encode hP rfl htree
  have hhead := headNamed_of_encode hP hencode
  refine ⟨rfl, rfl, ?_, ?_⟩
  · intro cid he
    obtain ⟨-, path, entry, c, hpath, hc, hcid⟩ := logicalTree_evicted (hevicted cid he)
    exact ⟨_, _, path, entry, c, hhead, htreeNamed, hpath, hc, hcid⟩
  · rintro cid ⟨head, tree, path, entry, c, hnamed, htree', hpath, hc, hcid⟩
    obtain rfl := hnamed.unique hP hhead
    obtain rfl := htree'.unique hP htreeNamed
    obtain ⟨n, hn⟩ := mem_distinctChunks.mpr ⟨path, entry, hpath, c, hc, hcid⟩
    refine ⟨n, ?_⟩
    rw [hneeded]
    exact List.mem_append_left _ hn

end

/-! ## What a commit lists -/

/-- Every pending proposal lists the blobs of its call, and the closure of every head that the call
does not replace. -/
def Race.ProposalsList (P : Platform) (r : Race) : Prop :=
  ∀ pid b retries proposal, r.calls pid = some ⟨b, retries, some proposal⟩ →
    (∀ x ∈ b.needed, proposal.Lists x.1) ∧
      ∀ (device headCid : String), proposal.heads[device]? = some headCid → device ≠ b.deviceId →
        ∀ cid, InClosure P headCid cid → proposal.Lists cid

section

variable {P : Platform} {key : Keypair} {r : Race} {deviceId cid : String}

lemma Race.ProposalsList.step (hP : P.Lawful) (h : r.ProposalsList P) (ht : r.ReadsTrue)
    (a : RaceAction) : (r.step P key a).ProposalsList P := by
  have hnone : ∀ {pid : Nat} {call : Option CommitCall}, (∀ b retries proposal,
      call = some ⟨b, retries, proposal⟩ → proposal = none) →
      ∀ pid' b retries proposal, Function.update r.calls pid call pid' =
        some ⟨b, retries, some proposal⟩ → r.calls pid' = some ⟨b, retries, some proposal⟩ := by
    intro pid call hcall pid' b retries proposal hp
    rw [Function.update_apply] at hp
    split at hp
    · exact absurd (hcall b retries _ hp) (by simp)
    · exact hp
  cases a with
  | store bytes => exact h
  | dial mode => exact h
  | start pid b =>
      unfold Race.step
      dsimp only
      split
      · exact h
      · intro pid' b' retries proposal hp
        exact h pid' b' retries proposal (hnone (by simp) pid' b' retries proposal hp)
  | read pid =>
      unfold Race.step
      dsimp only
      split
      · rename_i b retries hcall
        split
        · rename_i proposal hprop
          intro pid' b' retries' proposal' hp
          simp only [Race.setCall, Function.update_apply] at hp
          split at hp
          · obtain ⟨rfl, rfl, heq⟩ := CommitCall.mk.inj (Option.some.inj hp)
            obtain rfl := Option.some.inj heq
            obtain ⟨hown, -, hothers⟩ := proposeCommit_lists hP hprop
            exact ⟨hown, fun device headCid hh hne => (hothers device headCid hh hne).2⟩
          · exact h pid' b' retries' proposal' hp
        · intro pid' b' retries' proposal' hp
          exact h pid' b' retries' proposal' (hnone (by simp) pid' b' retries' proposal' hp)
      · exact h
  | put pid fault =>
      intro pid' b retries proposal hp
      refine h pid' b retries proposal ?_
      obtain ⟨-, -, hcalls | ⟨call, hcalls, hcall⟩⟩ | ⟨b', retries', proposal', m, -, hstep, -⟩ :=
        Race.put_cases P key ht pid fault
      · rwa [hcalls] at hp
      · rw [hcalls] at hp
        exact hnone (fun b retries proposal heq => (hcall b retries proposal heq).1) pid' b retries
          proposal hp
      · rw [hstep] at hp
        exact hnone (by simp) pid' b retries proposal hp

end

/-! ## The invariant -/

/-- The device covers what it has evicted: its committed head does, and the head of its call in
flight, if there is one, will. -/
structure EvictWorld.Guarded (P : Platform) (deviceId : String) (w : EvictWorld) : Prop where
  tracks : w.race.Tracks
  proposals : w.race.ProposalsList P
  calls : ∀ pid b retries proposal, w.race.calls pid = some ⟨b, retries, proposal⟩ →
    (pid = 0 ↔ b.deviceId = deviceId)
  underway : ∀ b retries proposal, w.race.calls 0 = some ⟨b, retries, proposal⟩ →
    (∀ cid, w.device.Evicted cid → HeadChunk P b.headCid cid) ∧
      ∀ cid, HeadChunk P b.headCid cid → ∃ n, (cid, n) ∈ b.needed
  covered : ∀ cid, w.device.Evicted cid → w.race.server.OwnCovers P deviceId cid
  listed : ∀ cid, w.race.server.OwnCovers P deviceId cid → w.race.server.Protects cid

section

variable {P : Platform} {key : Keypair} {w : EvictWorld} {deviceId cid : String} {d : Device}

lemma SyncServer.ownCovers_congr {s s' : SyncServer}
    (h : s'.slot.manifest = s.slot.manifest) :
    s'.OwnCovers P deviceId cid ↔ s.OwnCovers P deviceId cid := by
  rw [SyncServer.OwnCovers, SyncServer.OwnCovers, (SyncServer.heads_congr h).1]

lemma SyncServer.protects_congr {s s' : SyncServer} (h : s'.slot.manifest = s.slot.manifest) :
    s'.Protects cid ↔ s.Protects cid := by
  rw [SyncServer.Protects, SyncServer.Protects, h]

/-- The device may change as long as it evicts nothing, or only what is covered while no call of
its own is in flight. -/
lemma EvictWorld.Guarded.device (h : w.Guarded P deviceId)
    (reading : Option ((String → Bool) × (String → Bool)))
    (hd : (∀ cid, d.Evicted cid → w.device.Evicted cid) ∨ w.race.calls 0 = none ∧
      ∀ cid, d.Evicted cid → w.race.server.OwnCovers P deviceId cid) :
    (EvictWorld.mk w.race d reading).Guarded P deviceId where
  tracks := h.tracks
  proposals := h.proposals
  calls := h.calls
  underway := by
    intro b retries proposal hcall
    obtain hd | ⟨hnone, -⟩ := hd
    · obtain ⟨hev, hneeded⟩ := h.underway b retries proposal hcall
      exact ⟨fun cid he => hev cid (hd cid he), hneeded⟩
    · rw [hnone] at hcall
      simp at hcall
  covered := by
    intro cid he
    obtain hd | ⟨-, hd⟩ := hd
    · exact h.covered cid (hd cid he)
    · exact hd cid he
  listed := h.listed

/-- An accepted put of the device covers what its call published; one of another device leaves the
own head where it is, and lists its closure. -/
lemma EvictWorld.Guarded.accepted (h : w.Guarded P deviceId) {s : SyncServer} {pid retries : Nat}
    {b : Pending} {proposal : Proposal} {m : Manifest}
    (hcall : w.race.calls pid = some ⟨b, retries, some proposal⟩)
    (hs : s.slot.manifest = some m)
    (hheads : m.heads = some (w.race.server.heads.insert b.deviceId b.headCid))
    (hproposal : proposal.heads = w.race.server.heads.insert b.deviceId b.headCid)
    (hleaves : ∀ x, x ∈ m.leaves ↔ (x.cid, x.size) ∈ proposal.leaves) :
    (∀ cid, w.device.Evicted cid → s.OwnCovers P deviceId cid) ∧
      ∀ cid, s.OwnCovers P deviceId cid → s.Protects cid := by
  have hs' : s.heads = w.race.server.heads.insert b.deviceId b.headCid := by
    simp [SyncServer.heads, SyncServer.frontier, hs, hheads]
  have hlists : ∀ cid, proposal.Lists cid → s.Protects cid := by
    rintro cid ⟨size, hsize⟩
    exact ⟨m, hs, ⟨cid, size⟩, (hleaves _).mpr hsize, rfl⟩
  obtain ⟨hown, hothers⟩ := h.proposals pid b retries proposal hcall
  have hpid := h.calls pid b retries (some proposal) hcall
  by_cases hdev : b.deviceId = deviceId
  · obtain rfl := hpid.mpr hdev
    obtain ⟨hev, hneeded⟩ := h.underway b retries (some proposal) hcall
    refine ⟨fun cid he => ⟨b.headCid, by simp [hs', hdev], hev cid he⟩, ?_⟩
    rintro cid ⟨headCid, hh, hchunk⟩
    obtain rfl : b.headCid = headCid := by simpa [hs', hdev] using hh
    obtain ⟨n, hn⟩ := hneeded cid hchunk
    exact hlists cid (hown (cid, n) hn)
  · have hold : s.heads[deviceId]? = w.race.server.heads[deviceId]? := by
      simp [hs', Std.ExtTreeMap.getElem?_insert, hdev]
    constructor
    · intro cid he
      obtain ⟨headCid, hh, hchunk⟩ := h.covered cid he
      exact ⟨headCid, hold.trans hh, hchunk⟩
    · rintro cid ⟨headCid, hh, head, tree, path, entry, c, hnamed, htree, hpath, hc, rfl⟩
      refine hlists _ (hothers deviceId headCid ?_ (Ne.symm hdev) _ (.chunk hnamed htree hpath hc))
      rw [hproposal, ← hs']
      exact hh

/-- A step of the race, unless it starts a call under the name of the device. -/
lemma EvictWorld.Guarded.race (hP : P.Lawful) (h : w.Guarded P deviceId) (a : RaceAction)
    (hstart : ∀ pid b, a = .start pid b → pid ≠ 0 ∧ b.deviceId ≠ deviceId)
    (hd : d.placeholders = w.device.placeholders) :
    (EvictWorld.mk (w.race.step P key a) d w.reading).Guarded P deviceId := by
  have hev : ∀ cid, d.Evicted cid → w.device.Evicted cid := by
    intro cid he
    rw [Device.Evicted, hd] at he
    exact he
  have hserver : (∀ cid, w.device.Evicted cid →
        (w.race.step P key a).server.OwnCovers P deviceId cid) ∧
      ∀ cid, (w.race.step P key a).server.OwnCovers P deviceId cid →
        (w.race.step P key a).server.Protects cid := by
    have hsame : (w.race.step P key a).server.slot.manifest = w.race.server.slot.manifest →
        (∀ cid, w.device.Evicted cid →
          (w.race.step P key a).server.OwnCovers P deviceId cid) ∧
        ∀ cid, (w.race.step P key a).server.OwnCovers P deviceId cid →
          (w.race.step P key a).server.Protects cid := by
      intro hm
      constructor
      · intro cid he
        exact (SyncServer.ownCovers_congr hm).mpr (h.covered cid he)
      · intro cid hc
        exact (SyncServer.protects_congr hm).mpr
          (h.listed cid ((SyncServer.ownCovers_congr hm).mp hc))
    by_cases hput : ∃ pid fault, a = .put pid fault
    · obtain ⟨pid, fault, rfl⟩ := hput
      obtain ⟨hs, -⟩ | ⟨b, retries, proposal, m, hcall, hstep, -, hheads, hproposal, hleaves⟩ :=
        Race.put_cases P key h.tracks.reads pid fault
      · exact hsame (by rw [hs])
      · refine h.accepted hcall ?_ hheads hproposal hleaves
        rw [hstep]
    · push Not at hput
      exact hsame (Race.step_manifest hput)
  refine ⟨h.tracks.step a, h.proposals.step hP h.tracks.reads a, ?_, ?_,
    fun cid he => hserver.1 cid (hev cid he), hserver.2⟩
  · intro pid b retries proposal hcall
    obtain ⟨retries', proposal', hold⟩ | rfl := Race.step_calls h.tracks.reads hcall
    · exact h.calls pid b retries' proposal' hold
    · obtain ⟨hpid, hdev⟩ := hstart pid b rfl
      exact iff_of_false hpid hdev
  · intro b retries proposal hcall
    obtain ⟨retries', proposal', hold⟩ | rfl := Race.step_calls h.tracks.reads hcall
    · obtain ⟨hcover, hneeded⟩ := h.underway b retries' proposal' hold
      exact ⟨fun cid he => hcover cid (hev cid he), hneeded⟩
    · exact absurd rfl (hstart 0 b rfl).1

end

section

variable {P : Platform} {key : Keypair} {w : EvictWorld} {deviceId : String}

lemma EvictWorld.Guarded.evictFile (h : w.Guarded P deviceId) {path : String} {stuck : Bool}
    (hcond : EvictsCovered P deviceId w (.evictFile path stuck)) :
    (w.step P key deviceId (.evictFile path stuck)).Guarded P deviceId := by
  unfold EvictWorld.step
  dsimp only
  split
  · rename_i haveSet keep hreading hnone
    have hdev : ∀ cid, (Ciss.evictFile P haveSet keep (fun _ => stuck) path w.device).1.Evicted cid →
        w.race.server.OwnCovers P deviceId cid := by
      intro cid he
      obtain hold | ⟨f, hf, hgate, c, hc, rfl⟩ := evictFile_evicted he
      · exact h.covered cid hold
      · exact hcond haveSet keep f hreading hf hgate c hc
    rcases he : Ciss.evictFile P haveSet keep (fun _ => stuck) path w.device with ⟨d, e | size⟩
    · rw [he] at hdev
      exact h.device none (Or.inr ⟨hnone, hdev⟩)
    · rw [he] at hdev
      exact h.device w.reading (Or.inr ⟨hnone, hdev⟩)
  · exact h

lemma EvictWorld.Guarded.push (hP : P.Lawful) (h : w.Guarded P deviceId) (env : PushEnv) :
    (w.step P key deviceId (.push env)).Guarded P deviceId := by
  unfold EvictWorld.step
  dsimp only
  split
  · exact h
  rename_i hidle
  have hnone : w.race.calls 0 = none := by simpa using hidle
  rcases hb : beginBackup P key env deviceId w.device w.race.server with ⟨d, s, call⟩
  obtain ⟨hslot, hdrop, hcall⟩ := beginBackup_cases hP hb
  have hm : s.slot.manifest = w.race.server.slot.manifest := by rw [hslot]
  have hcalls : ∀ pid b retries proposal,
      Function.update w.race.calls 0 call pid = some ⟨b, retries, proposal⟩ →
      w.race.calls pid = some ⟨b, retries, proposal⟩ ∨
        pid = 0 ∧ call = some ⟨b, retries, proposal⟩ := by
    intro pid b retries proposal hp
    rw [Function.update_apply] at hp
    split at hp
    · exact Or.inr ⟨‹pid = 0›, hp⟩
    · exact Or.inl hp
  have hpending : ∀ pid b retries proposal,
      Function.update w.race.calls 0 call pid = some ⟨b, retries, some proposal⟩ →
      w.race.calls pid = some ⟨b, retries, some proposal⟩ := by
    intro pid b retries proposal hp
    obtain hold | ⟨-, hnew⟩ := hcalls pid b retries _ hp
    · exact hold
    · exact absurd (hcall b retries _ hnew).1 (by simp)
  refine ⟨h.tracks.congr hm rfl hpending, ?_, ?_, ?_, ?_, ?_⟩
  · intro pid b retries proposal hp
    exact h.proposals pid b retries proposal (hpending pid b retries proposal hp)
  · intro pid b retries proposal hp
    obtain hold | ⟨hpid, hnew⟩ := hcalls pid b retries proposal hp
    · exact h.calls pid b retries proposal hold
    · exact iff_of_true hpid (hcall b retries proposal hnew).2.1
  · intro b retries proposal hp
    obtain hold | ⟨-, hnew⟩ := hcalls 0 b retries proposal hp
    · rw [hnone] at hold
      simp at hold
    · exact (hcall b retries proposal hnew).2.2
  · intro cid he
    exact (SyncServer.ownCovers_congr hm).mpr (h.covered cid (hdrop cid he))
  · intro cid hc
    exact (SyncServer.protects_congr hm).mpr (h.listed cid ((SyncServer.ownCovers_congr hm).mp hc))

/-- Whatever happens, the device goes on covering what it has evicted. -/
lemma EvictWorld.Guarded.step (hP : P.Lawful) (h : w.Guarded P deviceId) {a : EvictAction}
    (hcond : EvictsCovered P deviceId w a) : (w.step P key deviceId a).Guarded P deviceId := by
  cases a with
  | edit d => exact h.device w.reading (Or.inl fun cid he => he)
  | evictRead haveSet =>
      exact h.device (some (haveSet, w.race.server.keepSet)) (Or.inl fun cid he => he)
  | evictFile path stuck => exact h.evictFile hcond
  | hydrateFile env path =>
      unfold EvictWorld.step
      dsimp only
      split
      · exact h
      · exact h.device w.reading (Or.inl fun cid he => hydrateFile_evicted he)
  | push env => exact h.push hP env
  | read => exact h.race hP (.read 0) (by simp) rfl
  | put fault recorded =>
      unfold EvictWorld.step
      dsimp only
      split
      · refine h.race hP (.put 0 fault) (by simp) ?_
        split
        · rfl
        · rfl
      · exact h
  | others a =>
      unfold EvictWorld.step
      dsimp only
      split
      · rename_i hothers
        refine h.race hP a ?_ rfl
        rintro pid b rfl
        simpa [RaceAction.ofOthers] using hothers
      · exact h

/-- **Evicted files stay protected.**  In every run of evictions, hydrations and backups of one
device and commits of any other devices, whose evictions take only files that the device's own
committed head covers: the committed manifest names every chunk of every placeholder. -/
theorem evicted_stay_protected (hP : P.Lawful) (key : Keypair) (deviceId : String)
    (blobs : ByCid Bytes) (mode : AccountMode) (d : Device) (acts : List EvictAction)
    (h : Along (EvictWorld.step P key deviceId) (EvictsCovered P deviceId)
      (EvictWorld.init blobs mode d) acts) :
    ∀ cid, (run (EvictWorld.step P key deviceId) (EvictWorld.init blobs mode d) acts).device.Evicted
        cid →
      (run (EvictWorld.step P key deviceId) (EvictWorld.init blobs mode d) acts).race.server.Protects
        cid := by
  have hnothing : ∀ cid, ¬ (EvictWorld.init blobs mode d).device.Evicted cid := by
    rintro cid ⟨path, entry, c, hpath, -⟩
    simp [EvictWorld.init] at hpath
  have hinit : (EvictWorld.init blobs mode d).Guarded P deviceId := by
    refine ⟨⟨?_, ?_⟩, ?_, ?_, ?_, fun cid he => absurd he (hnothing cid), ?_⟩
    · intro device
      simp [EvictWorld.init, Race.init, SyncServer.heads, SyncServer.frontier]
    · intro pid b retries proposal hp
      simp [EvictWorld.init, Race.init] at hp
    · intro pid b retries proposal hp
      simp [EvictWorld.init, Race.init] at hp
    · intro pid b retries proposal hp
      simp [EvictWorld.init, Race.init] at hp
    · intro b retries proposal hp
      simp [EvictWorld.init, Race.init] at hp
    · rintro cid ⟨headCid, hh, -⟩
      simp [EvictWorld.init, Race.init, SyncServer.heads, SyncServer.frontier] at hh
  have hrun := run_invariant (I := EvictWorld.Guarded P deviceId)
    (fun w a hw hcond => hw.step hP hcond) hinit h
  exact fun cid he => hrun.listed cid (hrun.covered cid he)

end

/-! ### Two devices, and what they evict

`dev-b` backs up `f`, evicts it and backs up again; `dev-a` commits a file of its own.  Apart from
that, a third device that has not backed up holds the file `g` that `dev-a` has published. -/

namespace TwoDevices

/-- A free transport that reports `have` and refuses nothing. -/
def lan (haveSet : String → Bool) (files : LocalFiles) : PushEnv :=
  ⟨haveSet, onDisk files, fun _ _ => none, false⟩

def holdsF : Device := fresh [("f", ⟨420, 1, 0, asBytes "one"⟩)]

def holdsG : Device := fresh [("g", ⟨420, 1, 0, asBytes "two"⟩)]

/-- A commit of another device, back to back. -/
def commitOf (b : Pending) : List EvictAction :=
  [.others (.start 1 b), .others (.read 1), .others (.put 1 none)]

/-- `dev-b` backs up `f`. -/
def backedUp : List EvictAction :=
  [.push (lan (fun _ => false) holdsF.files), .read, .put none true,
    .evictRead fun cid => cid = fileOneCid]

/-- It backs up again, and `dev-a` commits `g`. -/
def afterwards : List EvictAction :=
  [.push (lan (fun cid => cid = fileOneCid || cid = treeFCid) ∅), .read, .put none true] ++
    commitOf ⟨"dev-a", [(fileTwoCid, 3), (treeGCid, 174)], headA1Cid, 280⟩

/-- The world after a run of `dev-b`, which has the file `f`. -/
def worldB (acts : List EvictAction) : EvictWorld :=
  run (EvictWorld.step platform account "dev-b") (.init ∅ .active holdsF) acts

lemma worldB_observed :
    ((worldB backedUp).device.files["f"]? = some ⟨420, 1, 0, asBytes "one"⟩ ∧
      (worldB backedUp).race.server.heads["dev-b"]? = some headB1Cid) ∧
    (worldB (backedUp ++ .evictFile "f" false :: afterwards)).device.placeholders["f"]? =
      some fileOne ∧
    (worldB (backedUp ++ .evictFile "f" false :: afterwards)).race.server.seq = 3 := by
  decide +kernel

lemma headChunk_one : HeadChunk platform headB1Cid fileOneCid := by
  refine ⟨headB1, treeF, "f", fileOne, ⟨fileOneCid, _, 3⟩, ⟨headB1.toCbor, ?_, ?_⟩,
    ⟨treeF.toCbor, ?_, ?_⟩, ?_, List.mem_singleton.mpr rfl, rfl⟩
  all_goals decide +kernel

/-- The file that `dev-b` evicts is covered by the head it has committed. -/
lemma evictsCovered_f : Along (EvictWorld.step platform account "dev-b")
    (EvictsCovered platform "dev-b") (.init ∅ .active holdsF)
    (backedUp ++ .evictFile "f" false :: afterwards) := by
  refine along_append.mpr ⟨⟨trivial, trivial, trivial, trivial, trivial⟩, ?_,
    ⟨trivial, trivial, trivial, trivial, trivial, trivial, trivial⟩⟩
  obtain ⟨⟨hfile, hhead⟩, -⟩ := worldB_observed
  intro haveSet keep f _ hf _ c hc
  obtain rfl : ⟨420, 1, 0, asBytes "one"⟩ = f := Option.some.inj (hfile.symm.trans hf)
  have hone : c.sha256 = fileOneCid := by
    have hall : ∀ c ∈ (fileEntryFor platform ⟨420, 1, 0, asBytes "one"⟩).chunks,
        c.sha256 = fileOneCid := by decide +kernel
    exact hall c hc
  exact ⟨headB1Cid, hhead, hone ▸ headChunk_one⟩

/-- The devices `dev-a` and `dev-b` commit `f` and `g`; `dev-c`, which has not backed up, has `g`
and evicts it; `dev-a` removes `g`. -/
def removedElsewhere : List EvictAction :=
  let b := [(fileOneCid, 3), (treeFCid, 174)]
  let a := [(fileOneCid, 3), (fileTwoCid, 3), (treeFGCid, 312)]
  commitOf ⟨"dev-b", b, headB1Cid, 280⟩ ++ commitOf ⟨"dev-b", b, headB2Cid, 345⟩ ++
    commitOf ⟨"dev-a", [(fileTwoCid, 3), (treeGCid, 174)], headA1Cid, 280⟩ ++
    commitOf ⟨"dev-a", a, headA2Cid, 345⟩ ++
    [.evictRead fun cid => cid = fileTwoCid, .evictFile "g" false] ++
    commitOf ⟨"dev-a", a, headA3Cid, 410⟩ ++ commitOf ⟨"dev-a", b, headA4Cid, 410⟩

/-- What `dev-a` and `dev-b` have uploaded. -/
def uploaded : ByCid Bytes :=
  (∅ : ByCid Bytes).insertMany [(fileOneCid, asBytes "one"), (fileTwoCid, asBytes "two"),
    (treeFCid, treeF.toCbor), (treeGCid, treeG.toCbor), (treeFGCid, treeFG.toCbor),
    (headB1Cid, headB1.toCbor), (headB2Cid, headB2.toCbor), (headA1Cid, headA1.toCbor),
    (headA2Cid, headA2.toCbor), (headA3Cid, headA3.toCbor), (headA4Cid, headA4.toCbor)]

def worldC : EvictWorld :=
  run (EvictWorld.step platform account "dev-c") (.init uploaded .active holdsG) removedElsewhere

lemma worldC_observed : worldC.device.placeholders["g"]? = some fileTwo ∧
    worldC.race.server.slot.manifest.map (fun m => (m.seq, m.leaves.map ManifestLeaf.cid)) =
      some (6, [treeFCid, headA4Cid, fileOneCid, headB2Cid]) := by
  decide +kernel

end TwoDevices

/-- `dev-b` has evicted `f`; after its second backup and a commit of `dev-a` the chunk of `f` is
still named. -/
theorem evicted_stay_protected_example :
    (TwoDevices.worldB (TwoDevices.backedUp ++ .evictFile "f" false ::
        TwoDevices.afterwards)).device.Evicted TwoDevices.fileOneCid ∧
      (TwoDevices.worldB (TwoDevices.backedUp ++ .evictFile "f" false ::
        TwoDevices.afterwards)).race.server.Protects TwoDevices.fileOneCid := by
  obtain ⟨-, hplaceholder, -⟩ := TwoDevices.worldB_observed
  have hevicted : (TwoDevices.worldB (TwoDevices.backedUp ++ .evictFile "f" false ::
      TwoDevices.afterwards)).device.Evicted TwoDevices.fileOneCid :=
    ⟨"f", fileOne, ⟨TwoDevices.fileOneCid, _, 3⟩, hplaceholder, List.mem_singleton.mpr rfl, rfl⟩
  exact ⟨hevicted, evicted_stay_protected TwoDevices.lawful TwoDevices.account "dev-b" ∅ .active
    TwoDevices.holdsF _ TwoDevices.evictsCovered_f TwoDevices.fileOneCid hevicted⟩

/-- `dev-c` may evict `g` because the head of `dev-a` has it.  After `dev-a` has committed a tree
without `g`, the placeholder of `dev-c` has a chunk that no committed leaf names. -/
theorem evicted_on_another_head :
    TwoDevices.worldC.device.Evicted TwoDevices.fileTwoCid ∧
      ¬ TwoDevices.worldC.race.server.Protects TwoDevices.fileTwoCid := by
  obtain ⟨hplaceholder, hleaves⟩ := TwoDevices.worldC_observed
  refine ⟨⟨"g", fileTwo, ⟨TwoDevices.fileTwoCid, _, 3⟩, hplaceholder, List.mem_singleton.mpr rfl,
    rfl⟩, ?_⟩
  rintro ⟨m, hm, leaf, hleaf, hcid⟩
  obtain ⟨m', hm', hobserved⟩ := Option.map_eq_some_iff.mp hleaves
  obtain rfl : m' = m := Option.some.inj (hm'.symm.trans hm)
  have hmem : TwoDevices.fileTwoCid ∈ m'.leaves.map ManifestLeaf.cid :=
    hcid ▸ List.mem_map_of_mem hleaf
  rw [(Prod.mk.inj hobserved).2] at hmem
  exact absurd hmem (by decide +kernel)

end Ciss
