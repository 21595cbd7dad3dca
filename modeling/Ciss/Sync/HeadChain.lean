import Ciss.Framework.Machine
import Ciss.Framework.Sequenced
import Ciss.Sync.Transfer

/-!
# The chain of a device's heads

`backup_frontier` is generic in its transport: the account's server, or the serverless mesh.  Here
it is taken that way, with every failure between the commit and the device's own records left
open: a put that fails, a slot that refuses, a slot that accepts and whose answer is lost, and
the two writes of the chain state, `device_counter` and `last_head_cid`, that follow an accepted
commit.

`ChainWorld` is one device with its transport over any number of backups, and `accepted` is the
history of the heads that its slot took.  The counter and the parent of the next head come from
the device's records, so the history is linked as long as the records keep up with it
(`head_chain_of_answered`): every accepted commit is answered, and both writes succeed.
-/

namespace Ciss

/-! ## The backup over any transport -/

/-- What `backup_frontier` asks of a transport.  One value stands for the transport during one
call, what its surroundings decide being decided; the rounds of the commit loop are numbered. -/
structure FrontierTransport (σ : Type) where
  key : Keypair
  /-- `push_tree`. -/
  push : Device → σ → Device × σ × Except SyncError PushedTree
  put : String → Bytes → σ → σ × Except SyncError Unit
  /-- Read the frontier, replace the own slot and list what every head needs. -/
  propose : Nat → Pending → σ → Except SyncError Proposal
  /-- `commit_frontier`: whether the slot takes the proposal, and what the caller is told. -/
  commit : Nat → Proposal → σ → σ × Bool × Except SyncError Unit

/-- How the writes of the chain state go: first the counter, then the head. -/
inductive StateWrites where
  | done
  | counterFailed (e : SyncError)
  | lastHeadFailed (e : SyncError)

section

variable {σ : Type} (T : FrontierTransport σ)

/-- The commit loop from round `n` on; returns whether the slot took the head, and the answer. -/
def commitRounds (b : Pending) : Nat → Nat → σ → σ × Bool × Except SyncError Nat
  | retriesLeft, n, s =>
      match T.propose n b s with
      | .error e => (s, false, .error e)
      | .ok proposal =>
          match T.commit n proposal s with
          | (s, taken, .ok ()) => (s, taken, .ok proposal.seq)
          | (s, taken, .error (.staleSeq attempted)) =>
              match retriesLeft with
              | 0 => (s, taken, .error (.staleSeq attempted))
              | retriesLeft + 1 => commitRounds b retriesLeft (n + 1) s
          | (s, taken, .error e) => (s, taken, .error e)

/-- Publish the device's tree and commit the frontier; besides the answer, the head that the slot
took. -/
def backupOn (P : Platform) (writes : StateWrites) (deviceId : String) (d : Device) (s : σ) :
    Device × σ × Option (String × DeviceHead) × Except SyncError FrontierReport :=
  match T.push d s with
  | (d, s, .error e) => (d, s, none, .error e)
  | (d, s, .ok pushed) =>
      let head := DeviceHead.newSigned deviceId (d.counter + 1) pushed.fsManifestCid d.lastHead
        d.base T.key
      match head.encode P.codec with
      | .error e => (d, s, none, .error e)
      | .ok headBytes =>
          let headCid := P.crypto.sha256Hex headBytes
          match T.put headCid headBytes s with
          | (s, .error e) => (d, s, none, .error e)
          | (s, .ok ()) =>
              let b : Pending := ⟨deviceId, pushed.needed, headCid, headBytes.length⟩
              match commitRounds T b maxCommitRetries 0 s with
              | (s, taken, .error e) =>
                  (d, s, if taken then some (headCid, head) else none, .error e)
              | (s, taken, .ok seq) =>
                  let accepted := if taken then some (headCid, head) else none
                  match writes with
                  | .counterFailed e => (d, s, accepted, .error e)
                  | .lastHeadFailed e => ({ d with counter := d.counter + 1 }, s, accepted, .error e)
                  | .done =>
                      ({ d with counter := d.counter + 1, lastHead := some headCid }, s, accepted,
                        .ok ⟨pushed, seq, headCid⟩)

end

/-! ## One device over many backups -/

/-- A device, its transport, and the heads that the slot took, oldest first. -/
structure ChainWorld (σ : Type) where
  device : Device
  transport : σ
  accepted : List (String × DeviceHead)

/-- A device that has not published yet. -/
def ChainWorld.init {σ : Type} (d : Device) (s : σ) : ChainWorld σ where
  device := { d with counter := 0, lastHead := none }
  transport := s
  accepted := []

/-- What happens to the device; `ε` is what the surroundings of one backup can be. -/
inductive HeadAction (σ ε : Type) where
  /-- Other devices, or the server, act on the transport. -/
  | others (f : σ → σ)
  /-- The directory and the rest of the state change in any way. -/
  | edit (d : Device)
  | backup (env : ε) (writes : StateWrites)

/-- One step. -/
def ChainWorld.step {σ ε : Type} (P : Platform) (T : ε → FrontierTransport σ) (deviceId : String)
    (w : ChainWorld σ) : HeadAction σ ε → ChainWorld σ
  | .others f => { w with transport := f w.transport }
  | .edit d =>
      { w with device := { d with counter := w.device.counter, lastHead := w.device.lastHead } }
  | .backup env writes =>
      match backupOn (T env) P writes deviceId w.device w.transport with
      | (d, s, accepted, _) => ⟨d, s, w.accepted ++ accepted.toList⟩

/-! ## What is accepted is answered -/

/-- The push leaves the records of the chain alone. -/
def FrontierTransport.KeepsChain {σ : Type} (T : FrontierTransport σ) : Prop :=
  ∀ d s, (T.push d s).1.counter = d.counter ∧ (T.push d s).1.lastHead = d.lastHead

/-- Once the tree is pushed and the head is stored, the loop reports success exactly when the slot
took the head. -/
def FrontierTransport.Answers {σ : Type} (T : FrontierTransport σ) (P : Platform)
    (deviceId : String) : Prop :=
  ∀ (d₀ d : Device) (pushed : PushedTree) (headBytes : Bytes) (s₀ s s' : σ),
    T.push d₀ s₀ = (d, s, .ok pushed) →
    (DeviceHead.newSigned deviceId (d.counter + 1) pushed.fsManifestCid d.lastHead d.base
      T.key).encode P.codec = .ok headBytes →
    T.put (P.crypto.sha256Hex headBytes) headBytes s = (s', .ok ()) →
    ∀ retriesLeft n, (commitRounds T ⟨deviceId, pushed.needed, P.crypto.sha256Hex headBytes,
        headBytes.length⟩ retriesLeft n s').2.1 = true ↔
      ∃ seq, (commitRounds T ⟨deviceId, pushed.needed, P.crypto.sha256Hex headBytes,
        headBytes.length⟩ retriesLeft n s').2.2 = .ok seq

section

variable {σ ε : Type} {T : FrontierTransport σ} {b : Pending} {s s' : σ}

/-- **The last round.**  The loop ends with a round that cannot propose, or with the commit of a
round; `Ready` is what the rounds before it, all refused as stale, keep. -/
lemma commitRounds_last (Ready : σ → Prop)
    (hstale : ∀ n proposal s s' taken attempted, Ready s → T.propose n b s = .ok proposal →
      T.commit n proposal s = (s', taken, .error (.staleSeq attempted)) → Ready s')
    (hs : Ready s) (retriesLeft n : Nat) :
    ∃ m s₁, Ready s₁ ∧
      ((∃ e, commitRounds T b retriesLeft n s = (s₁, false, .error e)) ∨
        ∃ proposal s' taken r, T.propose m b s₁ = .ok proposal ∧
          T.commit m proposal s₁ = (s', taken, r) ∧
          commitRounds T b retriesLeft n s = (s', taken, r.map fun _ => proposal.seq)) := by
  induction retriesLeft generalizing n s with
  | zero =>
      refine ⟨n, s, hs, ?_⟩
      unfold commitRounds
      rcases hprop : T.propose n b s with e | proposal
      · exact Or.inl ⟨e, rfl⟩
      dsimp only
      rcases hc : T.commit n proposal s with ⟨s', taken, e | u⟩
      · refine Or.inr ⟨proposal, s', taken, .error e, rfl, hc, ?_⟩
        cases e with
        | staleSeq attempted => rfl
        | _ => rfl
      · exact Or.inr ⟨proposal, s', taken, .ok u, rfl, hc, rfl⟩
  | succ retriesLeft ih =>
      unfold commitRounds
      rcases hprop : T.propose n b s with e | proposal
      · exact ⟨n, s, hs, Or.inl ⟨e, rfl⟩⟩
      dsimp only
      rcases hc : T.commit n proposal s with ⟨s', taken, e | u⟩
      · cases e with
        | staleSeq attempted => exact ih (hstale n proposal s s' taken attempted hs hprop hc) (n + 1)
        | _ => exact ⟨n, s, hs, Or.inr ⟨proposal, s', taken, _, hprop, hc, rfl⟩⟩
      · exact ⟨n, s, hs, Or.inr ⟨proposal, s', taken, .ok u, hprop, hc, rfl⟩⟩

/-- If every commit is reported as it went, so is the loop; `Ready` is what the commits need of the
transport. -/
lemma commitRounds_answers (Ready : σ → Prop)
    (hcommit : ∀ n proposal s, Ready s → T.propose n b s = .ok proposal →
      ((T.commit n proposal s).2.1 = true ↔ (T.commit n proposal s).2.2 = .ok ()) ∧
        Ready (T.commit n proposal s).1) (hs : Ready s) (retriesLeft n : Nat) :
    (commitRounds T b retriesLeft n s).2.1 = true ↔
      ∃ seq, (commitRounds T b retriesLeft n s).2.2 = .ok seq := by
  have hstale : ∀ n proposal s s' taken attempted, Ready s → T.propose n b s = .ok proposal →
      T.commit n proposal s = (s', taken, .error (.staleSeq attempted)) → Ready s' := by
    intro n proposal s s' taken attempted hready hprop hc
    have := (hcommit n proposal s hready hprop).2
    rwa [hc] at this
  obtain ⟨m, s₁, hready, ⟨e, he⟩ | ⟨proposal, s', taken, r, hprop, hc, hrounds⟩⟩ :=
    commitRounds_last Ready hstale hs retriesLeft n
  · rw [he]
    simp
  · obtain ⟨hans, -⟩ := hcommit m proposal s₁ hready hprop
    rw [hc] at hans
    rw [hrounds]
    rcases r with e | u
    · simpa [Except.map] using hans
    · simpa [Except.map] using hans

/-- What an accepted commit leaves in the device's records. -/
def StateWrites.Leave (writes : StateWrites) (headCid : String) (d d' : Device) : Prop :=
  (writes = .done ∧ d' = { d with counter := d.counter + 1, lastHead := some headCid }) ∨
    ((∃ e, writes = .lastHeadFailed e) ∧ d' = { d with counter := d.counter + 1 }) ∨
    (∃ e, writes = .counterFailed e) ∧ d' = d

/-- **What a backup can do.**  It ends before the commit loop; or the head is stored and the loop
runs, and the records are written if the loop reports success. -/
lemma backupOn_cases {P : Platform} {writes : StateWrites} {deviceId : String} {d d' : Device}
    {accepted : Option (String × DeviceHead)} {result : Except SyncError FrontierReport}
    (h : backupOn T P writes deviceId d s = (d', s', accepted, result)) :
    (∃ s₁ r, T.push d s = (d', s₁, r) ∧ accepted = none ∧
        (s' = s₁ ∨ ∃ cid bytes e, T.put cid bytes s₁ = (s', .error e))) ∨
      ∃ d₁ s₁ s₂ pushed headBytes taken answer, T.push d s = (d₁, s₁, .ok pushed) ∧
        (DeviceHead.newSigned deviceId (d₁.counter + 1) pushed.fsManifestCid d₁.lastHead d₁.base
          T.key).encode P.codec = .ok headBytes ∧
        T.put (P.crypto.sha256Hex headBytes) headBytes s₁ = (s₂, .ok ()) ∧
        commitRounds T ⟨deviceId, pushed.needed, P.crypto.sha256Hex headBytes, headBytes.length⟩
          maxCommitRetries 0 s₂ = (s', taken, answer) ∧
        accepted = (if taken then some (P.crypto.sha256Hex headBytes, DeviceHead.newSigned deviceId
          (d₁.counter + 1) pushed.fsManifestCid d₁.lastHead d₁.base T.key) else none) ∧
        ((∃ e, answer = .error e ∧ d' = d₁) ∨
          ∃ seq, answer = .ok seq ∧ writes.Leave (P.crypto.sha256Hex headBytes) d₁ d') := by
  unfold backupOn at h
  rcases hpush : T.push d s with ⟨d₁, s₁, e | pushed⟩
  · rw [hpush] at h
    obtain ⟨rfl, rfl, rfl, -⟩ : _ ∧ _ ∧ _ ∧ _ := by simpa using h
    exact Or.inl ⟨_, .error e, rfl, rfl, Or.inl rfl⟩
  rw [hpush] at h
  dsimp only at h
  split at h
  · obtain ⟨rfl, rfl, rfl, -⟩ : _ ∧ _ ∧ _ ∧ _ := by simpa using h
    exact Or.inl ⟨_, .ok pushed, rfl, rfl, Or.inl rfl⟩
  rename_i headBytes hencode
  rcases hput : T.put (P.crypto.sha256Hex headBytes) headBytes s₁ with ⟨s₂, e | u⟩
  · rw [hput] at h
    obtain ⟨rfl, rfl, rfl, -⟩ : _ ∧ _ ∧ _ ∧ _ := by simpa using h
    exact Or.inl ⟨s₁, .ok pushed, rfl, rfl, Or.inr ⟨_, _, e, hput⟩⟩
  rw [hput] at h
  dsimp only at h
  rcases hloop : commitRounds T ⟨deviceId, pushed.needed, P.crypto.sha256Hex headBytes,
      headBytes.length⟩ maxCommitRetries 0 s₂ with ⟨s₃, taken, e | seq⟩
  · rw [hloop] at h
    obtain ⟨rfl, rfl, rfl, -⟩ : _ ∧ _ ∧ _ ∧ _ := by simpa using h
    exact Or.inr ⟨_, s₁, s₂, pushed, headBytes, taken, .error e, rfl, hencode, hput, hloop, rfl,
      Or.inl ⟨e, rfl, rfl⟩⟩
  · rw [hloop] at h
    have hleave : s' = s₃ ∧ accepted = (if taken then some (P.crypto.sha256Hex headBytes,
        DeviceHead.newSigned deviceId (d₁.counter + 1) pushed.fsManifestCid d₁.lastHead d₁.base
          T.key) else none) ∧ writes.Leave (P.crypto.sha256Hex headBytes) d₁ d' := by
      cases writes with
      | done =>
          obtain ⟨rfl, rfl, rfl, -⟩ : _ ∧ _ ∧ _ ∧ _ := by simpa using h
          exact ⟨rfl, rfl, Or.inl ⟨rfl, rfl⟩⟩
      | counterFailed e =>
          obtain ⟨rfl, rfl, rfl, -⟩ : _ ∧ _ ∧ _ ∧ _ := by simpa using h
          exact ⟨rfl, rfl, Or.inr (Or.inr ⟨⟨e, rfl⟩, rfl⟩)⟩
      | lastHeadFailed e =>
          obtain ⟨rfl, rfl, rfl, -⟩ : _ ∧ _ ∧ _ ∧ _ := by simpa using h
          exact ⟨rfl, rfl, Or.inr (Or.inl ⟨⟨e, rfl⟩, rfl⟩)⟩
    obtain ⟨rfl, rfl, hrec⟩ := hleave
    exact Or.inr ⟨d₁, s₁, s₂, pushed, headBytes, taken, .ok seq, rfl, hencode, hput, hloop, rfl,
      Or.inr ⟨seq, rfl, hrec⟩⟩

/-- **What a backup can do to the chain**, when what is accepted is answered and both writes
succeed: nothing is accepted and the records stand, or a head with the next counter and the last
head as its parent is accepted and the records are those of that head. -/
lemma backupOn_chain {P : Platform} {deviceId : String} (hkeep : T.KeepsChain)
    (hT : T.Answers P deviceId) {d d' : Device} {accepted : Option (String × DeviceHead)}
    {result : Except SyncError FrontierReport}
    (h : backupOn T P .done deviceId d s = (d', s', accepted, result)) :
    (accepted = none ∧ d'.counter = d.counter ∧ d'.lastHead = d.lastHead) ∨
      ∃ headCid head, accepted = some (headCid, head) ∧ head.counter = d.counter + 1 ∧
        head.parent = d.lastHead ∧ d'.counter = d.counter + 1 ∧ d'.lastHead = some headCid := by
  have hk := hkeep d s
  obtain ⟨s₁, r, hpush, rfl, -⟩ | ⟨d₁, s₁, s₂, pushed, headBytes, taken, answer, hpush, hencode,
    hput, hloop, rfl, hrec⟩ := backupOn_cases h
  · rw [hpush] at hk
    exact Or.inl ⟨rfl, hk⟩
  rw [hpush] at hk
  have hans := hT d d₁ pushed headBytes s s₁ s₂ hpush hencode hput maxCommitRetries 0
  rw [hloop] at hans
  obtain ⟨e, rfl, rfl⟩ | ⟨seq, rfl, ⟨-, rfl⟩ | ⟨⟨e, he⟩, -⟩ | ⟨⟨e, he⟩, -⟩⟩ := hrec
  · obtain rfl : taken = false := by simpa using hans
    exact Or.inl ⟨rfl, hk⟩
  · obtain rfl : taken = true := hans.mpr ⟨seq, rfl⟩
    refine Or.inr ⟨_, _, rfl, ?_, hk.2, ?_, rfl⟩
    · exact congrArg (· + 1) hk.1
    · exact congrArg (· + 1) hk.1
  · simp at he
  · simp at he

/-- The step is answered, and its writes succeed. -/
def BackupAnswered (P : Platform) (T : ε → FrontierTransport σ) (deviceId : String) (_ : ChainWorld σ) :
    HeadAction σ ε → Prop
  | .backup env writes => (T env).Answers P deviceId ∧ writes = .done
  | _ => True

/-- The history is linked and the device remembers its end. -/
structure ChainWorld.Recorded (w : ChainWorld σ) : Prop where
  linked : Linked DeviceHead.counter DeviceHead.parent w.accepted
  remembers : AtEnd DeviceHead.counter w.accepted w.device.counter w.device.lastHead

lemma ChainWorld.Recorded.step {P : Platform} {T : ε → FrontierTransport σ} {deviceId : String}
    {w : ChainWorld σ} {a : HeadAction σ ε} (h : w.Recorded) (hkeep : ∀ env, (T env).KeepsChain)
    (ha : BackupAnswered P T deviceId w a) : (w.step P T deviceId a).Recorded := by
  rcases a with f | d | ⟨env, writes⟩
  · exact ⟨h.linked, h.remembers⟩
  · exact ⟨h.linked, h.remembers⟩
  · obtain ⟨hans, rfl⟩ := ha
    rcases hb : backupOn (T env) P .done deviceId w.device w.transport with ⟨d, s, accepted, r⟩
    have hstep : w.step P T deviceId (.backup env .done) =
        ⟨d, s, w.accepted ++ accepted.toList⟩ := by
      simp only [ChainWorld.step, hb]
    rw [hstep]
    rcases backupOn_chain (hkeep env) hans hb with ⟨rfl, hcounter, hlast⟩ |
      ⟨headCid, head, rfl, hcounter, hparent, hcounter', hlast'⟩
    · refine ⟨by simpa using h.linked, ?_⟩
      rw [hcounter, hlast]
      simpa using h.remembers
    · obtain ⟨hlinked, hremembers⟩ := h.linked.extend (x := (headCid, head)) h.remembers hcounter
        hparent
      refine ⟨hlinked, ?_⟩
      rw [hcounter', hlast']
      exact hremembers

/-- **The history is linked** in every run whose accepted commits are answered and recorded. -/
lemma head_chain_of_answered {P : Platform} {T : ε → FrontierTransport σ} {deviceId : String}
    (hkeep : ∀ env, (T env).KeepsChain) {d : Device} {acts : List (HeadAction σ ε)}
    (h : Along (ChainWorld.step P T deviceId) (BackupAnswered P T deviceId) (ChainWorld.init d s) acts) :
    Linked DeviceHead.counter DeviceHead.parent
      (run (ChainWorld.step P T deviceId) (ChainWorld.init d s) acts).accepted := by
  have hinit : (ChainWorld.init d s).Recorded := ⟨Linked.nil, AtEnd.nil⟩
  exact (run_invariant (fun _ _ hw ha => hw.step hkeep ha) hinit h).linked

end

/-! ## The server as the transport -/

/-- What surrounds one backup to the server. -/
structure HttpEnv where
  push : PushEnv
  /-- The server's database at the put of a round. -/
  fault : Nat → Option PersistError
  /-- What others do between the read of a round and its put. -/
  others : Nat → SyncServer → SyncServer
  /-- The put of a round does not get to the server. -/
  unsent : Nat → Option String
  /-- The server's answer to an accepted put is lost. -/
  lost : Nat → Option String

/-- `HttpCiss`. -/
def httpTransport (P : Platform) (key : Keypair) (env : HttpEnv) : FrontierTransport Wire where
  key := key
  push d w := pushOver P env.push true d w
  put cid bytes w := w.put P env.push.refuse cid bytes
  propose _ b w := proposeCommit P key.verifyingKey b w.server w.server.frontier
  commit n proposal w :=
    match env.unsent n with
    | some text => (⟨env.others n w.server, w.accepted⟩, false, .error (.transport text))
    | none =>
        match commitFrontier P key (env.fault n) (env.others n w.server) proposal with
        | (s, .error e) => (⟨s, w.accepted⟩, false, .error e)
        | (s, .ok ()) =>
            match env.lost n with
            | some text => (⟨s, w.accepted⟩, true, .error (.transport text))
            | none => (⟨s, w.accepted⟩, true, .ok ())

section

variable {P : Platform} {key : Keypair} {env : HttpEnv}

lemma logicalTreeWith_chain (P : Platform) (opened : Bool) (d : Device) :
    (logicalTreeWith P opened d).2.counter = d.counter ∧
      (logicalTreeWith P opened d).2.lastHead = d.lastHead := by
  unfold logicalTreeWith
  split
  · exact ⟨rfl, rfl⟩
  · exact ⟨rfl, rfl⟩

/-- A push leaves the records of the chain alone. -/
lemma pushOver_chain (P : Platform) (env : PushEnv) (opened : Bool) (d : Device) (w : Wire) :
    (pushOver P env opened d w).1.counter = d.counter ∧
      (pushOver P env opened d w).1.lastHead = d.lastHead := by
  rcases h : pushOver P env opened d w with ⟨d', w', r⟩
  obtain ⟨ledgers, rfl⟩ := pushOver_device h
  exact logicalTreeWith_chain P opened d

lemma httpTransport_keepsChain : (httpTransport P key env).KeepsChain :=
  fun d w => pushOver_chain P env.push true d w

/-- The server answers what it accepts, unless the answer is lost. -/
lemma httpTransport_answers (h : ∀ n, env.lost n = none) (deviceId : String) :
    (httpTransport P key env).Answers P deviceId := by
  intro d₀ d pushed headBytes w₀ w w' _ _ _
  refine commitRounds_answers (fun _ => True) ?_ trivial
  intro n proposal w _ _
  refine ⟨?_, trivial⟩
  dsimp only [httpTransport]
  rcases env.unsent n with _ | text
  · dsimp only
    rcases commitFrontier P key (env.fault n) (env.others n w.server) proposal with ⟨s, e | u⟩
    · simp
    · simp [h n]
  · simp

/-- Nobody interferes and nothing is lost. -/
def HttpEnv.quiet (push : PushEnv) (fault : Option PersistError) : HttpEnv where
  push := push
  fault _ := fault
  others _ s := s
  unsent _ := none
  lost _ := none

lemma commitRounds_quiet (P : Platform) (key : Keypair) (push : PushEnv) (fault : Option PersistError)
    (b : Pending) (retriesLeft n : Nat) (w : Wire) :
    (commitRounds (httpTransport P key (.quiet push fault)) b retriesLeft n w).1 =
        ⟨(commitLoop P key fault b retriesLeft w.server).1, w.accepted⟩ ∧
      (commitRounds (httpTransport P key (.quiet push fault)) b retriesLeft n w).2.2 =
        (commitLoop P key fault b retriesLeft w.server).2 := by
  induction retriesLeft generalizing n w with
  | zero =>
      unfold commitRounds commitLoop
      dsimp only [httpTransport, HttpEnv.quiet]
      rcases proposeCommit P key.verifyingKey b w.server w.server.frontier with e | proposal
      · exact ⟨rfl, rfl⟩
      dsimp only
      rcases commitFrontier P key fault w.server proposal with ⟨s, e | u⟩
      · cases e with
        | staleSeq attempted => exact ⟨rfl, rfl⟩
        | _ => exact ⟨rfl, rfl⟩
      · exact ⟨rfl, rfl⟩
  | succ retriesLeft ih =>
      unfold commitRounds commitLoop
      dsimp only [httpTransport, HttpEnv.quiet]
      rcases proposeCommit P key.verifyingKey b w.server w.server.frontier with e | proposal
      · exact ⟨rfl, rfl⟩
      dsimp only
      rcases commitFrontier P key fault w.server proposal with ⟨s, e | u⟩
      · cases e with
        | staleSeq attempted => exact ih (n + 1) ⟨s, w.accepted⟩
        | _ => exact ⟨rfl, rfl⟩
      · exact ⟨rfl, rfl⟩

/-- **The backup of `Ciss.Sync.Transfer`** is this one over the server, when nobody interferes and
nothing is lost. -/
theorem backupFrontierOver_eq_backupOn (push : PushEnv) (fault : Option PersistError)
    (deviceId : String) (d : Device) (w : Wire) :
    (backupOn (httpTransport P key (.quiet push fault)) P .done deviceId d w).1 =
        (backupFrontierOver P key push fault deviceId d w).1 ∧
      (backupOn (httpTransport P key (.quiet push fault)) P .done deviceId d w).2.1 =
        (backupFrontierOver P key push fault deviceId d w).2.1 ∧
      (backupOn (httpTransport P key (.quiet push fault)) P .done deviceId d w).2.2.2 =
        (backupFrontierOver P key push fault deviceId d w).2.2 := by
  have hpushes : (httpTransport P key (.quiet push fault)).push d w = pushOver P push true d w := rfl
  have hkey : (httpTransport P key (.quiet push fault)).key = key := rfl
  have hputs : ∀ cid bytes w, (httpTransport P key (.quiet push fault)).put cid bytes w =
      w.put P push.refuse cid bytes := fun _ _ _ => rfl
  unfold backupOn backupFrontierOver
  rw [hpushes, hkey]
  rcases pushOver P push true d w with ⟨d₁, w₁, e | pushed⟩
  · exact ⟨rfl, rfl, rfl⟩
  dsimp only
  rcases (DeviceHead.newSigned deviceId (d₁.counter + 1) pushed.fsManifestCid d₁.lastHead d₁.base
    key).encode P.codec with e | headBytes
  · exact ⟨rfl, rfl, rfl⟩
  dsimp only
  rw [hputs]
  rcases w₁.put P push.refuse (P.crypto.sha256Hex headBytes) headBytes with ⟨w₂, e | u⟩
  · exact ⟨rfl, rfl, rfl⟩
  dsimp only
  obtain ⟨hw, hr⟩ := commitRounds_quiet P key push fault ⟨deviceId, pushed.needed,
    P.crypto.sha256Hex headBytes, headBytes.length⟩ maxCommitRetries 0 w₂
  rcases hloop : commitRounds (httpTransport P key (.quiet push fault)) ⟨deviceId, pushed.needed,
    P.crypto.sha256Hex headBytes, headBytes.length⟩ maxCommitRetries 0 w₂ with ⟨w₃, taken, r⟩
  rcases hc : commitLoop P key fault ⟨deviceId, pushed.needed, P.crypto.sha256Hex headBytes,
    headBytes.length⟩ maxCommitRetries w₂.server with ⟨s₃, r'⟩
  rw [hloop, hc] at hw hr
  obtain rfl : w₃ = ⟨s₃, w₂.accepted⟩ := hw
  obtain rfl : r = r' := hr
  rcases r with e | seq
  · exact ⟨rfl, rfl, rfl⟩
  · exact ⟨rfl, rfl, rfl⟩

end

end Ciss
