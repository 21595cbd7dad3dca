import Ciss.Framework.Machine
import Ciss.Sync.Frontier

/-!
# Commits that race

Any number of devices of one account run the commit loop against one manifest slot.  A call
that has pushed its tree reads the frontier, prepares a proposal from what it read, and puts it;
reads and puts of different calls interleave in any order, and blobs may be stored and the
account mode dialled in between.  A refused put is read again and retried up to three times.

`Race.accepted` is a history variable: the own head of every accepted put, in order.
`frontier_loses_no_head` says that the committed heads map is exactly the last accepted head of
each device.  What carries it: a read that is as old as the slot's current seq has seen the
slot's current heads (`ReadsTrue`), and the put of an older read is refused.
-/

namespace Ciss

/-- A call in its commit loop: what it pushed, the retries it has used, and the proposal it made
from its last read, if it has not put it yet. -/
structure CommitCall where
  pending : Pending
  retries : Nat
  proposal : Option Proposal

/-- The account's namespace, the calls in flight, and the own head of every accepted put. -/
structure Race where
  server : SyncServer
  calls : Nat → Option CommitCall
  accepted : List (String × String)

/-- One atomic step. -/
inductive RaceAction where
  /-- Some client stores a blob. -/
  | store (bytes : Bytes)
  /-- The owner dials the account mode. -/
  | dial (mode : AccountMode)
  /-- A call of `backup_frontier` enters its loop, with whatever it pushed. -/
  | start (pid : Nat) (b : Pending)
  /-- The call reads the frontier. -/
  | read (pid : Nat)
  /-- The call puts its proposal; `fault` is a failure of the server's database. -/
  | put (pid : Nat) (fault : Option PersistError)

namespace Race

variable (P : Platform) (key : Keypair)

/-- Replace the state of one call. -/
def setCall (r : Race) (pid : Nat) (call : Option CommitCall) : Race :=
  { r with calls := Function.update r.calls pid call }

/-- One step of the race; a step that is not enabled changes nothing. -/
def step (r : Race) : RaceAction → Race
  | .store bytes => { r with server := (r.server.put P none (P.crypto.sha256Hex bytes) bytes).1 }
  | .dial mode => { r with server := { r.server with
      slot := { r.server.slot with accountMode := mode } } }
  | .start pid b => if (r.calls pid).isSome then r else r.setCall pid (some ⟨b, 0, none⟩)
  | .read pid =>
      match r.calls pid with
      | some ⟨b, retries, none⟩ =>
          match proposeCommit P key.verifyingKey b r.server r.server.frontier with
          | .ok proposal => r.setCall pid (some ⟨b, retries, some proposal⟩)
          | .error _ => r.setCall pid none
      | _ => r
  | .put pid fault =>
      match r.calls pid with
      | some ⟨b, retries, some proposal⟩ =>
          match commitFrontier P key fault r.server proposal with
          | (server, .ok ()) =>
              { server := server
                calls := Function.update r.calls pid none
                accepted := r.accepted ++ [(b.deviceId, b.headCid)] }
          | (server, .error (.staleSeq _)) =>
              { r with server := server }.setCall pid
                (if retries < maxCommitRetries then some ⟨b, retries + 1, none⟩ else none)
          | (server, .error _) => { r with server := server }.setCall pid none
      | _ => r

/-- No manifest yet, no call in flight; the store may hold any blobs. -/
def init (blobs : ByCid Bytes) (mode : AccountMode) : Race where
  server := ⟨blobs, ⟨mode, none⟩⟩
  calls _ := none
  accepted := []

end Race

/-- Every proposal was made from a read that is no newer than the slot, and that saw the slot's
heads if the slot has not moved since. -/
def Race.ReadsTrue (r : Race) : Prop :=
  ∀ pid b retries proposal, r.calls pid = some ⟨b, retries, some proposal⟩ →
    ∃ (seq : Nat) (heads : HeadCids), proposal.seq = seq + 1 ∧
      proposal.heads = heads.insert b.deviceId b.headCid ∧
      seq ≤ r.server.seq ∧ (seq = r.server.seq → heads = r.server.heads)

/-- The heads map is the last accepted head of every device, and every pending read is true. -/
structure Race.Tracks (r : Race) : Prop where
  heads : ∀ device, r.server.heads[device]? = lastWrite device r.accepted
  reads : r.ReadsTrue

section

variable {P : Platform} {key : Keypair} {r : Race} {s : SyncServer}

lemma Race.ReadsTrue.setCall {pid : Nat} {call : Option CommitCall} (h : r.ReadsTrue)
    (hcall : ∀ b retries proposal, call = some ⟨b, retries, some proposal⟩ →
      ∃ (seq : Nat) (heads : HeadCids), proposal.seq = seq + 1 ∧
        proposal.heads = heads.insert b.deviceId b.headCid ∧
        seq ≤ r.server.seq ∧ (seq = r.server.seq → heads = r.server.heads)) :
    (r.setCall pid call).ReadsTrue := by
  intro pid' b retries proposal hp
  simp only [Race.setCall, Function.update_apply] at hp
  split at hp
  · exact hcall b retries proposal hp
  · exact h pid' b retries proposal hp

lemma SyncServer.heads_congr {s' : SyncServer} (h : s'.slot.manifest = s.slot.manifest) :
    s'.heads = s.heads ∧ s'.seq = s.seq := by
  simp [SyncServer.heads, SyncServer.seq, SyncServer.frontier, h]

/-- Only an accepted put moves the manifest. -/
lemma Race.step_manifest {a : RaceAction} (h : ∀ pid fault, a ≠ .put pid fault) :
    (r.step P key a).server.slot.manifest = r.server.slot.manifest := by
  cases a with
  | store bytes =>
      change (r.server.put P none (P.crypto.sha256Hex bytes) bytes).1.slot.manifest = _
      rw [(SyncServer.put_spec r.server none (P.crypto.sha256Hex bytes) bytes).1.slot]
  | dial mode => rfl
  | start pid b =>
      unfold Race.step
      dsimp only
      split
      · rfl
      · rfl
  | read pid =>
      unfold Race.step
      dsimp only
      split
      · split
        · rfl
        · rfl
      · rfl
  | put pid fault => exact absurd rfl (h pid fault)

/-- Where the manifest stands and no call has a new proposal, the race tracks on. -/
lemma Race.Tracks.congr {r' : Race} (h : r.Tracks)
    (hm : r'.server.slot.manifest = r.server.slot.manifest) (haccepted : r'.accepted = r.accepted)
    (hcalls : ∀ pid b retries proposal, r'.calls pid = some ⟨b, retries, some proposal⟩ →
      r.calls pid = some ⟨b, retries, some proposal⟩) : r'.Tracks := by
  obtain ⟨hheads, hseq⟩ := SyncServer.heads_congr hm
  refine ⟨?_, ?_⟩
  · rw [hheads, haccepted]
    exact h.heads
  · intro pid b retries proposal hp
    rw [hheads, hseq]
    exact h.reads pid b retries proposal (hcalls pid b retries proposal hp)

/-- A read is true at the moment it is made. -/
lemma Race.Tracks.read (h : r.Tracks) (pid : Nat) : (r.step P key (.read pid)).Tracks := by
  unfold Race.step
  dsimp only
  split
  · rename_i b retries hcall
    split
    · rename_i proposal hprop
      refine ⟨h.heads, h.reads.setCall ?_⟩
      intro b' retries' proposal' heq
      obtain ⟨rfl, rfl, rfl⟩ : b = b' ∧ retries = retries' ∧ proposal = proposal' := by
        simpa using heq
      obtain ⟨hseq, hheads⟩ := proposeCommit_seq_heads hprop
      exact ⟨r.server.seq, r.server.heads, hseq, hheads, le_refl _, fun _ => rfl⟩
    · exact ⟨h.heads, h.reads.setCall (by simp)⟩
  · exact h

/-- **What a put can do.**  It is refused, or there is nothing to put: the slot stands, and at most
the call has lost its proposal.  Or it is accepted, and was made from the current heads: the put was
newer than the slot, so its read was not older. -/
lemma Race.put_cases (P : Platform) (key : Keypair) (h : r.ReadsTrue) (pid : Nat)
    (fault : Option PersistError) :
    ((r.step P key (.put pid fault)).server = r.server ∧
        (r.step P key (.put pid fault)).accepted = r.accepted ∧
        ((r.step P key (.put pid fault)).calls = r.calls ∨
          ∃ call, (r.step P key (.put pid fault)).calls = Function.update r.calls pid call ∧
            ∀ b retries proposal, call = some ⟨b, retries, proposal⟩ → proposal = none ∧
              ∃ retries' proposal', r.calls pid = some ⟨b, retries', proposal'⟩)) ∨
      ∃ b retries proposal m, r.calls pid = some ⟨b, retries, some proposal⟩ ∧
        r.step P key (.put pid fault) =
          { server := { r.server with slot := { r.server.slot with manifest := some m } }
            calls := Function.update r.calls pid none
            accepted := r.accepted ++ [(b.deviceId, b.headCid)] } ∧
        m.seq = r.server.seq + 1 ∧
        m.heads = some (r.server.heads.insert b.deviceId b.headCid) ∧
        proposal.heads = r.server.heads.insert b.deviceId b.headCid ∧
        ∀ x, x ∈ m.leaves ↔ (x.cid, x.size) ∈ proposal.leaves := by
  unfold Race.step
  dsimp only
  split
  · rename_i b retries proposal hcall
    rcases hc : commitFrontier P key fault r.server proposal with ⟨server, res⟩
    rcases commitFrontier_cases hc with ⟨rfl, e, rfl⟩ | ⟨m, rfl, rfl, hseq, hheads, hleaves, hnew⟩
    · refine Or.inl ?_
      cases e with
      | staleSeq attempted =>
          refine ⟨rfl, rfl, Or.inr ⟨_, rfl, ?_⟩⟩
          intro b' retries' proposal' heq
          split at heq
          · obtain ⟨rfl, -, rfl⟩ : b = b' ∧ retries + 1 = retries' ∧ none = proposal' := by
              simpa using heq
            exact ⟨rfl, retries, some proposal, hcall⟩
          · simp at heq
      | _ => exact ⟨rfl, rfl, Or.inr ⟨none, rfl, by simp⟩⟩
    · obtain ⟨seq, heads, hp, hph, hle, hcur⟩ := h pid b retries proposal hcall
      have heq : seq = r.server.seq := by
        cases hm : r.server.slot.manifest with
        | none =>
            have hzero : r.server.seq = 0 := by simp [SyncServer.seq, SyncServer.frontier, hm]
            omega
        | some old =>
            have hold : r.server.seq = old.seq := by simp [SyncServer.seq, SyncServer.frontier, hm]
            have := hnew old hm
            omega
      rw [hcur heq] at hph
      exact Or.inr ⟨b, retries, proposal, m, hcall, rfl, by rw [hseq, hp, heq], by rw [hheads, hph],
        hph, hleaves⟩
  · exact Or.inl ⟨rfl, rfl, Or.inl rfl⟩

/-- Every pending read is true after a put: after an accepted one it is older than the slot. -/
lemma Race.Tracks.put (h : r.Tracks) (pid : Nat) (fault : Option PersistError) :
    (r.step P key (.put pid fault)).Tracks := by
  rcases Race.put_cases P key h.reads pid fault with
    ⟨hserver, haccepted, hcalls⟩ | ⟨b, retries, proposal, m, hcall, hstep, hseq, hheads, -, -⟩
  · refine h.congr (by rw [hserver]) haccepted ?_
    intro pid' b' retries' proposal' hp'
    obtain hcalls | ⟨call, hcalls, hnone⟩ := hcalls
    · rwa [hcalls] at hp'
    · rw [hcalls, Function.update_apply] at hp'
      split at hp'
      · exact absurd (hnone b' retries' (some proposal') hp').1 (by simp)
      · exact hp'
  · have hheads' : (r.step P key (.put pid fault)).server.heads =
        r.server.heads.insert b.deviceId b.headCid := by
      rw [hstep]
      simp [SyncServer.heads, SyncServer.frontier, hheads]
    have hseq' : (r.step P key (.put pid fault)).server.seq = r.server.seq + 1 := by
      rw [hstep]
      simp [SyncServer.seq, SyncServer.frontier, hseq]
    refine ⟨?_, ?_⟩
    · intro device
      rw [hheads', hstep]
      dsimp only
      rw [lastWrite_append, Std.ExtTreeMap.getElem?_insert]
      by_cases hd : b.deviceId = device
      · simp [lastWrite, hd]
      · simp [lastWrite, hd, h.heads device]
    · intro pid' b' retries' proposal' hp'
      rw [hheads', hseq']
      rw [hstep] at hp'
      dsimp only at hp'
      rw [Function.update_apply] at hp'
      split at hp'
      · simp at hp'
      · obtain ⟨seq', heads', hps, hph', hle', -⟩ := h.reads pid' b' retries' proposal' hp'
        exact ⟨seq', heads', hps, hph', by omega, by omega⟩

lemma Race.Tracks.step (h : r.Tracks) (a : RaceAction) : (r.step P key a).Tracks := by
  cases a with
  | store bytes =>
      exact h.congr (Race.step_manifest (by simp)) rfl fun _ _ _ _ hp => hp
  | dial mode => exact ⟨h.heads, h.reads⟩
  | start pid b =>
      unfold Race.step
      dsimp only
      split
      · exact h
      · exact ⟨h.heads, h.reads.setCall (by simp)⟩
  | read pid => exact h.read pid
  | put pid fault => exact h.put pid fault

/-- A call keeps what it pushed; only a start brings a new one. -/
lemma Race.step_calls {a : RaceAction} {pid retries : Nat} {b : Pending}
    {proposal : Option Proposal} (h : r.ReadsTrue)
    (hp : (r.step P key a).calls pid = some ⟨b, retries, proposal⟩) :
    (∃ retries' proposal', r.calls pid = some ⟨b, retries', proposal'⟩) ∨ a = .start pid b := by
  cases a with
  | store bytes => exact Or.inl ⟨retries, proposal, hp⟩
  | dial mode => exact Or.inl ⟨retries, proposal, hp⟩
  | start pid' b' =>
      unfold Race.step at hp
      dsimp only at hp
      split at hp
      · exact Or.inl ⟨retries, proposal, hp⟩
      · simp only [Race.setCall, Function.update_apply] at hp
        split at hp
        · rename_i hpid
          obtain ⟨rfl, -, -⟩ := CommitCall.mk.inj (Option.some.inj hp)
          exact Or.inr (by rw [hpid])
        · exact Or.inl ⟨retries, proposal, hp⟩
  | read pid' =>
      unfold Race.step at hp
      dsimp only at hp
      split at hp
      · rename_i b' retries' hcall
        split at hp
        · simp only [Race.setCall, Function.update_apply] at hp
          split at hp
          · rename_i hpid
            obtain ⟨rfl, -, -⟩ := CommitCall.mk.inj (Option.some.inj hp)
            exact Or.inl ⟨retries', none, hpid ▸ hcall⟩
          · exact Or.inl ⟨retries, proposal, hp⟩
        · simp only [Race.setCall, Function.update_apply] at hp
          split at hp
          · simp at hp
          · exact Or.inl ⟨retries, proposal, hp⟩
      · exact Or.inl ⟨retries, proposal, hp⟩
  | put pid' fault =>
      refine Or.inl ?_
      obtain ⟨-, -, hcalls | ⟨call, hcalls, hcall⟩⟩ | ⟨b', retries', proposal', m, -, hstep, -⟩ :=
        Race.put_cases P key h pid' fault
      · exact ⟨retries, proposal, hcalls ▸ hp⟩
      · rw [hcalls, Function.update_apply] at hp
        split at hp
        · rename_i hpid
          rw [hpid]
          exact (hcall b retries proposal hp).2
        · exact ⟨retries, proposal, hp⟩
      · rw [hstep] at hp
        dsimp only at hp
        rw [Function.update_apply] at hp
        split at hp
        · simp at hp
        · exact ⟨retries, proposal, hp⟩

/-! ### A call that is left alone -/

/-- Reads and puts of a call that is over change nothing. -/
lemma Race.run_rounds_over {pid : Nat} (h : r.calls pid = none) (fault : Option PersistError)
    (n : Nat) :
    run (Race.step P key) r (List.replicate n [.read pid, .put pid fault]).flatten = r := by
  have hread : r.step P key (.read pid) = r := by simp [Race.step, h]
  have hput : r.step P key (.put pid fault) = r := by simp [Race.step, h]
  induction n with
  | zero => rfl
  | succ n ih => simpa [List.replicate_succ, hread, hput] using ih

/-- One round of a call that is left alone: it is over, or the commit was stale and the next round
starts where the loop would go on. -/
lemma Race.run_round (P : Platform) (key : Keypair) (fault : Option PersistError)
    {pid retries : Nat} {b : Pending} {r' : Race} (h : r.calls pid = some ⟨b, retries, none⟩)
    (hr : (r.step P key (.read pid)).step P key (.put pid fault) = r') :
    (r'.calls pid = none ∧ ∀ n, (commitLoop P key fault b n r.server).1 = r'.server) ∨
      (r'.calls pid = (if retries < maxCommitRetries then some ⟨b, retries + 1, none⟩ else none) ∧
        (commitLoop P key fault b 0 r.server).1 = r'.server ∧
        ∀ n, commitLoop P key fault b (n + 1) r.server = commitLoop P key fault b n r'.server) := by
  subst hr
  rcases hprop : proposeCommit P key.verifyingKey b r.server r.server.frontier with e | proposal
  · refine Or.inl ⟨by simp [Race.step, h, hprop, Race.setCall], fun n => ?_⟩
    unfold commitLoop
    simp [Race.step, h, hprop, Race.setCall]
  rcases hc : commitFrontier P key fault r.server proposal with ⟨s, e | u⟩
  · cases e with
    | staleSeq attempted =>
        refine Or.inr ⟨by simp [Race.step, h, hprop, Race.setCall, hc], ?_, fun n => ?_⟩
        · unfold commitLoop
          simp [Race.step, h, hprop, Race.setCall, hc]
        · rw [commitLoop]
          simp [Race.step, h, hprop, Race.setCall, hc]
    | _ =>
        refine Or.inl ⟨by simp [Race.step, h, hprop, Race.setCall, hc], fun n => ?_⟩
        unfold commitLoop
        simp [Race.step, h, hprop, Race.setCall, hc]
  · refine Or.inl ⟨by simp [Race.step, h, hprop, Race.setCall, hc], fun n => ?_⟩
    unfold commitLoop
    simp [Race.step, h, hprop, Race.setCall, hc]

/-- **The commit loop is a call that nobody interferes with**: reads and puts by turns, as many as
it has tries. -/
theorem Race.run_rounds {pid retries : Nat} {b : Pending} {fault : Option PersistError} {n : Nat}
    (h : r.calls pid = some ⟨b, retries, none⟩) (hn : retries + n = maxCommitRetries) :
    (run (Race.step P key) r (List.replicate (n + 1) [.read pid, .put pid fault]).flatten).server =
      (commitLoop P key fault b n r.server).1 := by
  induction n generalizing r retries with
  | zero =>
      obtain ⟨-, hloop⟩ | ⟨-, hloop, -⟩ := Race.run_round P key fault h rfl
      · exact (hloop 0).symm
      · exact hloop.symm
  | succ n ih =>
      rw [List.replicate_succ, List.flatten_cons, run_append, run_cons, run_cons, run_nil]
      obtain ⟨hover, hloop⟩ | ⟨hcall, -, hloop⟩ := Race.run_round P key fault h rfl
      · rw [Race.run_rounds_over hover, hloop]
      · rw [if_pos (by omega)] at hcall
        rw [hloop]
        exact ih hcall (by omega)

/-- **No head is lost.**  In every run of the race, whatever the interleaving, the committed
heads map holds for every device exactly the head of that device's last accepted put, and
nothing for a device that has none. -/
theorem frontier_loses_no_head (P : Platform) (key : Keypair)
    (blobs : ByCid Bytes) (mode : AccountMode) (acts : List RaceAction)
    (device : String) :
    (run (Race.step P key) (Race.init blobs mode) acts).server.heads[device]? =
      lastWrite device (run (Race.step P key) (Race.init blobs mode) acts).accepted := by
  have hinit : (Race.init blobs mode).Tracks := by
    refine ⟨fun device => ?_, ?_⟩
    · simp [Race.init, SyncServer.heads, SyncServer.frontier]
    · intro pid b retries proposal hp
      simp [Race.init] at hp
  have hrun : (run (Race.step P key) (Race.init blobs mode) acts).Tracks :=
    run_invariant' (I := Race.Tracks) (fun _ a h => h.step a) hinit
  exact hrun.heads device

end

end Ciss
