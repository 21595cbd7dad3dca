import Ciss.Chain.Log
import Ciss.Framework.HashTable

/-!
# Soundness of the chain store over whole runs

A run of the chain store is a list of requests: writes to any route, well-formed or not, and
compactions.  `ChainRun` carries the store together with the writes it has accepted so far, so
that what the store holds can be compared with what was signed.

`ChainSound` is the property of a state: for every chain that has accepted a write, the retained
rows recompute, the total they recompute to is the last write's signed total and the sum of all
deltas ever accepted, and the latest-record row holds the last record.  It is *not* invariant:
the `total` column is an `i64`, the signed total a `u64`, and a step that crosses `i64::MAX` is
accepted and stored with a saturated total (`saturated_total_breaks_chain`).
`chain_sound_of_fits` says this is all that can go wrong: along every run in which each step
that would be accepted signs a total of at most `i64::MAX` (`ChainServer.Fits`), every state
reached is sound.
-/

namespace Ciss

/-! ## Runs -/

/-- A request to the chain store. -/
inductive ChainAction where
  | put (did : String) (subkey : Option String) (body : Bytes) (authed : Option AuthedWrite)
  | compact (did : String) (subkey : Option String)

/-- The store, and the writes it has accepted, oldest first. -/
structure ChainRun where
  store : ChainStore
  accepted : List AcceptedWrite

/-- The state before any request. -/
def ChainRun.init : ChainRun := ⟨ChainStore.empty, []⟩

/-- The accepted writes of one chain. -/
def ChainRun.acceptedFor (r : ChainRun) (did : String) (subkey : Option String) :
    List AcceptedWrite :=
  r.accepted.filter fun w => w.record.did = did ∧ w.record.subkey = subkey

/-- One request.  A refused request changes nothing. -/
def ChainServer.step (S : ChainServer) (r : ChainRun) : ChainAction → ChainRun
  | .put did subkey body authed =>
      match S.opPutAssertion r.store did subkey body authed,
        S.submittedRecord did subkey body authed with
      | .ok (store, _), .ok record =>
          ⟨store, r.accepted ++
            ((ChainStep.fromValue record.body).map (AcceptedWrite.mk record)).toList⟩
      | _, _ => r
  | .compact did subkey =>
      match opCompactChain r.store did subkey with
      | .ok (store, _) => { r with store }
      | .error _ => r

/-- The write a request adds to the accepted ones, in terms of its chain's history. -/
def History.accepts (S : ChainServer) (L : List AcceptedWrite) (did : String)
    (subkey : Option String) (body : Bytes) (authed : Option AuthedWrite) : List AcceptedWrite :=
  match S.submittedRecord did subkey body authed with
  | .error _ => []
  | .ok record =>
      match History.put S L subkey record with
      | .error _ => []
      | .ok _ => ((ChainStep.fromValue record.body).map (AcceptedWrite.mk record)).toList

/-- Every chain of the store tracks the writes accepted for it. -/
def ChainServer.TracksAll (S : ChainServer) (r : ChainRun) : Prop :=
  ∀ did subkey, Tracks S r.store did subkey (r.acceptedFor did subkey)

section

variable {S : ChainServer} {r : ChainRun} {did did' : String} {subkey subkey' : Option String}
  {body : Bytes} {authed : Option AuthedWrite}

lemma tracksAll_init : S.TracksAll ChainRun.init := by
  intro did subkey
  refine ⟨⟨by simp [ChainRun.acceptedFor, ChainRun.init], ⟨_, rfl⟩, ?_, ?_, ?_⟩, ?_, rfl⟩
  · simp [ChainRun.acceptedFor, ChainRun.init]
  · simp [ChainRun.acceptedFor, ChainRun.init]
  · simp [ChainRun.acceptedFor, ChainRun.init]
  · exact ⟨[], [], rfl, rfl, Or.inl rfl⟩

lemma acceptedFor_concat_self {w : AcceptedWrite} {store : ChainStore}
    (h : w.record.did = did ∧ w.record.subkey = subkey) :
    ChainRun.acceptedFor ⟨store, r.accepted ++ [w]⟩ did subkey =
      r.acceptedFor did subkey ++ [w] := by
  simp [ChainRun.acceptedFor, List.filter_append, h]

lemma acceptedFor_concat_other {w : AcceptedWrite} {store : ChainStore}
    (h : ¬ (w.record.did = did ∧ w.record.subkey = subkey)) :
    ChainRun.acceptedFor ⟨store, r.accepted ++ [w]⟩ did subkey = r.acceptedFor did subkey := by
  have hfilter : [w].filter (fun w => decide (w.record.did = did ∧ w.record.subkey = subkey)) =
      [] := by
    simpa using h
  simp only [ChainRun.acceptedFor, List.filter_append, hfilter, List.append_nil]

/-- Over a state that tracks its writes, a write is answered from its chain's history. -/
lemma ChainServer.TracksAll.opPutAssertion_eq (h : S.TracksAll r) :
    S.opPutAssertion r.store did subkey body authed =
      (S.submittedRecord did subkey body authed).bind fun record =>
        (History.put S (r.acceptedFor did subkey) subkey record).map fun out =>
          ((ChainStep.fromValue record.body).elim r.store fun step =>
            S.settle did subkey step (r.store.withWrite S ⟨record, step⟩), out) := by
  unfold ChainServer.opPutAssertion
  cases hrec : S.submittedRecord did subkey body authed with
  | error e => rfl
  | ok record => exact (h did subkey).putRecord_eq (submittedRecord_target hrec)

/-- **What one write can do.**  Over a state that tracks its writes, a write is refused and
changes nothing, or it is accepted behind its chain's history. -/
lemma step_put_cases (h : S.TracksAll r) (did : String) (subkey : Option String) (body : Bytes)
    (authed : Option AuthedWrite) :
    (History.accepts S (r.acceptedFor did subkey) did subkey body authed = [] ∧
        S.step r (.put did subkey body authed) = r) ∨
      ∃ record step out, S.submittedRecord did subkey body authed = .ok record ∧
        ChainStep.fromValue record.body = some step ∧ subkeyValid subkey = true ∧
        History.append S (r.acceptedFor did subkey) record step = .ok out ∧
        History.accepts S (r.acceptedFor did subkey) did subkey body authed = [⟨record, step⟩] ∧
        S.step r (.put did subkey body authed) =
          ⟨S.settle did subkey step (r.store.withWrite S ⟨record, step⟩),
            r.accepted ++ [⟨record, step⟩]⟩ := by
  unfold ChainServer.step History.accepts
  dsimp only
  rw [h.opPutAssertion_eq]
  cases hrec : S.submittedRecord did subkey body authed with
  | error e => exact Or.inl ⟨rfl, rfl⟩
  | ok record =>
      simp only [Except.bind]
      cases hput : History.put S (r.acceptedFor did subkey) subkey record with
      | error e => exact Or.inl ⟨rfl, rfl⟩
      | ok out =>
          obtain ⟨hsub, step, hstep, happend⟩ := History.put_ok hput
          refine Or.inr ⟨record, step, out, rfl, hstep, hsub, happend, ?_, ?_⟩
          · simp [hstep]
          · simp [Except.map, hstep]

/-- Compaction changes no history. -/
lemma ChainServer.TracksAll.compact (h : S.TracksAll r) :
    S.TracksAll (S.step r (.compact did subkey)) := by
  intro did' subkey'
  have hcompact := (h did' subkey').compact_any did subkey
  unfold ChainServer.step opCompactChain
  dsimp only
  rcases hc : r.store.compactBehindLatestCheckpoint did chainCounterKind subkey with
    ⟨s', _ | behind⟩
  · exact h did' subkey'
  · rw [hc] at hcompact
    exact hcompact

/-- A write whose total fits keeps every chain tracked. -/
lemma ChainServer.TracksAll.put (h : S.TracksAll r)
    (hfit : ∀ w ∈ History.accepts S (r.acceptedFor did subkey) did subkey body authed,
      w.step.total ≤ i64Max) :
    S.TracksAll (S.step r (.put did subkey body authed)) := by
  rcases step_put_cases h did subkey body authed with
    ⟨-, heq⟩ | ⟨record, step, out, hrec, hstep, hsub, happend, haccepts, heq⟩
  · rw [heq]
    exact h
  · rw [heq]
    intro did' subkey'
    have htarget := submittedRecord_target hrec
    by_cases hkey : rowKey did' chainCounterKind subkey' = rowKey did chainCounterKind subkey
    · obtain ⟨rfl, rfl⟩ := rowKey_inj hsub hkey
      rw [acceptedFor_concat_self ⟨htarget.1, htarget.2.2⟩]
      exact (h did' subkey').put htarget hsub happend (hfit _ (haccepts ▸ List.mem_singleton_self _))
    · have hother : ¬ (record.did = did' ∧ record.subkey = subkey') := by
        rintro ⟨rfl, rfl⟩
        exact hkey (by rw [htarget.1, htarget.2.2])
      rw [acceptedFor_concat_other hother]
      exact (h did' subkey').frame htarget hkey

end

/-! ## Soundness -/

/-- For every chain with an accepted write: the rows recompute, to the signed total of the last
write and to the sum of all accepted deltas, and the latest-record row holds the last record. -/
def ChainSound (S : ChainServer) (r : ChainRun) : Prop :=
  ∀ did subkey last, (r.acceptedFor did subkey).getLast? = some last →
    recomputeTotal S.crypto.sha256Hex
        ((r.store.chainEntries did chainCounterKind subkey).map Prod.fst) = .ok last.step.total ∧
      (last.step.total : Int) = ((r.acceptedFor did subkey).map fun w => w.step.delta).sum ∧
      r.store.assertion (rowKey did chainCounterKind subkey) = some (last.latestRow S) ∧
      r.store.assertionSeq did chainCounterKind subkey = some last.record.seq

/-- A step of the chain that the store would accept signs a total of at most `i64::MAX`. -/
def ChainServer.Fits (S : ChainServer) (r : ChainRun) : ChainAction → Prop
  | .put did subkey body authed =>
      ∀ record b, S.submittedRecord did subkey body authed = .ok record →
        ChainStep.fromValue record.body = some (.step b) →
        verifyStep (r.store.latestChainEntry did chainCounterKind subkey) b record.seq = .ok () →
        b.total ≤ i64Max
  | .compact _ _ => True

section

variable {S : ChainServer} {r : ChainRun}

lemma History.append_check {L : List AcceptedWrite} {record : SignedAssertion} {step : ChainStep}
    {out : AssertionSaved} (h : History.append S L record step = .ok out) :
    History.check S L record.seq step = .ok () := by
  unfold History.append at h
  split at h
  · cases h
  · assumption

/-- The sum of a history's deltas is the total it ends at. -/
lemma IsHistory.total_eq_sum {did : String} {subkey : Option String} {L : List AcceptedWrite}
    {last : AcceptedWrite} (h : IsHistory S did subkey L) (hlast : L.getLast? = some last) :
    (last.step.total : Int) = (L.map fun w => w.step.delta).sum := by
  have hrec := h.recompute
  have hgen := h.genesis
  cases L with
  | nil => cases hlast
  | cons w L =>
      obtain ⟨q, hq, hsum⟩ :=
        recomputeFrom_total_of_step (e := w.entry) (hgen w (by simp)) hrec
      unfold History.head at hq
      rw [hlast] at hq
      cases hq
      simpa [AcceptedWrite.entry, ChainEntry.asPrev, Function.comp_def] using hsum

lemma ChainServer.TracksAll.sound (h : S.TracksAll r) : ChainSound S r := by
  intro did subkey last hlast
  have ht := h did subkey
  refine ⟨?_, ht.history.total_eq_sum hlast, ?_, ?_⟩
  · rw [ht.recomputeTotal_eq, hlast]
    rfl
  · rw [ht.latest, hlast]
    rfl
  · rw [ht.assertionSeq_eq, hlast]
    rfl

lemma ChainServer.TracksAll.step_of_fits (h : S.TracksAll r) (a : ChainAction) (hfit : S.Fits r a) :
    S.TracksAll (S.step r a) := by
  cases a with
  | compact did subkey => exact h.compact
  | put did subkey body authed =>
      refine h.put fun w hw => ?_
      rcases step_put_cases h did subkey body authed with
        ⟨hnone, -⟩ | ⟨record, step, out, hrec, hstep, -, happend, haccepts, -⟩
      · rw [hnone] at hw
        cases hw
      rw [haccepts] at hw
      obtain rfl := List.mem_singleton.mp hw
      have hchk := History.append_check happend
      cases step with
      | checkpoint b => exact (h did subkey).history.checkpoint_fits hchk
      | step b =>
          refine hfit record b hrec hstep ?_
          rw [(h did subkey).latestChainEntry_eq]
          unfold History.check at hchk
          dsimp only at hchk
          cases hv : verifyStep (History.head S (r.acceptedFor did subkey)) b record.seq with
          | error brk => rw [hv] at hchk; cases hchk
          | ok u => rfl

/-- **Chain soundness.**  Along every run whose accepted steps sign totals of at most
`i64::MAX`, every state reached is sound. -/
theorem chain_sound_of_fits (S : ChainServer) (acts : List ChainAction)
    (hfits : Along S.step S.Fits ChainRun.init acts) :
    ∀ reached, reached <+: acts → ChainSound S (run S.step ChainRun.init reached) := by
  rintro reached ⟨rest, rfl⟩
  have htracks : S.TracksAll (run S.step ChainRun.init reached) :=
    run_invariant (fun r a h hfit => h.step_of_fits a hfit) tracksAll_init
      (along_append.mp hfits).1
  exact htracks.sound

end

/-! ### A concrete server

Four model-C writes to one route, with the real SHA-256 digests and Ed25519 signatures of the
provider key whose seed is `07…07`: a step and the checkpoint over it, and a step to
`i64::MAX` with one more behind it. -/

/-- The provider's public key. -/
def sampleKey : VerifyingKey :=
  ⟨(hexDecode "ea4a6c63e29c520abef5507b132ec5f9954776aebebe7b92421eea691446d22c").getD []⟩

/-- The route's owner. -/
def sampleDid : String := "did:plc:ewvi7nxzyoun6zhxrhs64oiz"

/-- The route's subkey. -/
def sampleSubkey : Option String := some "acct"

/-- A write, with the digests of its entry and record and the two signatures over it. -/
structure SampleWrite where
  seq : Nat
  step : ChainStep
  body : Value
  entryDigest : String
  attestSig : String
  recordDigest : String
  ackSig : String

namespace SampleWrite

/-- The request body. -/
def request (w : SampleWrite) : Bytes :=
  renderObject [renderField "seq" (asBytes w.seq.repr), renderField "body" w.body.render]

/-- The attested record. -/
def record (w : SampleWrite) : SignedAssertion :=
  ⟨sampleDid, chainCounterKind, sampleSubkey, w.seq, w.body,
    .providerAttested sampleDid "jti-1" w.attestSig⟩

/-- The digests the server computes for the write. -/
def digests (w : SampleWrite) : List (Bytes × String) :=
  [(asBytes (entryPreimage sampleDid chainCounterKind sampleSubkey w.seq w.step.fold),
      w.entryDigest),
    (w.record.toJson, w.recordDigest)]

/-- The signatures the server makes for the write. -/
def signatures (w : SampleWrite) : List (Bytes × Bytes) :=
  [(asBytes (attestPreimage chainCounterKind sampleDid sampleDid sampleSubkey w.seq w.step.fold),
      (hexDecode w.attestSig).getD []),
    (asBytes (ackPreimage chainCounterKind sampleDid sampleSubkey w.seq w.recordDigest),
      (hexDecode w.ackSig).getD [])]

/-- The write as a request of its owner. -/
def act (w : SampleWrite) : ChainAction :=
  .put sampleDid sampleSubkey w.request (some ⟨sampleDid, some "jti-1"⟩)

end SampleWrite

/-- The JSON of a step body. -/
def stepValue (delta total : UInt64) (prev : String) : Value :=
  .object [("delta", .posInt delta), ("prev_entry_hash", .string prev), ("total", .posInt total)]

/-- A first step of `+100`. -/
def openingWrite : SampleWrite where
  seq := 1
  step := .step ⟨100, 100, genesisPrevHash⟩
  body := stepValue 100 100 genesisPrevHash
  entryDigest := "29c1541bfe5197b8ddf70f93880fedd67b6c22ed7dcc83ad0124a3450b61865e"
  attestSig :=
    "632e8ee1f553f2f13ab3670fc95a337d283c27794111d21a202397a7182a6467b93500e9362a4e92280c35fdecb3c77341abeebc0adb423f057e7a29e5a14000"
  recordDigest := "a4ff9d6dba46f173fe24de517af5e70bf0c4206f2577c86843e206c796cae259"
  ackSig :=
    "3ab6b387b657a7583f35a741d6c57ba8874bed5fb7d51192fea5d66cb59b34caba0f4893dbee50da4248271be880e698993ac0d30513bcd6eec20c6ff0cc670c"

/-- The checkpoint over `openingWrite`. -/
def closingWrite : SampleWrite where
  seq := 2
  step := .checkpoint ⟨100, openingWrite.entryDigest, genesisPrevHash⟩
  body := .object [("chain_head_hash", .string openingWrite.entryDigest),
    ("closing_total", .posInt 100), ("prev_checkpoint", .string genesisPrevHash)]
  entryDigest := "29b6234692c4c1b0abae241cc6eb4b7a6235269a833d5b4a299eeeb898ae6eba"
  attestSig :=
    "5f6553228f0b817adc9e4a20d5cac1b20e23dac88f384769dbfd514833bf6561f54eee069075ee72de05fced53f1cc67d9b12d005de57bed108861d5831c410e"
  recordDigest := "0adfe917404d3636309d8313f790f6f6755321717c869407cd971cee9d23a1e1"
  ackSig :=
    "1fe849996021a26c32537406509fa5eeba771cb040f6db38912e80bbc081595f1d091cf44a167553740d3c3b5ad8ad1d226c152c3ac75cd3d9ca26bc62bd0c05"

/-- A first step that takes the chain to `i64::MAX`. -/
def fullWrite : SampleWrite where
  seq := 1
  step := .step ⟨9223372036854775807, 9223372036854775807, genesisPrevHash⟩
  body := stepValue 9223372036854775807 9223372036854775807 genesisPrevHash
  entryDigest := "0902401a4eb1f08cfdb0de748de16c3b908fba98270232df20c563134fab27c3"
  attestSig :=
    "d18556ac38e2b7810b71f4585f17ef77860d5246d676490c3c45c2c4f3d5fea10d13609616f56060f7a6258debcb36fa33cf8aab2eb68497428edfad5186e00c"
  recordDigest := "057bd254f5d143987d65ebd2209b6843347346039f46d5efcff44dc27cf189ee"
  ackSig :=
    "8a7ef908e2aa353fb35a8d7fcfebde5065a50f9b18666065e102d9fd58298e9cd07d68b44a489d0c8e9d88186eaa097471126fe8c1c0da9bfa64d6b186c49a0e"

/-- The step of `+1` behind `fullWrite`. -/
def overWrite : SampleWrite where
  seq := 2
  step := .step ⟨1, 9223372036854775808, fullWrite.entryDigest⟩
  body := stepValue 1 9223372036854775808 fullWrite.entryDigest
  entryDigest := "f9e5589d5a7bd2d90575cc913f7f32f75ff02aa20ee95c3354201939d5161d96"
  attestSig :=
    "2ecab49ae0f25b44c309326ef1164b5f20b60e2300efb048849c550818c4e162b958895bf01950d1662046282934f6f35751b071dee207405fa005ecba3d3c0f"
  recordDigest := "85ceba041df0fe5ab8fd6c5e6a7c659f15622101af9670501ebc35e5b64b77aa"
  ackSig :=
    "aa76a8f02a3dfe9753bcfa33a1753000a9ed5d5c8ed9e25675fcec1bbcd0d4f6318c3aa9d7ba0cbad141cd7ca70d06de1ecec9a6fdb31f318a40a90ae52b160f"

/-- The sample writes. -/
def sampleWrites : List SampleWrite := [openingWrite, closingWrite, fullWrite, overWrite]

/-- The server, with a given compaction policy. -/
def sampleServer (policy : CompactionPolicy) : ChainServer where
  crypto :=
    { sha256Hex := tabulatedHash (sampleWrites.flatMap SampleWrite.digests)
      isPublicKey := fun bytes => bytes = sampleKey.toBytes
      verifyStrict := fun key message sig =>
        key = sampleKey ∧ (sampleWrites.flatMap SampleWrite.signatures).lookup message = some sig }
  attestKeypair :=
    { verifyingKey := sampleKey
      sign := fun message =>
        ((sampleWrites.flatMap SampleWrite.signatures).lookup message).getD [] }
  compaction := policy
  parseRecord := fun _ => none
  parseIntent := fun bytes =>
    (sampleWrites.find? fun w => w.request = bytes).map fun w => (w.seq, w.body)

/-- The requests of a sound run: a step, the checkpoint over it, and an explicit compaction. -/
def soundActs : List ChainAction :=
  [openingWrite.act, closingWrite.act, .compact sampleDid sampleSubkey]

/-- A put fits when the step it submits signs a small total, whatever the chain says. -/
lemma fits_put_of_total {S : ChainServer} {r : ChainRun} {did : String} {subkey : Option String}
    {body : Bytes} {authed : Option AuthedWrite}
    (h : ((S.submittedRecord did subkey body authed).toOption.bind fun record =>
      ChainStep.fromValue record.body).all (fun step => step.total ≤ i64Max) = true) :
    S.Fits r (.put did subkey body authed) := by
  intro record b hrec hstep _
  simp only [hrec, hstep, Except.toOption, Option.bind_some, Option.all_some] at h
  exact of_decide_eq_true h

theorem chain_sound_of_fits_example :
    ((run (sampleServer .onAck).step ChainRun.init soundActs).acceptedFor
        sampleDid sampleSubkey).length = 2 ∧
      ChainSound (sampleServer .onAck)
        (run (sampleServer .onAck).step ChainRun.init soundActs) := by
  refine ⟨by decide +kernel, ?_⟩
  refine chain_sound_of_fits (sampleServer .onAck) soundActs ?_ soundActs (List.prefix_refl _)
  exact ⟨fits_put_of_total (by decide +kernel), fits_put_of_total (by decide +kernel), trivial,
    trivial⟩

/-- A chain at `i64::MAX` accepts a step of `+1`, signed with the total `2^63`; its row stores the
saturated total, and the chain no longer recomputes. -/
theorem saturated_total_breaks_chain :
    ¬ ChainSound (sampleServer .deferred)
      (run (sampleServer .deferred).step ChainRun.init [fullWrite.act, overWrite.act]) := by
  intro h
  have hrun : ((run (sampleServer .deferred).step ChainRun.init
        [fullWrite.act, overWrite.act]).acceptedFor sampleDid sampleSubkey).getLast?.map
          (fun w => w.step.total) = some 9223372036854775808 ∧
      recomputeTotal (sampleServer .deferred).crypto.sha256Hex
        (((run (sampleServer .deferred).step ChainRun.init
          [fullWrite.act, overWrite.act]).store.chainEntries sampleDid chainCounterKind
            sampleSubkey).map Prod.fst) ≠ .ok 9223372036854775808 := by
    decide +kernel
  obtain ⟨hlast, hbroken⟩ := hrun
  obtain ⟨last, hmem, htotal⟩ := Option.map_eq_some_iff.mp hlast
  have hsound := (h sampleDid sampleSubkey last hmem).1
  rw [htotal] at hsound
  exact hbroken hsound

end Ciss
