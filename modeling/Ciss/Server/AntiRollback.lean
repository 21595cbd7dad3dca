import Ciss.Server.Quota
import Ciss.Server.Settings

/-!
# Anti-rollback of settings

Over every run of writes and erasures: which writes a slot accepts, and what a read of it returns.
`SettingsWorld.last` remembers the record last accepted in each slot since it was last erased, and
`Remembers` is the invariant that a row holds exactly that record.

The column keeps a `seq` up to `i64::MAX`, and every larger one as `i64::MAX`.  A slot whose last
seq is at or past that accepts nothing any more, although the operation's own check lets a larger
seq pass (`saturated_seq_refuses_larger`).  `anti_rollback_iff` says that a correctly authorized
write is otherwise accepted exactly if the slot is empty or its seq is larger than the last one; a
refused write changes nothing, and reads return the last accepted record.
-/

namespace Ciss

/-! ## Runs -/

/-- The store, and the record last accepted in each slot. -/
structure SettingsWorld where
  store : SettingsStore
  last : RowKey → Option SignedAssertion

/-- An empty store. -/
def SettingsWorld.init : SettingsWorld := ⟨.empty, fun _ => none⟩

/-- A write or an erasure. -/
inductive SettingAction where
  | put (req : WriteRequest)
  | delete (did : String) (kind : SettingKind) (subkey : Option String)

namespace SettingsServer

variable (S : SettingsServer)

/-- One operation. -/
def step (w : SettingsWorld) : SettingAction → SettingsWorld
  | .put req =>
      match S.opPutAssertion w.store req with
      | (store, .ok _) =>
          ⟨store, Function.update w.last req.slot (S.submittedRecord req).toOption⟩
      | (store, .error _) => { w with store := store }
  | .delete did kind subkey =>
      match opDeleteAssertion w.store did kind subkey with
      | (store, .ok _) => ⟨store, Function.update w.last (rowKey did kind.1.tag subkey) none⟩
      | (store, .error _) => { w with store := store }

/-- The write is accepted. -/
def Accepts (s : SettingsStore) (req : WriteRequest) : Prop :=
  (S.opPutAssertion s req).2.isOk = true

/-- The write is well-formed and correctly authorized, and submits `record`: every check but the one
on the seq passes. -/
structure Authorized (req : WriteRequest) (record : SignedAssertion) : Prop where
  submitted : S.submittedRecord req = .ok record
  verified : ∃ fold, kindFold req.kind.1.tag req.subkey record.body = .ok fold ∧
    record.verify S.crypto fold none S.attestKeypair.verifyingKey = true
  withinCeiling : record.body.render.length ≤ req.kind.1.spec.bodyCeiling
  withinBound : S.aboveBound req.kind record.body = none

/-- `serde_json` reads back what it wrote, for the records the server is asked to store and their
acknowledgments. -/
structure ReadsBack : Prop where
  record : ∀ req r, S.submittedRecord req = .ok r → S.parseRecord r.toJson = some r
  ack : ∀ req r, S.submittedRecord req = .ok r →
    S.parseAck (makeAck S.crypto r S.attestKeypair).toJson =
      some (makeAck S.crypto r S.attestKeypair)

/-- The row of a record. -/
def rowOf (r : SignedAssertion) : AssertionRow :=
  ⟨toColumn r.seq, r.toJson, (makeAck S.crypto r S.attestKeypair).toJson⟩

end SettingsServer

/-! ## What a write does -/

section

variable {S : SettingsServer} {s : SettingsStore} {w : SettingsWorld} {req : WriteRequest}
  {record : SignedAssertion}

/-- A submitted record is for the slot of its request. -/
lemma submittedRecord_slot (h : S.submittedRecord req = .ok record) :
    rowKey record.did record.kind record.subkey = req.slot := by
  unfold SettingsServer.submittedRecord at h
  split at h
  · split_ifs at h
    split at h
    · cases h
    · split at h
      · cases h
      · cases h
        rfl
  · split at h
    · cases h
    · split_ifs at h with htarget
      cases h
      push Not at htarget
      obtain ⟨hdid, hkind, hsub⟩ := htarget
      unfold WriteRequest.slot
      rw [hdid, hkind, hsub]

/-- The seq of the stored record is at or past the write's. -/
def Stale (s : SettingsStore) (req : WriteRequest) (record : SignedAssertion) : Prop :=
  (s.assertionSeq req.did req.kind.1.tag req.subkey).any (record.seq ≤ ·) = true

/-- A write passes its checks if it is authorized and not stale. -/
lemma checkWrite_eq_ok_iff :
    S.checkWrite s req = .ok record ↔ S.Authorized req record ∧ ¬ Stale s req record := by
  unfold SettingsServer.checkWrite Stale
  constructor
  · intro h
    split at h
    · cases h
    · rename_i r hsub
      split at h
      · cases h
      · rename_i fold hfold
        dsimp only at h
        split at h
        · cases h
        · rename_i hceiling
          split at h
          · cases h
          · rename_i hbound
            split_ifs at h with hstale hverify
            cases h
            exact ⟨⟨hsub, ⟨fold, hfold, by simpa using hverify⟩, by omega, hbound⟩, hstale⟩
  · rintro ⟨⟨hsub, ⟨fold, hfold, hverify⟩, hceiling, hbound⟩, hstale⟩
    rw [hsub]
    dsimp only
    rw [hfold]
    dsimp only
    rw [if_neg (by omega), hbound]
    dsimp only
    rw [if_neg hstale, if_neg (by simp [hverify])]

/-- The upsert takes the row. -/
def Supersedes (s : SettingsStore) (req : WriteRequest) (record : SignedAssertion) : Prop :=
  ∀ old, s.assertion.lookup req.slot = some old → old.seq < toColumn record.seq

/-- The table once a record is stored. -/
def SettingsServer.stored (S : SettingsServer) (s : SettingsStore) (req : WriteRequest)
    (record : SignedAssertion) : SettingsStore where
  assertion := s.assertion.insert req.slot (S.rowOf record)
  periodBaseline :=
    if req.kind.1 = .periodDial then
      Function.update s.periodBaseline req.did (some req.runningTotal)
    else s.periodBaseline

/-- The upsert of a record that supersedes the row. -/
lemma saveAssertion_supersedes (hslot : rowKey record.did record.kind record.subkey = req.slot)
    (hsup : Supersedes s req record) :
    s.saveAssertion record (makeAck S.crypto record S.attestKeypair) =
      ({ s with assertion := s.assertion.insert req.slot (S.rowOf record) }, .ok ()) := by
  unfold SettingsStore.saveAssertion
  dsimp only
  rw [hslot]
  split
  · rfl
  · rename_i old hold
    rw [if_pos (hsup old hold)]
    rfl

/-- The upsert refuses every other record. -/
lemma saveAssertion_refused (hslot : rowKey record.did record.kind record.subkey = req.slot)
    (hsup : ¬ Supersedes s req record) :
    s.saveAssertion record (makeAck S.crypto record S.attestKeypair) =
      (s, .error (.staleAssertionSeq (assertionTarget record) record.seq)) := by
  unfold Supersedes at hsup
  push Not at hsup
  obtain ⟨old, hold, hle⟩ := hsup
  unfold SettingsStore.saveAssertion
  dsimp only
  rw [hslot, hold]
  dsimp only
  rw [if_neg (by omega)]

/-- **What a write can do.**  It is refused and changes nothing, or it is authorized, not stale and
superseding, and its record is stored in its slot. -/
lemma opPutAssertion_cases (S : SettingsServer) (s : SettingsStore) (req : WriteRequest) :
    ((∃ e, S.opPutAssertion s req = (s, .error e)) ∧
      ∀ record, S.Authorized req record → Stale s req record ∨ ¬ Supersedes s req record) ∨
    ∃ record saved, S.Authorized req record ∧ ¬ Stale s req record ∧ Supersedes s req record ∧
      S.opPutAssertion s req = (S.stored s req record, .ok saved) := by
  rcases hcheck : S.checkWrite s req with e | record
  · refine Or.inl ⟨⟨e, by simp only [SettingsServer.opPutAssertion, hcheck]⟩, ?_⟩
    intro record hauth
    by_contra hnot
    push Not at hnot
    have hok := checkWrite_eq_ok_iff.mpr ⟨hauth, hnot.1⟩
    rw [hcheck] at hok
    cases hok
  · obtain ⟨hauth, hstale⟩ := checkWrite_eq_ok_iff.mp hcheck
    have hslot := submittedRecord_slot hauth.submitted
    by_cases hsup : Supersedes s req record
    · refine Or.inr ⟨record, ⟨record.seq, (makeAck S.crypto record S.attestKeypair).toJson⟩, hauth,
        hstale, hsup, ?_⟩
      simp only [SettingsServer.opPutAssertion, hcheck, saveAssertion_supersedes hslot hsup]
      unfold SettingsServer.stored
      split_ifs
      · rfl
      · rfl
    · refine Or.inl ⟨⟨.persist (.staleAssertionSeq (assertionTarget record) record.seq), ?_⟩, ?_⟩
      · simp only [SettingsServer.opPutAssertion, hcheck, saveAssertion_refused hslot hsup]
      · intro record' hauth'
        have hsame : record' = record := by
          have := hauth.submitted.symm.trans hauth'.submitted
          cases this
          rfl
        rw [hsame]
        exact Or.inr hsup

end

/-! ## The invariant -/

/-- Each row holds the record last accepted in its slot, and that record was submitted. -/
structure Remembers (S : SettingsServer) (w : SettingsWorld) : Prop where
  rows : ∀ key, w.store.assertion.lookup key = (w.last key).map S.rowOf
  submitted : ∀ key r, w.last key = some r → ∃ req, S.submittedRecord req = .ok r

section

variable {S : SettingsServer} {w : SettingsWorld} {req : WriteRequest} {record : SignedAssertion}

lemma Remembers.init (S : SettingsServer) : Remembers S SettingsWorld.init := by
  refine ⟨fun key => rfl, ?_⟩
  intro key r h
  cases h

/-- A write either leaves the world alone, or it stores and remembers its record. -/
lemma step_put_settings (S : SettingsServer) (w : SettingsWorld) (req : WriteRequest) :
    S.step w (.put req) = w ∨ ∃ record, S.Authorized req record ∧
      S.step w (.put req) =
        ⟨S.stored w.store req record, Function.update w.last req.slot (some record)⟩ := by
  rcases opPutAssertion_cases S w.store req with ⟨⟨e, heq⟩, -⟩ |
    ⟨record, saved, hauth, -, -, heq⟩
  · refine Or.inl ?_
    simp only [SettingsServer.step, heq]
  · refine Or.inr ⟨record, hauth, ?_⟩
    simp only [SettingsServer.step, heq, hauth.submitted]
    rfl

lemma Remembers.put (h : Remembers S w) (hsub : S.submittedRecord req = .ok record) :
    Remembers S ⟨S.stored w.store req record, Function.update w.last req.slot (some record)⟩ := by
  refine ⟨?_, ?_⟩
  · intro key
    show (w.store.assertion.insert req.slot (S.rowOf record)).lookup key =
      (Function.update w.last req.slot (some record) key).map S.rowOf
    by_cases hkey : key = req.slot
    · subst hkey
      rw [AList.lookup_insert, Function.update_self]
      rfl
    · rw [AList.lookup_insert_ne hkey, Function.update_of_ne hkey]
      exact h.rows key
  · intro key r hr
    by_cases hkey : key = req.slot
    · rw [hkey] at hr
      simp only [Function.update_self, Option.some.injEq] at hr
      exact ⟨req, hr ▸ hsub⟩
    · simp only [Function.update_of_ne hkey] at hr
      exact h.submitted key r hr

/-- Erasing a row forgets the slot; a refused erasure finds no row to erase. -/
lemma Remembers.delete (h : Remembers S w) (did : String) (kind : SettingKind)
    (subkey : Option String) : Remembers S (S.step w (.delete did kind subkey)) := by
  have hrows : ∀ key, (w.store.assertion.erase (rowKey did kind.1.tag subkey)).lookup key =
      if key = rowKey did kind.1.tag subkey then none else w.store.assertion.lookup key := by
    intro key
    split_ifs with hkey
    · rw [hkey]
      exact AList.lookup_erase _ _
    · exact AList.lookup_erase_ne hkey
  simp only [SettingsServer.step, opDeleteAssertion, SettingsStore.deleteAssertion]
  by_cases hpermanent : kind.1.spec.erasure = .permanent
  · rw [if_pos hpermanent]
    exact h
  rw [if_neg hpermanent]
  rcases hrow : w.store.assertion.lookup (rowKey did kind.1.tag subkey) with _ | row
  · refine ⟨?_, h.submitted⟩
    intro key
    show (w.store.assertion.erase (rowKey did kind.1.tag subkey)).lookup key =
      (w.last key).map S.rowOf
    rw [hrows, ← h.rows key]
    split_ifs with hkey
    · rw [hkey, hrow]
    · rfl
  · refine ⟨?_, ?_⟩
    · intro key
      show (w.store.assertion.erase (rowKey did kind.1.tag subkey)).lookup key =
        (Function.update w.last (rowKey did kind.1.tag subkey) none key).map S.rowOf
      rw [hrows]
      split_ifs with hkey
      · rw [hkey, Function.update_self]
        rfl
      · rw [Function.update_of_ne hkey]
        exact h.rows key
    · intro key r hr
      have hr : Function.update w.last (rowKey did kind.1.tag subkey) none key = some r := hr
      by_cases hkey : key = rowKey did kind.1.tag subkey
      · rw [hkey, Function.update_self] at hr
        cases hr
      · rw [Function.update_of_ne hkey] at hr
        exact h.submitted key r hr

lemma Remembers.step (h : Remembers S w) (a : SettingAction) : Remembers S (S.step w a) := by
  cases a with
  | put req =>
      rcases step_put_settings S w req with heq | ⟨record, hauth, heq⟩
      · rw [heq]
        exact h
      · rw [heq]
        exact h.put hauth.submitted
  | delete did kind subkey => exact h.delete did kind subkey

/-! ## What a slot accepts -/

/-- The slot is empty, or its last seq is smaller. -/
def SettingsWorld.Allows (w : SettingsWorld) (slot : RowKey) (record : SignedAssertion) : Prop :=
  ∀ r, w.last slot = some r → r.seq < record.seq

/-- The slot's last seq is no longer told apart from larger ones. -/
def SettingsWorld.Saturated (w : SettingsWorld) (slot : RowKey) (record : SignedAssertion) :
    Prop :=
  ∃ r, w.last slot = some r ∧ i64Max ≤ r.seq ∧ r.seq < record.seq

/-- The two comparisons of a write, read off the record last accepted. -/
lemma Remembers.accepts_iff (h : Remembers S w) (hauth : S.Authorized req record) :
    S.Accepts w.store req ↔
      ∀ r, w.last req.slot = some r → r.seq < record.seq ∧ r.seq < i64Max := by
  have hstale : Stale w.store req record ↔
      ∃ r, w.last req.slot = some r ∧ record.seq ≤ ofColumn (toColumn r.seq) := by
    unfold Stale SettingsStore.assertionSeq
    have hrow := h.rows req.slot
    unfold WriteRequest.slot at hrow ⊢
    rw [hrow]
    rcases w.last (rowKey req.did req.kind.1.tag req.subkey) with _ | r
    · simp
    · simp [SettingsServer.rowOf]
  have hsup : Supersedes w.store req record ↔
      ∀ r, w.last req.slot = some r → toColumn r.seq < toColumn record.seq := by
    unfold Supersedes
    rw [h.rows]
    rcases w.last req.slot with _ | r
    · simp
    · simp [SettingsServer.rowOf]
  have hseq : ∀ r : SignedAssertion, toColumn r.seq < toColumn record.seq ↔
      r.seq < record.seq ∧ r.seq < i64Max := by
    intro r
    unfold toColumn
    split_ifs
    all_goals omega
  unfold SettingsServer.Accepts
  rcases opPutAssertion_cases S w.store req with ⟨⟨e, heq⟩, hrefused⟩ |
    ⟨record', saved, hauth', hfresh, hbeats, heq⟩
  · rw [heq]
    refine iff_of_false (by simp [Except.isOk, Except.toBool]) ?_
    intro hall
    rcases hrefused record hauth with hold | hnot
    · obtain ⟨r, hr, hle⟩ := hstale.mp hold
      have hlt := hall r hr
      unfold ofColumn toColumn at hle
      split_ifs at hle
      all_goals omega
    · exact hnot (hsup.mpr fun r hr => (hseq r).mpr (hall r hr))
  · have hsame : record' = record := by
      have := hauth'.submitted.symm.trans hauth.submitted
      cases this
      rfl
    rw [heq]
    refine iff_of_true rfl ?_
    intro r hr
    rw [hsame] at hbeats
    exact (hseq r).mp (hsup.mp hbeats r hr)

/-- An accepted write is the one its slot remembers. -/
lemma last_put (hauth : S.Authorized req record) (hacc : S.Accepts w.store req) :
    (S.step w (.put req)).last req.slot = some record := by
  unfold SettingsServer.Accepts at hacc
  rcases opPutAssertion_cases S w.store req with ⟨⟨e, heq⟩, -⟩ |
    ⟨record', saved, hauth', -, -, heq⟩
  · rw [heq] at hacc
    cases hacc
  · simp only [SettingsServer.step, heq, hauth.submitted, Function.update_self]
    rfl

/-- A slot accepts what it should exactly if its last seq is told apart from the write's. -/
lemma Remembers.exact_iff (h : Remembers S w) (hauth : S.Authorized req record) :
    (S.Accepts w.store req ↔ w.Allows req.slot record) ↔ ¬ w.Saturated req.slot record := by
  rw [h.accepts_iff hauth]
  unfold SettingsWorld.Allows SettingsWorld.Saturated
  rcases w.last req.slot with _ | r
  · simp
  · simp only [Option.some.injEq, forall_eq', exists_eq_left', not_and, not_lt]
    constructor
    · intro hiff hmax
      by_contra hlt
      have := hiff.mpr (by omega)
      omega
    · intro hcond
      constructor
      · intro hacc
        exact hacc.1
      · intro hlt
        refine ⟨hlt, ?_⟩
        by_contra hmax
        have := hcond (by omega)
        omega

/-- A read returns what the slot remembers. -/
lemma Remembers.load (h : Remembers S w) (hserde : S.ReadsBack) (did kind : String)
    (subkey : Option String) :
    loadAssertion S.parseRecord S.parseAck w.store.assertion did kind subkey =
      .ok ((w.last (rowKey did kind subkey)).map fun r =>
        (r, makeAck S.crypto r S.attestKeypair)) := by
  unfold loadAssertion
  rw [h.rows]
  rcases hlast : w.last (rowKey did kind subkey) with _ | r
  · rfl
  · obtain ⟨req, hsub⟩ := h.submitted _ r hlast
    simp only [Option.map_some, SettingsServer.rowOf, hserde.record req r hsub,
      hserde.ack req r hsub]

end

/-- **Anti-rollback.**  After every run of writes and erasures: a well-formed and authorized write
is accepted exactly if its slot is empty or its seq is larger than that of the write last accepted
there, exactly if the slot's seq is not saturated; a refused write changes nothing; and a read
returns the record last accepted, with its acknowledgment. -/
theorem anti_rollback_iff (S : SettingsServer) (hserde : S.ReadsBack)
    (acts : List SettingAction) :
    (∀ req record, S.Authorized req record →
      ((S.Accepts (run S.step SettingsWorld.init acts).store req ↔
          (run S.step SettingsWorld.init acts).Allows req.slot record) ↔
        ¬ (run S.step SettingsWorld.init acts).Saturated req.slot record)) ∧
    (∀ req, ¬ S.Accepts (run S.step SettingsWorld.init acts).store req →
      S.step (run S.step SettingsWorld.init acts) (.put req) =
        run S.step SettingsWorld.init acts) ∧
    ∀ did (kind : SettingKind) subkey,
      loadAssertion S.parseRecord S.parseAck (run S.step SettingsWorld.init acts).store.assertion
          did kind.1.tag subkey =
        .ok (((run S.step SettingsWorld.init acts).last (rowKey did kind.1.tag subkey)).map fun r =>
          (r, makeAck S.crypto r S.attestKeypair)) := by
  have h : Remembers S (run S.step SettingsWorld.init acts) :=
    run_invariant' (fun w a hw => hw.step a) (Remembers.init S)
  refine ⟨?_, ?_, ?_⟩
  · intro req record hauth
    exact h.exact_iff hauth
  · intro req hrefused
    rcases opPutAssertion_cases S (run S.step SettingsWorld.init acts).store req with
      ⟨⟨e, heq⟩, -⟩ | ⟨record, saved, -, -, -, heq⟩
    · simp only [SettingsServer.step, heq]
    · refine absurd ?_ hrefused
      unfold SettingsServer.Accepts
      rw [heq]
      rfl
  · intro did kind subkey
    exact h.load hserde did kind.1.tag subkey

/-! ### A flag at the end of the column

Two records of one flag, with the real signatures of the owner and of the server. -/

/-- A record of the flag, by its seq: the owner's signature, the record's digest, and the server's
signature of the acknowledgment. -/
structure FlagSample where
  seq : Nat
  sig : String
  digest : String
  ackSig : String

/-- The record. -/
def FlagSample.record (x : FlagSample) : SignedAssertion where
  did := "id:fe812c12f3ab4ce6ac5db69ac352f906cb1b11ef43fb33e252ef7ff552263889"
  kind := "kv.flag"
  subkey := some "roster"
  seq := x.seq
  body := .object [("set", .bool true)]
  authorization :=
    .ownerSigned "ea4a6c63e29c520abef5507b132ec5f9954776aebebe7b92421eea691446d22c" x.sig

/-- The request that submits the record. -/
def FlagSample.request (x : FlagSample) : WriteRequest where
  did := "id:fe812c12f3ab4ce6ac5db69ac352f906cb1b11ef43fb33e252ef7ff552263889"
  kind := ⟨.flag, rfl⟩
  subkey := some "roster"
  body := x.record.toJson
  authed := none
  runningTotal := 0

/-- A write at the last seq the column tells apart. -/
def flagMax : FlagSample where
  seq := 9223372036854775807
  sig :=
    "83efaffb5de17de7b4cd3c3e43c4e2b619d8e1fdcbac41db3969cb6e9f7b68fc478c7ae3c1245a54ce5bd79f101c31dc426f448b103d7e27951634e253d2520e"
  digest := "a67702aa39ce3dd38227f0e4431873d10afcff2e199187a546948a818b7f659a"
  ackSig :=
    "8f7ec817c964b6d7ea08a4a9c8aba3bb96134d2f327e83b7223e7e7ef7fb9aba9fc51190dd069d9796518c5cb87dd85a2e4f01c9eec239be3d3de383b9b3bd01"

/-- A write at the seq behind it. -/
def flagPastMax : FlagSample where
  seq := 9223372036854775808
  sig :=
    "263b187a814809bad71d9b9d7083e98f0d33aab6146c63bdfa9cd053305e718f37236124b0de895bdc181485c0d3f1573c9474f635503314b3f8dae015bb080b"
  digest := "0f7bfafa0027b92a3b2946f6d4b2109b0b753a386b5e76a9c29ea9171da1abe5"
  ackSig :=
    "4458dd658ae623c2bd20434c9022b884000828e3bfaf86ecdc321b66746e8bfd7d6eee23306e205084c5d0b16a0a03a8749e3d22616338c3fb6d9515e2c78f07"

/-- The two writes. -/
def flagSamples : List FlagSample := [flagMax, flagPastMax]

/-- SHA-256 and Ed25519 on these texts. -/
def flagCrypto : Crypto where
  sha256Hex := tabulatedHash
    ((raceKey.toBytes, "fe812c12f3ab4ce6ac5db69ac352f906cb1b11ef43fb33e252ef7ff552263889") ::
      flagSamples.map fun x => (x.record.toJson, x.digest))
  isPublicKey := fun bytes => bytes = raceKey.toBytes
  verifyStrict := fun key message sig =>
    key = raceKey ∧ flagSamples.any fun x =>
      message = asBytes (recordPreimage x.record.kind x.record.did x.record.subkey x.seq "set=true") ∧
        hexDecode x.sig = some sig

/-- The server's attestation key. -/
def flagKeypair : Keypair where
  verifyingKey := raceKey
  sign := fun message =>
    ((flagSamples.find? fun x =>
      message = asBytes (ackPreimage x.record.kind x.record.did x.record.subkey x.seq x.digest)).bind
        fun x => hexDecode x.ackSig).getD []

/-- A server whose libraries answer from these tables. -/
def flagServer : SettingsServer where
  crypto := flagCrypto
  attestKeypair := flagKeypair
  limits := ⟨1000, none⟩
  parseRecord := readBack SignedAssertion.toJson (flagSamples.map FlagSample.record)
  parseIntent := fun _ => none
  parseAck := readBack Ack.toJson
    (flagSamples.map fun x => makeAck flagCrypto x.record flagKeypair)

lemma flagServer_parse {r : SignedAssertion} (hr : r ∈ flagSamples.map FlagSample.record) :
    flagServer.parseRecord r.toJson = some r :=
  readBack_of_nodup (by decide +kernel) hr

lemma flagServer_submitted {req : WriteRequest} {r : SignedAssertion}
    (h : flagServer.submittedRecord req = .ok r) : r ∈ flagSamples.map FlagSample.record := by
  unfold SettingsServer.submittedRecord at h
  split at h
  · split_ifs at h
    cases h
  · split at h
    · cases h
    · rename_i record hparse
      split_ifs at h
      cases h
      exact mem_of_readBack hparse

lemma flagServer_readsBack : flagServer.ReadsBack := by
  refine ⟨?_, ?_⟩
  · intro req r h
    exact flagServer_parse (flagServer_submitted h)
  · intro req r h
    obtain ⟨x, hx, rfl⟩ := List.mem_map.mp (flagServer_submitted h)
    have hnodup : ((flagSamples.map fun x => makeAck flagCrypto x.record flagKeypair).map
        Ack.toJson).Nodup := by decide +kernel
    have hmem : makeAck flagCrypto x.record flagKeypair ∈
        flagSamples.map fun x => makeAck flagCrypto x.record flagKeypair :=
      List.mem_map.mpr ⟨x, hx, rfl⟩
    rw [show flagServer.crypto = flagCrypto from rfl,
      show flagServer.attestKeypair = flagKeypair from rfl,
      show flagServer.parseAck = readBack Ack.toJson
        (flagSamples.map fun x => makeAck flagCrypto x.record flagKeypair) from rfl]
    exact readBack_of_nodup hnodup hmem

lemma flagServer_authorized {x : FlagSample} (hx : x ∈ flagSamples) :
    flagServer.Authorized x.request x.record := by
  have hverify : ∀ y ∈ flagSamples, y.record.verify flagCrypto "set=true" none raceKey = true := by
    decide +kernel
  have hlen : ∀ y ∈ flagSamples, y.record.body.render.length ≤ smallBodyCeilingBytes := by
    decide +kernel
  have hfold : kindFold "kv.flag" (some "roster") (.object [("set", .bool true)]) =
      .ok "set=true" := by decide +kernel
  refine ⟨?_, ⟨"set=true", hfold, hverify x hx⟩, hlen x hx, rfl⟩
  have hparse := flagServer_parse (List.mem_map_of_mem hx)
  unfold SettingsServer.submittedRecord
  simp only [FlagSample.request, hparse]
  rfl

/-- An empty slot accepts a write at `i64::MAX`, and a read then returns it. -/
theorem anti_rollback_iff_example :
    flagServer.Accepts SettingsWorld.init.store flagMax.request ∧
      loadAssertion flagServer.parseRecord flagServer.parseAck
          (run flagServer.step SettingsWorld.init [.put flagMax.request]).store.assertion
          "id:fe812c12f3ab4ce6ac5db69ac352f906cb1b11ef43fb33e252ef7ff552263889" Kind.flag.tag
          (some "roster") =
        .ok (some (flagMax.record, makeAck flagCrypto flagMax.record flagKeypair)) := by
  have hauth := flagServer_authorized (show flagMax ∈ flagSamples by simp [flagSamples])
  have hempty := (anti_rollback_iff flagServer flagServer_readsBack []).1 _ _ hauth
  have hacc : flagServer.Accepts SettingsWorld.init.store flagMax.request := by
    refine (hempty.mpr ?_).mpr ?_
    · rintro ⟨r, hr, -⟩
      cases hr
    · intro r hr
      cases hr
  have hread := (anti_rollback_iff flagServer flagServer_readsBack [.put flagMax.request]).2.2
    "id:fe812c12f3ab4ce6ac5db69ac352f906cb1b11ef43fb33e252ef7ff552263889" ⟨.flag, rfl⟩
    (some "roster")
  have hlast : (run flagServer.step SettingsWorld.init [.put flagMax.request]).last
      flagMax.request.slot = some flagMax.record := by
    rw [run_cons, run_nil]
    exact last_put hauth hacc
  refine ⟨hacc, hread.trans ?_⟩
  unfold WriteRequest.slot at hlast
  rw [show rowKey "id:fe812c12f3ab4ce6ac5db69ac352f906cb1b11ef43fb33e252ef7ff552263889"
    Kind.flag.tag (some "roster") = rowKey flagMax.request.did flagMax.request.kind.1.tag
      flagMax.request.subkey from rfl, hlast]
  rfl

lemma FlagSample.request_slot (x : FlagSample) :
    x.request.slot = rowKey "id:fe812c12f3ab4ce6ac5db69ac352f906cb1b11ef43fb33e252ef7ff552263889"
      "kv.flag" (some "roster") := by
  unfold WriteRequest.slot FlagSample.request
  rfl

lemma FlagSample.record_seq (x : FlagSample) : x.record.seq = x.seq := by
  unfold FlagSample.record
  rfl

/-- After a write at `i64::MAX`, a larger seq is refused. -/
theorem saturated_seq_refuses_larger :
    ¬ ∀ S : SettingsServer, S.ReadsBack → ∀ (acts : List SettingAction) (req : WriteRequest)
        (record : SignedAssertion), S.Authorized req record →
      (S.Accepts (run S.step SettingsWorld.init acts).store req ↔
        (run S.step SettingsWorld.init acts).Allows req.slot record) := by
  intro h
  have hmax := flagServer_authorized (show flagMax ∈ flagSamples by simp [flagSamples])
  have hpast := flagServer_authorized (show flagPastMax ∈ flagSamples by simp [flagSamples])
  have hinit := Remembers.init flagServer
  have hacc : flagServer.Accepts SettingsWorld.init.store flagMax.request := by
    rw [hinit.accepts_iff hmax]
    intro r hr
    cases hr
  have hlast : (run flagServer.step SettingsWorld.init [.put flagMax.request]).last
      flagPastMax.request.slot = some flagMax.record := by
    rw [run_cons, run_nil, flagPastMax.request_slot,
      ← flagMax.request_slot]
    exact last_put hmax hacc
  have hiff := h flagServer flagServer_readsBack [.put flagMax.request] _ _ hpast
  have hallows : (run flagServer.step SettingsWorld.init [.put flagMax.request]).Allows
      flagPastMax.request.slot flagPastMax.record := by
    intro r hr
    obtain rfl : flagMax.record = r := Option.some.inj (hlast.symm.trans hr)
    rw [flagMax.record_seq, flagPastMax.record_seq]
    simp [flagMax, flagPastMax]
  have hrun : Remembers flagServer (run flagServer.step SettingsWorld.init [.put flagMax.request]) :=
    run_invariant' (fun w a hw => hw.step a) hinit
  have hsmall := (hrun.accepts_iff hpast).mp (hiff.mpr hallows) _ hlast
  have hbelow := hsmall.2
  rw [flagMax.record_seq] at hbelow
  simp [flagMax, i64Max] at hbelow

end Ciss
