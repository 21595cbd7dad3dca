import Ciss.Server.AntiRollback
import Ciss.Server.DialBinding

/-!
# A spend period and its baseline

Accepting a period dial is two writes: the record goes into `assertion`, and the DID's running total
into the row `period_baseline:<did>` of `meta`, which is what the spend gate of an upload subtracts.
Each store operation of the put may fail for outside reasons (`PutFault`).  The machine here runs
puts of every kind between the sections of the object requests, and the object requests are gated
by what the stored dials resolve to (`SettingsServer.dials`).

`PeriodWorld.due` notes, next to the store, the running total at the moment a period dial is stored.
A put that fails behind its first write stores the dial, reports an error and leaves the old
baseline (`torn_period_keeps_old_baseline`).  `period_baseline_moves_with_dial` says that this is
all that can go wrong: along every run without such a put (`Tears`) the baseline is what is due in
every state, and a period put errs without storing its dial exactly if it is not one of these.
-/

namespace Ciss

/-! ## What the stored dials resolve to -/

namespace SettingsStore

/-- The current spend period's meter baseline. -/
def periodBaselineOf (s : SettingsStore) (did : String) : Nat := (s.periodBaseline did).getD 0

end SettingsStore

namespace SettingsServer

variable (S : SettingsServer) (s : SettingsStore) (did : String)

/-- A stored dial: whether there is one, and its body if it parses. -/
def storedBody (kind : Kind) : Option (Option Value) :=
  (s.assertion.lookup (rowKey did kind.tag none)).map fun row =>
    (S.parseRecord row.json).map SignedAssertion.body

/-- The account's asserted mode; an unparseable dial fails closed to drawdown. -/
def accountMode : AccountMode :=
  match S.storedBody s did .accountModeDial with
  | none => .active
  | some body =>
      match body.bind AccountModeBody.fromValue with
      | some dial => dial.mode
      | none => .drawdown

/-- The customer's spend cap; an unparseable dial fails closed to nothing. -/
def spendDial : Option Nat :=
  match S.storedBody s did .ceilingDial with
  | none => none
  | some body =>
      match body.bind CeilingDialBody.fromValue with
      | some dial => dial.spendCents
      | none => some 0

/-- The customer's at-rest cap; an unparseable dial fails closed to nothing. -/
def atRestDial : Option Nat :=
  match S.storedBody s did .ceilingDial with
  | none => none
  | some body =>
      match body.bind CeilingDialBody.fromValue with
      | some dial => dial.atRestBytes
      | none => some 0

/-- The asserted receipt mode; an unparseable dial fails toward bilateral. -/
def receiptModeDial : ReceiptMode :=
  match S.storedBody s did .receiptModeDial with
  | none => .unilateral
  | some body =>
      match body.bind ReceiptModeBody.fromValue with
      | some dial => dial.mode
      | none => .bilateral

/-- What the object requests of a DID read. -/
def dials : Dials where
  accountMode := S.accountMode s did
  spendCents := S.spendDial s did
  atRestBytes := S.atRestDial s did
  receiptMode := S.receiptModeDial s did
  periodBaseline := s.periodBaselineOf did

end SettingsServer

/-! ## A put whose store operations may fail -/

/-- The store operation of a put that fails for outside reasons: none, the read of the stored seq,
the upsert, the read of the totals, or the write of the baseline. -/
inductive PutFault where
  | none
  | seq
  | save
  | totals
  | baseline
  deriving DecidableEq, Repr

/-- The failing operation is behind the upsert. -/
def PutFault.afterSave : PutFault → Bool
  | .totals | .baseline => true
  | _ => false

namespace SettingsServer

variable (S : SettingsServer)

/-- The checks before the store is asked: the record with its fold, the body ceiling and the
provider's bound. -/
def checkRecord (req : WriteRequest) : Except ServerError (SignedAssertion × String) :=
  match S.submittedRecord req with
  | .error e => .error e
  | .ok record =>
      match kindFold req.kind.1.tag req.subkey record.body with
      | .error e => .error e
      | .ok fold =>
          let bytes := record.body.render.length
          let ceiling := req.kind.1.spec.bodyCeiling
          if bytes > ceiling then .error (.bodyAboveCeiling req.kind.1.tag bytes ceiling)
          else
            match S.aboveBound req.kind record.body with
            | some (asserted, bound) => .error (.assertionAboveBound asserted bound)
            | none => .ok (record, fold)

/-- The checks against the stored seq, and of the authorization. -/
def checkStored (s : SettingsStore) (req : WriteRequest) (record : SignedAssertion)
    (fold : String) : Except ServerError Unit :=
  if (s.assertionSeq req.did req.kind.1.tag req.subkey).any (record.seq ≤ ·) then
    .error (.assertionStale req.kind.1.tag record.seq)
  else if !record.verify S.crypto fold none S.attestKeypair.verifyingKey then
    .error .assertionUnauthorized
  else .ok ()

/-- The write passes its checks and the upsert takes its row. -/
def Stores (s : SettingsStore) (req : WriteRequest) : Prop :=
  ∃ record, S.Authorized req record ∧ ¬ Stale s req record ∧ Supersedes s req record

/-- `op_put_assertion` on a latest-wins kind, with a fault. -/
def putAssertion (s : SettingsStore) (fault : PutFault) (req : WriteRequest) :
    SettingsStore × Except ServerError AssertionSaved :=
  match S.checkRecord req with
  | .error e => (s, .error e)
  | .ok (record, fold) =>
      if fault = .seq then (s, .error (.persist .sqlite))
      else
        match S.checkStored s req record fold with
        | .error e => (s, .error e)
        | .ok () =>
            let ack := makeAck S.crypto record S.attestKeypair
            if fault = .save then (s, .error (.persist .sqlite))
            else
              match s.saveAssertion record ack with
              | (s', .error e) => (s', .error (.persist e))
              | (s', .ok ()) =>
                  if req.kind.1 = .periodDial then
                    -- the record is stored by now
                    if fault.afterSave then (s', .error (.persist .sqlite))
                    else
                      ({ s' with
                          periodBaseline :=
                            Function.update s'.periodBaseline req.did (some req.runningTotal) },
                        .ok ⟨record.seq, ack.toJson⟩)
                  else (s', .ok ⟨record.seq, ack.toJson⟩)

end SettingsServer

/-! ## The machine -/

/-- The parts of the server. -/
structure PeriodServer where
  settings : SettingsServer
  chain : ChainServer
  objects : ObjectServer

/-- The tables of the settings, of the chains and of the meter with its requests, and what each
DID's baseline ought to be. -/
structure PeriodWorld where
  settings : SettingsStore
  chain : ChainStore
  objects : ObjectWorld
  /-- The running total when the stored period dial was stored; 0 before there is one. -/
  due : String → Nat

/-- An empty server. -/
def PeriodWorld.init : PeriodWorld := ⟨.empty, .empty, .init, fun _ => 0⟩

/-- A put, or a move of an object request. -/
inductive PeriodAction where
  | put (req : WriteRequest) (fault : PutFault)
  | chainPut (did : String) (subkey : Option String) (body : Bytes) (authed : Option AuthedWrite)
      (fault : Fault)
  | start (id : Nat) (request : ObjectRequest)
  | advance (id : Nat) (fault : Fault)

/-- The request as the store's meter completes it. -/
def PeriodWorld.metered (w : PeriodWorld) (req : WriteRequest) : WriteRequest :=
  { req with runningTotal := (w.objects.store.runningTotals req.did).totalBytes }

/-- The total a DID's baseline ought to be once the table is `assertion`. -/
def PeriodWorld.dueAfter (w : PeriodWorld) (req : WriteRequest) (assertion : AssertionTable) :
    String → Nat :=
  if req.kind.1 = .periodDial ∧
      assertion.lookup req.slot ≠ w.settings.assertion.lookup req.slot then
    Function.update w.due req.did (w.objects.store.runningTotals req.did).totalBytes
  else w.due

namespace PeriodServer

variable (S : PeriodServer)

/-- A put on the `chain.counter` route: a fault fails its transaction, or the compaction behind
it. -/
def chainPut (s : ChainStore) (did : String) (subkey : Option String) (body : Bytes)
    (authed : Option AuthedWrite) : Fault → ChainStore
  | .early => s
  | .late =>
      (({ S.chain with compaction := .deferred } : ChainServer).opPutAssertion s did subkey body
        authed).toOption.elim s Prod.fst
  | .none => (S.chain.opPutAssertion s did subkey body authed).toOption.elim s Prod.fst

/-- One put, under the store lock, or one section of an object request. -/
def step (w : PeriodWorld) : PeriodAction → PeriodWorld
  | .put req fault =>
      let settings := (S.settings.putAssertion w.settings fault (w.metered req)).1
      { w with
        settings := settings
        objects := S.objects.step w.objects (.dial req.did (S.settings.dials settings req.did))
        due := w.dueAfter req settings.assertion }
  | .chainPut did subkey body authed fault =>
      { w with chain := S.chainPut w.chain did subkey body authed fault }
  | .start id request => { w with objects := S.objects.step w.objects (.start id request) }
  | .advance id fault => { w with objects := S.objects.step w.objects (.advance id fault) }

/-- A period dial is stored, and its put then fails. -/
def Tears (w : PeriodWorld) : PeriodAction → Prop
  | .put req fault =>
      req.kind.1 = .periodDial ∧ fault.afterSave = true ∧
        S.settings.Stores w.settings (w.metered req)
  | _ => False

end PeriodServer

/-! ## What a put does -/

section

variable {S : SettingsServer} {s : SettingsStore} {req : WriteRequest} {record : SignedAssertion}
  {fault : PutFault} {fold : String}

lemma checkWrite_eq_bind (S : SettingsServer) (s : SettingsStore) (req : WriteRequest) :
    S.checkWrite s req =
      (S.checkRecord req).bind fun x => (S.checkStored s req x.1 x.2).map fun _ => x.1 := by
  rw [SettingsServer.checkWrite, SettingsServer.checkRecord]
  cases S.submittedRecord req with
  | error e => rfl
  | ok record =>
      dsimp only
      cases kindFold req.kind.1.tag req.subkey record.body with
      | error e => rfl
      | ok fold =>
          dsimp only
          by_cases hceiling : record.body.render.length > req.kind.1.spec.bodyCeiling
          · rw [if_pos hceiling, if_pos hceiling]
            rfl
          · rw [if_neg hceiling, if_neg hceiling]
            cases S.aboveBound req.kind record.body with
            | some x => rfl
            | none =>
                show _ = (S.checkStored s req record fold).map fun _ => record
                rw [SettingsServer.checkStored]
                split_ifs
                · rfl
                · rfl
                · rfl

lemma putAssertion_none (S : SettingsServer) (s : SettingsStore) (req : WriteRequest) :
    S.putAssertion s .none req = S.opPutAssertion s req := by
  rw [SettingsServer.putAssertion, SettingsServer.opPutAssertion, checkWrite_eq_bind]
  cases S.checkRecord req with
  | error e => rfl
  | ok x =>
      obtain ⟨record, fold⟩ := x
      dsimp only [Except.bind]
      rw [if_neg (by decide)]
      cases S.checkStored s req record fold with
      | error e => rfl
      | ok u =>
          dsimp only [Except.map]
          rw [if_neg (by decide)]
          cases hsave : s.saveAssertion record (makeAck S.crypto record S.attestKeypair) with
          | mk s' result =>
              cases result with
              | error e => rfl
              | ok u =>
                  dsimp only
                  split_ifs with hperiod hafter
                  · cases hafter
                  · rfl
                  · rfl

/-- **What a put with a fault can do.**  It stores nothing and errs; or it does all it should; or,
a period dial that fails behind its upsert, it stores the record alone and errs. -/
lemma putAssertion_cases (S : SettingsServer) (s : SettingsStore) (fault : PutFault)
    (req : WriteRequest) :
    (∃ e, S.putAssertion s fault req = (s, .error e) ∧
        (fault.afterSave = true → ¬ S.Stores s req)) ∨
      (∃ record saved, Supersedes s req record ∧
        ¬ (req.kind.1 = .periodDial ∧ fault.afterSave = true) ∧
        S.putAssertion s fault req = (S.stored s req record, .ok saved)) ∨
      ∃ record e, Supersedes s req record ∧ S.Stores s req ∧
        req.kind.1 = .periodDial ∧ fault.afterSave = true ∧
        S.putAssertion s fault req =
          ({ s with assertion := s.assertion.insert req.slot (S.rowOf record) }, .error e) := by
  -- a write whose checks fail stores nothing
  have hrefused : ∀ e, S.checkWrite s req = .error e → ¬ S.Stores s req := by
    rintro e he ⟨record, hauth, hstale, -⟩
    rw [checkWrite_eq_ok_iff.mpr ⟨hauth, hstale⟩] at he
    cases he
  have hcheck := checkWrite_eq_bind S s req
  rw [SettingsServer.putAssertion]
  cases hrecord : S.checkRecord req with
  | error e =>
      rw [hrecord] at hcheck
      exact Or.inl ⟨e, rfl, fun _ => hrefused e hcheck⟩
  | ok x =>
      obtain ⟨record, fold⟩ := x
      rw [hrecord] at hcheck
      dsimp only [Except.bind] at hcheck ⊢
      by_cases hseq : fault = .seq
      · rw [if_pos hseq]
        refine Or.inl ⟨_, rfl, ?_⟩
        rw [hseq]
        intro h
        cases h
      rw [if_neg hseq]
      cases hstored : S.checkStored s req record fold with
      | error e =>
          rw [hstored] at hcheck
          exact Or.inl ⟨e, rfl, fun _ => hrefused e hcheck⟩
      | ok u =>
          rw [hstored] at hcheck
          obtain ⟨hauth, hstale⟩ := checkWrite_eq_ok_iff.mp hcheck
          have hslot := submittedRecord_slot hauth.submitted
          dsimp only
          let saved : AssertionSaved :=
            ⟨record.seq, (makeAck S.crypto record S.attestKeypair).toJson⟩
          by_cases hsavefault : fault = .save
          · rw [if_pos hsavefault]
            refine Or.inl ⟨_, rfl, ?_⟩
            rw [hsavefault]
            intro h
            cases h
          rw [if_neg hsavefault]
          by_cases hsup : Supersedes s req record
          · rw [saveAssertion_supersedes hslot hsup]
            dsimp only
            by_cases hperiod : req.kind.1 = .periodDial
            · rw [if_pos hperiod]
              by_cases hafter : fault.afterSave = true
              · rw [if_pos hafter]
                exact Or.inr (Or.inr ⟨record, _, hsup, ⟨record, hauth, hstale, hsup⟩, hperiod,
                  hafter, rfl⟩)
              · rw [if_neg hafter]
                refine Or.inr (Or.inl ⟨record, saved, hsup, fun h => hafter h.2, ?_⟩)
                rw [SettingsServer.stored, if_pos hperiod]
            · rw [if_neg hperiod]
              refine Or.inr (Or.inl ⟨record, saved, hsup, fun h => hperiod h.1, ?_⟩)
              rw [SettingsServer.stored, if_neg hperiod]
          · rw [saveAssertion_refused hslot hsup]
            refine Or.inl ⟨_, rfl, fun _ => ?_⟩
            rintro ⟨record', hauth', -, hsup'⟩
            have hsame := hauth.submitted.symm.trans hauth'.submitted
            cases hsame
            exact hsup hsup'

lemma lookup_insert_ne_of_supersedes (hsup : Supersedes s req record) :
    (s.assertion.insert req.slot (S.rowOf record)).lookup req.slot ≠
      s.assertion.lookup req.slot := by
  rw [AList.lookup_insert]
  intro hsame
  have hlt := hsup (S.rowOf record) hsame.symm
  rw [SettingsServer.rowOf] at hlt
  exact absurd hlt (lt_irrefl _)

end

/-! ## Along a run -/

section

variable {S : PeriodServer} {w : PeriodWorld} {req : WriteRequest} {fault : PutFault}

/-- Every baseline is what it ought to be. -/
def BaselineDue (w : PeriodWorld) : Prop := ∀ did, w.settings.periodBaselineOf did = w.due did

lemma BaselineDue.put (h : BaselineDue w) (hwhole : ¬ S.Tears w (.put req fault)) :
    BaselineDue (S.step w (.put req fault)) := by
  intro did
  show ((S.settings.putAssertion w.settings fault (w.metered req)).1).periodBaselineOf did =
    w.dueAfter req (S.settings.putAssertion w.settings fault (w.metered req)).1.assertion did
  obtain ⟨e, heq, -⟩ | ⟨record, saved, hsup, -, heq⟩ | ⟨record, e, -, hstores, hkind, hafter, -⟩ :=
    putAssertion_cases S.settings w.settings fault (w.metered req)
  · rw [heq, PeriodWorld.dueAfter, if_neg (fun hnew => hnew.2 rfl)]
    exact h did
  · have hnew := lookup_insert_ne_of_supersedes (S := S.settings) hsup
    rw [heq, PeriodWorld.dueAfter]
    by_cases hkind : req.kind.1 = .periodDial
    · have hmetered : (w.metered req).kind.1 = .periodDial := hkind
      rw [if_pos ⟨hkind, hnew⟩, SettingsStore.periodBaselineOf, SettingsServer.stored]
      dsimp only
      rw [if_pos hmetered]
      by_cases hdid : did = req.did
      · have hself : did = (w.metered req).did := hdid
        rw [hself, Function.update_self]
        exact (Function.update_self req.did _ w.due).symm
      · have hother : did ≠ (w.metered req).did := hdid
        rw [Function.update_of_ne hother, Function.update_of_ne hdid]
        exact h did
    · have hmetered : ¬ (w.metered req).kind.1 = .periodDial := hkind
      rw [if_neg (fun hcond => hkind hcond.1), SettingsStore.periodBaselineOf,
        SettingsServer.stored]
      dsimp only
      rw [if_neg hmetered]
      exact h did
  · exact absurd ⟨hkind, hafter, hstores⟩ hwhole

lemma BaselineDue.step (h : BaselineDue w) (a : PeriodAction) (hwhole : ¬ S.Tears w a) :
    BaselineDue (S.step w a) := by
  cases a with
  | put req fault => exact h.put hwhole
  | chainPut did subkey body authed fault => exact h
  | start id request => exact h
  | advance id fault => exact h

lemma settings_put_eq_iff {e : ServerError}
    (herr : (S.settings.putAssertion w.settings fault (w.metered req)).2 = .error e) :
    (S.step w (.put req fault)).settings = w.settings ↔ ¬ S.Tears w (.put req fault) := by
  show (S.settings.putAssertion w.settings fault (w.metered req)).1 = w.settings ↔ _
  obtain ⟨e', heq, hrefused⟩ | ⟨record, saved, -, -, heq⟩ |
      ⟨record, e', hsup, hstores, hkind, hafter, heq⟩ :=
    putAssertion_cases S.settings w.settings fault (w.metered req)
  · rw [heq]
    exact iff_of_true rfl fun htears => hrefused htears.2.1 htears.2.2
  · rw [heq] at herr
    cases herr
  · rw [heq]
    refine iff_of_false ?_ (fun hwhole => hwhole ⟨hkind, hafter, hstores⟩)
    intro hsame
    have hnew := lookup_insert_ne_of_supersedes (S := S.settings) hsup
    exact hnew (congrArg (fun s => s.assertion.lookup (w.metered req).slot) hsame)

lemma dials_congr {T : SettingsServer} {s s' : SettingsStore} {did : String}
    (hrows : ∀ kind : Kind, s'.assertion.lookup (rowKey did kind.tag none) =
      s.assertion.lookup (rowKey did kind.tag none))
    (hbaseline : s'.periodBaseline did = s.periodBaseline did) :
    T.dials s' did = T.dials s did := by
  have hbody : T.storedBody s' did = T.storedBody s did := by
    funext kind
    rw [SettingsServer.storedBody, SettingsServer.storedBody, hrows]
  simp only [SettingsServer.dials, SettingsServer.accountMode, SettingsServer.spendDial,
    SettingsServer.atRestDial, SettingsServer.receiptModeDial, SettingsStore.periodBaselineOf,
    hbody, hbaseline]

lemma dials_putAssertion {T : SettingsServer} {s : SettingsStore} {did : String}
    (hdid : did ≠ req.did) : T.dials (T.putAssertion s fault req).1 did = T.dials s did := by
  have hkey : ∀ kind : Kind, rowKey did kind.tag none ≠ req.slot :=
    fun kind hsame => hdid (congrArg Prod.fst hsame)
  obtain ⟨e, heq, -⟩ | ⟨record, saved, -, -, heq⟩ | ⟨record, e, -, -, -, -, heq⟩ :=
    putAssertion_cases T s fault req
  · rw [heq]
  · rw [heq]
    apply dials_congr
    · intro kind
      exact AList.lookup_insert_ne (hkey kind)
    · show (if req.kind.1 = .periodDial then _ else _ : String → Option Nat) did = _
      split_ifs
      · exact Function.update_of_ne hdid _ _
      · rfl
  · rw [heq]
    apply dials_congr
    · intro kind
      exact AList.lookup_insert_ne (hkey kind)
    · rfl

/-- **The gates read the stored dials.**  Whatever fails, the dials the object requests of a DID
see are those its stored records resolve to. -/
theorem gates_read_stored_dials (S : PeriodServer) (acts : List PeriodAction) (did : String) :
    (run S.step PeriodWorld.init acts).objects.store.dials did =
      S.settings.dials (run S.step PeriodWorld.init acts).settings did := by
  refine run_invariant' (I := fun w : PeriodWorld => ∀ did, w.objects.store.dials did =
    S.settings.dials w.settings did) ?_ (fun did => rfl) did
  intro w a hw did
  cases a with
  | put req fault =>
      show (S.objects.step w.objects (.dial req.did _)).store.dials did =
        S.settings.dials (S.settings.putAssertion w.settings fault (w.metered req)).1 did
      rw [step_dials, dialsAfter]
      split_ifs with hdid
      · rw [hdid]
      · rw [hw did]
        have hother : did ≠ (w.metered req).did := hdid
        exact (dials_putAssertion hother).symm
  | chainPut did' subkey body authed fault => exact hw did
  | start id request =>
      show (S.objects.step w.objects (.start id request)).store.dials did = _
      rw [step_dials]
      exact hw did
  | advance id fault =>
      show (S.objects.step w.objects (.advance id fault)).store.dials did = _
      rw [step_dials]
      exact hw did

/-- **A period dial and its baseline move together unless a put is torn.**  After every run whose
steps tear no put, each DID's baseline is its running total when its stored period dial was stored,
or 0; and a put of a period dial that errs there leaves the settings as they are, exactly unless it
stores its record and then fails. -/
theorem period_baseline_moves_with_dial (S : PeriodServer) (acts : List PeriodAction)
    (h : Along S.step (fun w a => ¬ S.Tears w a) PeriodWorld.init acts) :
    (∀ did, (run S.step PeriodWorld.init acts).settings.periodBaselineOf did =
        (run S.step PeriodWorld.init acts).due did) ∧
      ∀ (req : WriteRequest) (fault : PutFault) (e : ServerError), req.kind.1 = .periodDial →
        (S.settings.putAssertion (run S.step PeriodWorld.init acts).settings fault
          ((run S.step PeriodWorld.init acts).metered req)).2 = .error e →
        ((S.step (run S.step PeriodWorld.init acts) (.put req fault)).settings =
            (run S.step PeriodWorld.init acts).settings ↔
          ¬ S.Tears (run S.step PeriodWorld.init acts) (.put req fault)) := by
  refine ⟨?_, ?_⟩
  · exact run_invariant (I := BaselineDue) (fun w a hw hwhole => hw.step a hwhole)
      (fun did => rfl) h
  · intro req fault e _ herr
    exact settings_put_eq_iff herr

end

/-! ### A period that starts after an upload

An upload of three bytes, and a period dial its DID asserts by JWT, with the server's real
signatures. -/

/-- The acknowledged digest of the dial's record. -/
def periodDigest : String := "8f51cd436acf6075d1c8e1c709e96f203ecc34862a9a5cb1c510412daa4f958b"

/-- The server's signatures of the record, the acknowledgment and the upload's receipt. -/
def periodSignatures : List (Bytes × Bytes) :=
  (asBytes (attestPreimage "dial.period" "did:plc:ewvi7nxzyoun6zhxrhs64oiz"
        "did:plc:ewvi7nxzyoun6zhxrhs64oiz" none 1 periodBodyFold),
      (hexDecode (String.join [
        "1bbfebd3df0fa9a450f1bfcb708178fdcfec63c82864d79262099e291b9ead40",
        "e371ba0f2971040472873a95cd9e475e91311855e56eef820b3834edd6220e00"])).getD []) ::
    (asBytes (ackPreimage "dial.period" "did:plc:ewvi7nxzyoun6zhxrhs64oiz" none 1 periodDigest),
      (hexDecode (String.join [
        "90215c123d80c1cefc33c73e7d0aa3ffe10abb5a312eb51bcd4ca32bf67cc371",
        "206be4f417522b06b7f61b6f7b0ccef8132cde7026b9c78b72e1995f816c790f"])).getD []) ::
    raceSignatures

def periodKeypair : Keypair where
  verifyingKey := raceKey
  sign message := (periodSignatures.lookup message).getD []

/-- The record the server builds from the intent. -/
def periodRecord : SignedAssertion :=
  .attestProvider "dial.period" "did:plc:ewvi7nxzyoun6zhxrhs64oiz" none 1 (.object [])
    periodBodyFold "" periodKeypair

/-- SHA-256 and Ed25519 on these texts. -/
def periodCrypto : Crypto where
  sha256Hex := tabulatedHash ((periodRecord.toJson, periodDigest) :: raceDigests)
  isPublicKey bytes := bytes = raceKey.toBytes
  verifyStrict key message sig := key = raceKey ∧ periodSignatures.lookup message = some sig

/-- The intent as it is sent. -/
def periodIntent : Bytes := asBytes "\x7b\"seq\":1,\"body\":\x7b\x7d\x7d"

def periodServer : PeriodServer where
  settings :=
    { crypto := periodCrypto
      attestKeypair := periodKeypair
      limits := ⟨5, some 5⟩
      parseRecord := readBack SignedAssertion.toJson [periodRecord]
      parseIntent bytes := if bytes = periodIntent then some (1, .object []) else none
      parseAck := readBack Ack.toJson [makeAck periodCrypto periodRecord periodKeypair] }
  chain := ⟨periodCrypto, periodKeypair, .deferred, fun _ => none, fun _ => none⟩
  objects := { raceServer with crypto := periodCrypto }

/-- The request to start a period. -/
def periodRequest : WriteRequest where
  did := "did:plc:ewvi7nxzyoun6zhxrhs64oiz"
  kind := ⟨.periodDial, rfl⟩
  subkey := none
  body := periodIntent
  authed := some ⟨"did:plc:ewvi7nxzyoun6zhxrhs64oiz", none⟩
  runningTotal := 0

/-- The upload, and then the dial. -/
def periodAfterUpload (fault : PutFault) : List PeriodAction :=
  .start 1 (raceUpload "abc" abc_fits) ::
    (List.replicate 6 (.advance 1 .none) ++ [.put periodRequest fault])

lemma periodAfterUpload_whole : Along periodServer.step (fun w a => ¬ periodServer.Tears w a)
    PeriodWorld.init (periodAfterUpload .none) := by
  apply along_of_take
  intro k a hk
  have ha := List.mem_of_getElem? hk
  simp only [periodAfterUpload, List.mem_cons, List.mem_append, List.mem_replicate,
    List.not_mem_nil, or_false] at ha
  rintro htears
  obtain rfl | ⟨-, rfl⟩ | rfl := ha
  · exact htears
  · exact htears
  · exact absurd htears.2.1 (by decide)

/-- The period starts at the three bytes of the upload. -/
theorem period_baseline_moves_with_dial_upload :
    (run periodServer.step PeriodWorld.init (periodAfterUpload .none)).settings.periodBaselineOf
      "did:plc:ewvi7nxzyoun6zhxrhs64oiz" = 3 := by
  have hdue : (run periodServer.step PeriodWorld.init (periodAfterUpload .none)).due
      "did:plc:ewvi7nxzyoun6zhxrhs64oiz" = 3 := by decide +kernel
  rw [← hdue]
  exact (period_baseline_moves_with_dial periodServer _ periodAfterUpload_whole).1 _

/-- The dial is stored, the write of the baseline fails, and the baseline stays at 0. -/
theorem torn_period_keeps_old_baseline :
    ¬ ∀ (S : PeriodServer) (acts : List PeriodAction),
      (∀ did, (run S.step PeriodWorld.init acts).settings.periodBaselineOf did =
          (run S.step PeriodWorld.init acts).due did) ∧
        ∀ (req : WriteRequest) (fault : PutFault) (e : ServerError), req.kind.1 = .periodDial →
          (S.settings.putAssertion (run S.step PeriodWorld.init acts).settings fault
            ((run S.step PeriodWorld.init acts).metered req)).2 = .error e →
          (S.step (run S.step PeriodWorld.init acts) (.put req fault)).settings =
            (run S.step PeriodWorld.init acts).settings := by
  intro h
  have hdue : (run periodServer.step PeriodWorld.init (periodAfterUpload .baseline)).due
      "did:plc:ewvi7nxzyoun6zhxrhs64oiz" = 3 := by decide +kernel
  have hbaseline :
      (run periodServer.step PeriodWorld.init
        (periodAfterUpload .baseline)).settings.periodBaselineOf
          "did:plc:ewvi7nxzyoun6zhxrhs64oiz" = 0 := by decide +kernel
  have hsame := (h periodServer (periodAfterUpload .baseline)).1 "did:plc:ewvi7nxzyoun6zhxrhs64oiz"
  rw [hdue, hbaseline] at hsame
  cases hsame

end Ciss
