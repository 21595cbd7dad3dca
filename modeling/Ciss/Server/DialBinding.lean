import Ciss.Server.Metering
import Ciss.Server.StoredBytes

/-!
# Dials and the uploads they bind

An upload asks the customer's dials once, at its gates, and commits its receipt sections later.
`DialsBind` says what the dials promise of a commit: the account is not in drawdown, and a transfer
that costs something does not start from a period that is already past its ceiling.  A dial that
is accepted between gates and commit breaks it (`upload_commits_in_drawdown`), and so do other
transfers of the DID that commit in between.

`dials_bind_of_open_gates` says that nothing else does: along every run in which no accepted dial
and no other committed transfer closes the gates on an upload that has passed them
(`LeavesGatesOpen`), every commit is bound by the dials in force.  The invariant is that the gates
are still open for every upload past them (`GatesOpen`); that a section moves the DID's total by the
bytes of the receipt it commits, and by nothing else, is read off the receipt ledger.
-/

namespace Ciss

/-! ## Gates and what they promise -/

/-- The dial gates for a transfer of `boundary` bytes, when `total` bytes have been transferred. -/
def gatesPass (dials : Dials) (total boundary : Nat) : Bool :=
  dials.accountMode ≠ .drawdown &&
    dials.spendCents.all fun ceilingCents =>
      let periodBytes := total - dials.periodBaseline
      let neededCents := postageCents (saturatingAdd periodBytes boundary)
      neededCents ≤ ceilingCents || neededCents ≤ postageCents periodBytes

/-- The dials in force bind the step: if it commits an upload, the account is not in drawdown, and
an upload with positive marginal postage finds the period's postage within the ceiling. -/
def DialsBind (w : ObjectWorld) : ObjectAction → Prop
  | .advance id .none =>
      ∀ did key bytes read, w.inFlight id = some (.put did key bytes (.commit read)) →
        (w.store.dials did).accountMode ≠ .drawdown ∧
        ∀ ceilingCents, (w.store.dials did).spendCents = some ceilingCents →
          let periodBytes :=
            (w.store.runningTotals did).totalBytes - (w.store.dials did).periodBaseline
          postageCents periodBytes <
              postageCents (saturatingAdd periodBytes bytes.bytes.length) →
            postageCents periodBytes ≤ ceilingCents
  | _ => True

/-! ## Steps that leave the gates open -/

/-- The bytes of the receipt a section commits for a DID. -/
def sectionBytes (did : String) (fault : Fault) : InFlight → Nat
  | .put did' _ bytes (.commit _) => if fault = .none ∧ did' = did then bytes.bytes.length else 0
  | .serve did' _ data => if fault = .none ∧ did' = did then data.length else 0
  | _ => 0

/-- The bytes of the receipt a step commits for a DID. -/
def committedBytes (w : ObjectWorld) (did : String) : ObjectAction → Nat
  | .advance id fault => (w.inFlight id).elim 0 (sectionBytes did fault)
  | _ => 0

/-- The DID's dials once a step is taken. -/
def dialsAfter (w : ObjectWorld) (did : String) : ObjectAction → Dials
  | .dial did' dials => if did = did' then dials else w.store.dials did
  | _ => w.store.dials did

/-- The upload has passed its gates. -/
def PutStage.pastGates : PutStage → Bool
  | .gates => false
  | _ => true

/-- Neither the dial a step accepts nor the transfer it commits closes the gates on another upload
that has passed them. -/
def LeavesGatesOpen (w : ObjectWorld) (a : ObjectAction) : Prop :=
  ∀ id did key bytes stage, a.request ≠ some id →
    w.inFlight id = some (.put did key bytes stage) → stage.pastGates = true →
      gatesPass (dialsAfter w did a)
        ((w.store.runningTotals did).totalBytes + committedBytes w did a)
        bytes.bytes.length = true

/-- The gates are still open for every upload past them. -/
def GatesOpen (w : ObjectWorld) : Prop :=
  ∀ id did key bytes stage, w.inFlight id = some (.put did key bytes stage) →
    stage.pastGates = true →
      gatesPass (w.store.dials did) (w.store.runningTotals did).totalBytes
        bytes.bytes.length = true

section

variable {S : ObjectServer} {s s' : MeterStore} {blobs blobs' : Blobs} {w : ObjectWorld}
  {req req' : InFlight} {fault : Fault} {did : String}

lemma gatesPass_of_dialGates {boundary : Nat} (h : dialGates s did boundary = .ok ()) :
    gatesPass (s.dials did) (s.runningTotals did).totalBytes boundary = true := by
  unfold dialGates at h
  unfold gatesPass
  dsimp only at h ⊢
  split_ifs at h with hmode
  rcases hdial : (s.dials did).spendCents with _ | ceilingCents
  · simp [hmode]
  · rw [hdial] at h
    dsimp only at h
    split_ifs at h with hceiling
    simp only [Option.all_some, Bool.and_eq_true, Bool.or_eq_true, decide_eq_true_eq]
    refine ⟨hmode, ?_⟩
    omega

/-- Open gates give what the dials promise. -/
lemma gatesPass_promise {dials : Dials} {total boundary : Nat}
    (h : gatesPass dials total boundary = true) :
    dials.accountMode ≠ .drawdown ∧
      ∀ ceilingCents, dials.spendCents = some ceilingCents →
        postageCents (total - dials.periodBaseline) <
            postageCents (saturatingAdd (total - dials.periodBaseline) boundary) →
          postageCents (total - dials.periodBaseline) ≤ ceilingCents := by
  unfold gatesPass at h
  simp only [Bool.and_eq_true, decide_eq_true_eq] at h
  refine ⟨h.1, ?_⟩
  intro ceilingCents hdial hmarginal
  have hceiling := h.2
  rw [hdial] at hceiling
  simp only [Option.all_some, Bool.or_eq_true, decide_eq_true_eq] at hceiling
  omega

/-! ## What a step does to totals and dials -/

lemma LedgerConsistent.totalBytes_eq (h : LedgerConsistent s) (did : String) :
    (s.runningTotals did).totalBytes = ((s.cores did).map ReceiptCore.bytes).sum := by
  rw [h.runningTotals_eq]
  exact ReceiptTotals.totalBytes_ofCores _

lemma cores_commit (isNew : Bool) (direction : Direction) (did' cid : String) (n : Nat) :
    (((if isNew then s.addStoredBytes did' n else s).appendReceipt did'
      (S.receiptFor s direction did' cid n)).cores did).map ReceiptCore.bytes =
      (s.cores did).map ReceiptCore.bytes ++ if did' = did then [n] else [] := by
  have hadd : (if isNew then s.addStoredBytes did' n else s).cores did = s.cores did := by
    split_ifs
    · exact MeterStore.cores_addStoredBytes n
    · rfl
  by_cases hdid : did' = did
  · subst hdid
    rw [MeterStore.cores_appendReceipt_self, hadd, if_pos rfl, List.map_append, List.map_singleton,
      (receiptFor_core S s direction did' cid n).1]
  · rw [MeterStore.cores_appendReceipt_other _ hdid, hadd, if_neg hdid, List.append_nil]

/-- The bytes of a DID's receipts grow by those of the receipt a section commits. -/
lemma runSection_bytes (S : ObjectServer) (s : MeterStore) (blobs : Blobs) (fault : Fault)
    (req : InFlight) (did : String) :
    (((S.runSection s blobs fault req).1.cores did).map ReceiptCore.bytes).sum =
      ((s.cores did).map ReceiptCore.bytes).sum + sectionBytes did fault req := by
  rcases req with ⟨did', key, bytes, stage⟩ | ⟨did', cid⟩ | ⟨did', cid, data⟩ |
    ⟨did', contentHash, payload⟩
  · by_cases hstage : ∃ read, stage = .commit read
    · obtain ⟨read, rfl⟩ := hstage
      rcases fault with _ | _ | _
      · simp only [ObjectServer.runSection, ObjectServer.commitPut, sectionBytes, cores_commit,
          List.sum_append, true_and]
        split_ifs <;> rfl
      · rfl
      · -- the receipt is not appended, the bytes of a new blob may have been counted
        rcases read with _ | read
        · rfl
        · show (((s.addStoredBytes did' bytes.bytes.length).cores did).map ReceiptCore.bytes).sum = _
          rw [MeterStore.cores_addStoredBytes]
          rfl
    · rw [runSection_put_store fun read heq => hstage ⟨read, heq⟩]
      have hzero : sectionBytes did fault (.put did' key bytes stage) = 0 := by
        rcases stage with _ | _ | _ | read | read | read
        all_goals first | rfl | exact absurd ⟨read, rfl⟩ hstage
      rw [hzero, Nat.add_zero]
  · have hstore : (S.runSection s blobs fault (.fetch did' cid)).1 = s := by
      rcases runSection_store S s blobs fault (.fetch did' cid) with
        heq | ⟨_, _, _, _, hput, -⟩ | ⟨_, _, _, _, _, hput, -⟩ | ⟨_, _, _, hput, -⟩ |
        ⟨_, _, _, _, hput, -⟩
      · exact heq
      all_goals cases hput
    rw [hstore]
    rfl
  · rcases fault with _ | _ | _
    · have hcores : ((s.appendReceipt did'
          (S.receiptFor s .download did' cid data.length)).cores did).map ReceiptCore.bytes =
          (s.cores did).map ReceiptCore.bytes ++ if did' = did then [data.length] else [] :=
        cores_commit false .download did' cid data.length
      simp only [ObjectServer.runSection, ObjectServer.commitGet, sectionBytes, hcores,
        List.sum_append, true_and]
      split_ifs <;> rfl
    · rfl
    · rfl
  · have hcores : (S.runSection s blobs fault (.countersign did' contentHash payload)).1.cores did =
        s.cores did := by
      show (S.countersign s fault did' contentHash payload).1.cores did = s.cores did
      rcases countersign_store did' contentHash payload with heq | ⟨sig, heq⟩
      · rw [heq]
      · rw [heq, MeterStore.cores_countersignReceipt]
    rw [hcores]
    rfl

lemma MeterStore.dials_countersignReceipt (contentHash signer sig : String) :
    (s.countersignReceipt did contentHash signer sig).1.dials = s.dials := by
  unfold MeterStore.countersignReceipt
  dsimp only
  split
  · rfl
  · split <;> rfl

/-- No section of an object request changes a dial. -/
lemma runSection_dials (S : ObjectServer) (s : MeterStore) (blobs : Blobs) (fault : Fault)
    (req : InFlight) : (S.runSection s blobs fault req).1.dials = s.dials := by
  rcases runSection_store S s blobs fault req with
    heq | ⟨did, key, bytes, read, -, heq⟩ | ⟨did, key, bytes, read, cid, -, heq⟩ |
    ⟨did, cid, data, -, heq⟩ | ⟨did, contentHash, payload, sig, -, heq⟩
  · rw [heq]
  · rw [heq, MeterStore.addStoredBytes_dials]
  · rw [heq, MeterStore.appendReceipt_dials]
    split_ifs
    · exact MeterStore.addStoredBytes_dials _
    · rfl
  · rw [heq, MeterStore.appendReceipt_dials]
  · rw [heq, MeterStore.dials_countersignReceipt]

lemma step_dials (S : ObjectServer) (w : ObjectWorld) (a : ObjectAction) (did : String) :
    (S.step w a).store.dials did = dialsAfter w did a := by
  rcases a with ⟨id, request⟩ | ⟨id, fault⟩ | ⟨did', dials⟩ | did'
  · rw [step_start_store]
    rfl
  · rcases step_advance_store S w id fault with heq | ⟨req, -, heq⟩
    · rw [heq]
      rfl
    · rw [heq, runSection_dials]
      rfl
  · show Function.update w.store.dials did' dials did = _
    unfold dialsAfter
    by_cases hdid : did = did'
    · rw [hdid, Function.update_self]
      simp
    · rw [Function.update_of_ne hdid]
      simp [hdid]
  · rfl

/-- The DID's total moves by the receipt a step commits, and by nothing else. -/
lemma step_total (h : LedgerConsistent w.store) (a : ObjectAction) (did : String) :
    ((S.step w a).store.runningTotals did).totalBytes =
      (w.store.runningTotals did).totalBytes + committedBytes w did a := by
  rw [(h.step a).totalBytes_eq, h.totalBytes_eq]
  rcases a with ⟨id, request⟩ | ⟨id, fault⟩ | ⟨did', dials⟩ | did'
  · rw [step_start_store]
    rfl
  · rcases hreq : w.inFlight id with _ | req
    · have hsame : S.step w (.advance id fault) = w := by simp only [ObjectServer.step, hreq]
      rw [hsame]
      simp [committedBytes, hreq]
    · rcases hsec : S.runSection w.store w.blobs fault req with ⟨s', blobs', next⟩
      have hbytes := runSection_bytes S w.store w.blobs fault req did
      rw [hsec] at hbytes
      rw [(step_advance_eq hreq hsec).1, hbytes]
      simp [committedBytes, hreq]
  · rfl
  · rfl

/-- A section that goes on with an upload has not touched the store, and has just passed the gates
or was past them before. -/
lemma runSection_continue {key : String} {bytes : Slice} {stage : PutStage}
    (h : S.runSection s blobs fault req = (s', blobs', .continue (.put did key bytes stage))) :
    s' = s ∧ ∃ stage₀, req = .put did key bytes stage₀ ∧
      (stage₀.pastGates = true ∨ dialGates s did bytes.bytes.length = .ok ()) := by
  obtain ⟨did', key', bytes', stage', rfl⟩ := runSection_continue_put h
  obtain ⟨rfl, _, hput, hmoves⟩ := runSection_put_continue h
  cases hput
  refine ⟨rfl, stage', rfl, ?_⟩
  cases hmoves with
  | gates hgates => exact Or.inr hgates
  | _ => exact Or.inl rfl

/-! ## The invariant -/

/-- The gates of every upload past them stay open: for the others by the condition on the step, for
the one that moves because its section leaves totals and dials alone. -/
lemma GatesOpen.step (h : GatesOpen w) (hledger : LedgerConsistent w.store) {a : ObjectAction}
    (ha : LeavesGatesOpen w a) : GatesOpen (S.step w a) := by
  intro id did key bytes stage hid hpast
  by_cases hmoves : a.request = some id
  · rcases a with ⟨id', request⟩ | ⟨id', fault⟩ | ⟨did', dials⟩ | did'
    · obtain rfl : id' = id := Option.some.inj hmoves
      rcases hreq : w.inFlight id' with _ | req
      · simp only [ObjectServer.step, hreq, Function.update_self, Option.some.injEq] at hid
        rcases request with _ | _ | _
        · cases hid
          cases hpast
        · cases hid
        · cases hid
      · simp only [ObjectServer.step, hreq] at hid ⊢
        exact h id' did key bytes stage (by rw [hreq]; exact hid) hpast
    · obtain rfl : id' = id := Option.some.inj hmoves
      rcases hreq : w.inFlight id' with _ | req
      · have hsame : S.step w (.advance id' fault) = w := by simp only [ObjectServer.step, hreq]
        rw [hsame, hreq] at hid
        cases hid
      · rcases hsec : S.runSection w.store w.blobs fault req with ⟨s', blobs', next⟩
        obtain ⟨hstore, -, hflight⟩ := step_advance_eq hreq hsec
        rw [hflight, Function.update_self] at hid
        rcases next with req' | result
        · obtain rfl := Option.some.inj hid
          obtain ⟨rfl, stage₀, rfl, hgates⟩ := runSection_continue hsec
          rw [hstore]
          rcases hgates with hpast₀ | hgates
          · exact h id' did key bytes stage₀ hreq hpast₀
          · exact gatesPass_of_dialGates hgates
        · cases hid
    · cases hmoves
    · cases hmoves
  · have hflight : (run S.step w [a]).inFlight id = w.inFlight id :=
      inFlight_of_not_moved (by simpa using hmoves)
    rw [run_cons, run_nil] at hflight
    rw [hflight] at hid
    rw [step_dials, step_total hledger]
    exact ha id did key bytes stage hmoves hid hpast

lemma GatesOpen.dialsBind (h : GatesOpen w) (a : ObjectAction) : DialsBind w a := by
  rcases a with ⟨id, request⟩ | ⟨id, fault⟩ | ⟨did', dials⟩ | did'
  · trivial
  · rcases fault with _ | _ | _
    · intro did key bytes read hid
      exact gatesPass_promise (h id did key bytes _ hid rfl)
    · trivial
    · trivial
  · trivial
  · trivial

end

/-- **Dials bind while the gates stay open.**  Along every run in which no accepted dial and no
other committed transfer closes the gates on an upload that has passed them, the dials in force
bind every commit. -/
theorem dials_bind_of_open_gates (S : ObjectServer) (acts : List ObjectAction)
    (hopen : Along S.step LeavesGatesOpen ObjectWorld.init acts) :
    ∀ pre a post, acts = pre ++ a :: post → DialsBind (run S.step ObjectWorld.init pre) a := by
  rintro pre a post rfl
  have hinv : GatesOpen (run S.step ObjectWorld.init pre) ∧
      LedgerConsistent (run S.step ObjectWorld.init pre).store := by
    refine run_invariant
      (I := fun w : ObjectWorld => GatesOpen w ∧ LedgerConsistent w.store)
      (fun w a h hw => ⟨h.1.step h.2 hw, h.2.step a⟩) ⟨?_, LedgerConsistent.empty⟩
      (along_append.mp hopen).1
    intro id did key bytes stage hid
    cases hid
  exact hinv.1.dialsBind a

/-! ### Dials between gates and commit -/

/-- The step leaves the gates open for one upload. -/
def leavesOpenFor (w : ObjectWorld) (a : ObjectAction) (id : Nat) : Bool :=
  match w.inFlight id with
  | some (.put did _ bytes stage) =>
      a.request = some id || !stage.pastGates ||
        gatesPass (dialsAfter w did a)
          ((w.store.runningTotals did).totalBytes + committedBytes w did a) bytes.bytes.length
  | _ => true

/-- Only the requests that a run moves can have gates to leave open. -/
lemma along_leavesGatesOpen {S : ObjectServer} {acts : List ObjectAction} {ids : List Nat}
    (hmoved : ∀ a ∈ acts, ∀ i, a.request = some i → i ∈ ids)
    (hids : Along S.step (fun w a => ∀ id ∈ ids, leavesOpenFor w a id = true)
      ObjectWorld.init acts) :
    Along S.step LeavesGatesOpen ObjectWorld.init acts := by
  apply along_of_take
  intro k a hk id did key bytes stage hne hid hpast
  have hmem : id ∈ ids := by
    by_contra hnot
    rw [inFlight_of_not_moved fun b hb heq => hnot (hmoved b (List.mem_of_mem_take hb) id heq)]
      at hid
    cases hid
  obtain ⟨hlt, -⟩ := List.getElem?_eq_some_iff.mp hk
  have hsplit : acts = acts.take k ++ a :: acts.drop (k + 1) := by
    rw [← List.getElem?_eq_some_iff.mp hk |>.2, List.cons_getElem_drop_succ, List.take_append_drop]
  rw [hsplit, along_append, along_cons] at hids
  have hopen := hids.2.1 id hmem
  unfold leavesOpenFor at hopen
  rw [hid] at hopen
  simpa [hne, hpast] using hopen

/-- Two uploads at once, and a ceiling of five cents that is accepted after both pass the gates. -/
def ceilingDuringUploads : List ObjectAction :=
  [.start 1 sampleUpload, .start 2 sampleUpload] ++ (sections 1 4 ++ sections 2 4 ++
    .dial "did:plc:ewvi7nxzyoun6zhxrhs64oiz" { Dials.default with spendCents := some 5 } ::
      (sections 1 2 ++ sections 2 2))

theorem dials_bind_of_open_gates_example :
    ((run abcServer.step ObjectWorld.init ceilingDuringUploads).store.runningTotals
        "did:plc:ewvi7nxzyoun6zhxrhs64oiz").totalBytes = 6 ∧
      ∀ pre a post, ceilingDuringUploads = pre ++ a :: post →
        DialsBind (run abcServer.step ObjectWorld.init pre) a := by
  have hmoved : ∀ a ∈ ceilingDuringUploads, ∀ i, a.request = some i → i ∈ [1, 2] := by
    decide +kernel
  refine ⟨by decide +kernel, ?_⟩
  apply dials_bind_of_open_gates
  exact along_leavesGatesOpen hmoved (by decide +kernel)

/-- The request is an upload for the DID, at its commit. -/
def InFlight.commits (did : String) : InFlight → Bool
  | .put did' _ _ (.commit _) => did' = did
  | _ => false

lemma InFlight.eq_of_commits {did : String} {req : InFlight} (h : req.commits did = true) :
    ∃ key bytes read, req = .put did key bytes (.commit read) := by
  unfold InFlight.commits at h
  split at h
  · obtain rfl := of_decide_eq_true h
    exact ⟨_, _, _, rfl⟩
  · cases h

/-- An upload that has passed its gates, up to its commit; the account then goes into drawdown. -/
def drawdownDuringUpload : List ObjectAction :=
  .start 1 sampleUpload :: sections 1 5 ++
    [.dial "did:plc:ewvi7nxzyoun6zhxrhs64oiz" { Dials.default with accountMode := .drawdown }]

/-- The upload commits although the account is in drawdown. -/
theorem upload_commits_in_drawdown :
    ¬ ∀ (S : ObjectServer) (acts pre : List ObjectAction) (a : ObjectAction)
        (post : List ObjectAction), acts = pre ++ a :: post →
      DialsBind (run S.step ObjectWorld.init pre) a := by
  intro h
  have hbind := h abcServer _ drawdownDuringUpload (.advance 1 .none) [] rfl
  have hcommit : ((run abcServer.step ObjectWorld.init drawdownDuringUpload).inFlight 1).any
      (InFlight.commits "did:plc:ewvi7nxzyoun6zhxrhs64oiz") = true := by decide +kernel
  have hmode : ((run abcServer.step ObjectWorld.init drawdownDuringUpload).store.dials
      "did:plc:ewvi7nxzyoun6zhxrhs64oiz").accountMode = .drawdown := by decide +kernel
  rcases hreq : (run abcServer.step ObjectWorld.init drawdownDuringUpload).inFlight 1 with
    _ | req
  · rw [hreq] at hcommit
    cases hcommit
  · rw [hreq, Option.any_some] at hcommit
    obtain ⟨key, bytes, read, rfl⟩ := InFlight.eq_of_commits hcommit
    exact (hbind _ key bytes read hreq).1 hmode

end Ciss
