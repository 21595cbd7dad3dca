import Ciss.Server.Metering
import Ciss.Server.StoredBytes

/-!
# Retrying a failed upload

An upload writes its blob, counts the bytes of a new blob and appends its receipt in three steps
that can fail on their own.  `putAlone` is an upload handled alone, with one of its operations
failing; `opPutObject` is the same in one piece, as the source has it, and `putAlone_eq` says that
the sections compute it.

A failure after the blob write leaves the blob behind, and the retry is taken for a duplicate.  If
the bytes were not counted before the failure, they never are (`retry_counts_nothing`).
`retry_agrees_iff` says that this is the only trace a failed attempt leaves: after a successful
retry, blobs, stored bytes and totals are those of an upload that succeeds at once, unless a new
blob that is not empty was written and its bytes were not counted.
-/

namespace Ciss

/-! ## An upload handled alone -/

/-- The operations of an upload that can fail for outside reasons, in the order they are made. -/
inductive PutOp where
  | dialRead
  | usageRead
  | atRestRead
  | blobWrite
  | totalsRead
  | storedBytesUpdate
  | receiptAppend
  deriving DecidableEq, Repr

/-- The fault of a section in which the given operation fails. -/
def PutOp.faultAt : PutOp → PutStage → Fault
  | .dialRead, .gates => .early
  | .usageRead, .usage => .early
  | .atRestRead, .quota _ => .early
  | .blobWrite, .write _ => .early
  | .totalsRead, .commit _ => .early
  -- only a new blob's bytes are counted
  | .storedBytesUpdate, .commit (some _) => .early
  | .receiptAppend, .commit _ => .late
  | _, _ => .none

/-- The fault of a section when `fails` is the operation that fails, if any. -/
def faultAt (fails : Option PutOp) (stage : PutStage) : Fault :=
  fails.elim .none fun op => op.faultAt stage

namespace ObjectServer

variable (S : ObjectServer)

/-- One section of request `id`. -/
def advanceAlone (fails : Option PutOp) (id : Nat) (w : ObjectWorld) : ObjectWorld :=
  match w.inFlight id with
  | some (.put _ _ _ stage) => S.step w (.advance id (faultAt fails stage))
  | _ => w

/-- An upload handled alone, from its start to its answer: it has at most six sections. -/
def putAlone (fails : Option PutOp) (id : Nat) (did key : String) (bytes : Slice)
    (w : ObjectWorld) : ObjectWorld :=
  (S.advanceAlone fails id)^[6] (S.step w (.start id (.put did key bytes)))

/-- `op_put_object` from its blob write on. -/
def writeAndCommit (fails : Option PutOp) (s : MeterStore) (blobs : Blobs) (did : String)
    (bytes : Slice) (read : Option Usage) : MeterStore × Blobs × Except ServerError OpOutcome :=
  let cid := S.crypto.sha256Hex bytes.bytes
  if fails = some .blobWrite then (s, blobs, .error .blob)
  else
    let (s', result) := S.commitPut s (faultAt fails (.commit read)) did cid bytes.bytes.length
      read.isSome
    (s', Function.update blobs (did, cid) (some bytes.bytes), result)

/-- `op_put_object`. -/
def opPutObject (fails : Option PutOp) (s : MeterStore) (blobs : Blobs) (did : String)
    (bytes : Slice) : MeterStore × Blobs × Except ServerError OpOutcome :=
  let boundary := bytes.bytes.length
  if fails = some .dialRead then (s, blobs, .error (.persist .sqlite))
  else
    match dialGates s did boundary with
    | .error e => (s, blobs, .error e)
    | .ok () =>
        if (blobs (did, S.crypto.sha256Hex bytes.bytes)).isSome then
          S.writeAndCommit fails s blobs did bytes none
        else if fails = some .usageRead then (s, blobs, .error (.persist .sqlite))
        else
          match readUsage S.limits s did boundary with
          | .error e => (s, blobs, .error e)
          | .ok read =>
              if fails = some .atRestRead then (s, blobs, .error (.persist .sqlite))
              else
                match checkDidQuota S.limits s did read boundary with
                | .error e => (s, blobs, .error e)
                | .ok () => S.writeAndCommit fails s blobs did bytes (some read)

end ObjectServer

/-! ## The sections compute it -/

section

variable {S : ObjectServer} {s s' : MeterStore} {blobs blobs' : Blobs} {w : ObjectWorld}
  {fails : Option PutOp} {id n : Nat} {did key : String} {bytes : Slice} {stage : PutStage}

/-- The world once request `id` is answered. -/
def ObjectWorld.answered (w : ObjectWorld) (id : Nat)
    (r : MeterStore × Blobs × Except ServerError OpOutcome) : ObjectWorld :=
  ⟨r.1, r.2.1, Function.update w.inFlight id none, w.answers ++ [(id, r.2.2)]⟩

/-- The world with request `id` at another section. -/
def ObjectWorld.movedTo (w : ObjectWorld) (s : MeterStore) (blobs : Blobs) (id : Nat)
    (req : InFlight) : ObjectWorld :=
  ⟨s, blobs, Function.update w.inFlight id (some req), w.answers⟩

lemma movedTo_movedTo {req req' : InFlight} :
    (w.movedTo s blobs id req).movedTo s' blobs' id req' = w.movedTo s' blobs' id req' := by
  unfold ObjectWorld.movedTo
  rw [Function.update_idem]

lemma movedTo_answered {req : InFlight} {r : MeterStore × Blobs × Except ServerError OpOutcome} :
    (w.movedTo s blobs id req).answered id r = w.answered id r := by
  unfold ObjectWorld.movedTo ObjectWorld.answered
  rw [Function.update_idem]

lemma advanceAlone_done (h : w.inFlight id = none) : (S.advanceAlone fails id)^[n] w = w := by
  apply Function.iterate_fixed
  unfold ObjectServer.advanceAlone
  rw [h]

/-- A section that answers ends the upload. -/
lemma advanceAlone_answer {result : Except ServerError OpOutcome}
    (hsec : S.runSection s blobs (faultAt fails stage) (.put did key bytes stage) =
      (s', blobs', .answer result)) :
    (S.advanceAlone fails id)^[n + 1] (w.movedTo s blobs id (.put did key bytes stage)) =
      w.answered id (s', blobs', result) := by
  have hreq : (w.movedTo s blobs id (.put did key bytes stage)).inFlight id =
      some (.put did key bytes stage) := Function.update_self ..
  have hone : S.advanceAlone fails id (w.movedTo s blobs id (.put did key bytes stage)) =
      w.answered id (s', blobs', result) := by
    unfold ObjectServer.advanceAlone
    rw [hreq]
    simp only [ObjectServer.step, hreq]
    rw [show (w.movedTo s blobs id (.put did key bytes stage)).store = s from rfl,
      show (w.movedTo s blobs id (.put did key bytes stage)).blobs = blobs from rfl, hsec]
    show (w.movedTo s blobs id (.put did key bytes stage)).answered id (s', blobs', result) = _
    exact movedTo_answered
  rw [Function.iterate_succ_apply, hone]
  exact advanceAlone_done (Function.update_self ..)

/-- A section that goes on leaves the rest of the upload to do. -/
lemma advanceAlone_continue {req : InFlight}
    (hsec : S.runSection s blobs (faultAt fails stage) (.put did key bytes stage) =
      (s', blobs', .continue req)) :
    (S.advanceAlone fails id)^[n + 1] (w.movedTo s blobs id (.put did key bytes stage)) =
      (S.advanceAlone fails id)^[n] (w.movedTo s' blobs' id req) := by
  have hreq : (w.movedTo s blobs id (.put did key bytes stage)).inFlight id =
      some (.put did key bytes stage) := Function.update_self ..
  have hone : S.advanceAlone fails id (w.movedTo s blobs id (.put did key bytes stage)) =
      w.movedTo s' blobs' id req := by
    unfold ObjectServer.advanceAlone
    rw [hreq]
    simp only [ObjectServer.step, hreq]
    rw [show (w.movedTo s blobs id (.put did key bytes stage)).store = s from rfl,
      show (w.movedTo s blobs id (.put did key bytes stage)).blobs = blobs from rfl, hsec]
    exact movedTo_movedTo
  rw [Function.iterate_succ_apply, hone]

/-- The one operation of a section before the commit. -/
def PutStage.onlyOp : PutStage → Option PutOp
  | .gates => some .dialRead
  | .usage => some .usageRead
  | .quota _ => some .atRestRead
  | .write _ => some .blobWrite
  | .has | .commit _ => none

/-- A section fails only if its own operation does. -/
lemma faultAt_of_onlyOp {op : PutOp} (hop : stage.onlyOp = some op) (hfails : fails ≠ some op) :
    faultAt fails stage = .none := by
  rcases fails with _ | failing
  · rfl
  · have hne : failing ≠ op := fun heq => hfails (by rw [heq])
    rcases stage with _ | _ | _ | read | read | read
    all_goals cases hop
    all_goals
      rcases failing with _ | _ | _ | _ | _ | _ | _
      all_goals first | rfl | exact absurd rfl hne

/-- The last two sections of an upload. -/
lemma advanceAlone_write (read : Option Usage) :
    (S.advanceAlone fails id)^[n + 2] (w.movedTo s blobs id (.put did key bytes (.write read))) =
      w.answered id (S.writeAndCommit fails s blobs did bytes read) := by
  unfold ObjectServer.writeAndCommit
  by_cases hwrite : fails = some .blobWrite
  · rw [if_pos hwrite]
    apply advanceAlone_answer
    rw [hwrite]
    rfl
  · rw [if_neg hwrite]
    have hfault : faultAt fails (.write read) = .none := faultAt_of_onlyOp rfl hwrite
    have hsec : S.runSection s blobs (faultAt fails (.write read))
        (.put did key bytes (.write read)) =
        (s, Function.update blobs (did, S.crypto.sha256Hex bytes.bytes) (some bytes.bytes),
          .continue (.put did key bytes (.commit read))) := by
      rw [hfault]
      simp [ObjectServer.runSection]
    rw [advanceAlone_continue hsec]
    apply advanceAlone_answer
    rfl

/-- The sections of a new blob between `blobs.has` and the write. -/
lemma advanceAlone_usage (hdial : dialGates s did bytes.bytes.length = .ok ())
    (hfails : fails ≠ some .dialRead)
    (hnew : (blobs (did, S.crypto.sha256Hex bytes.bytes)).isSome = false) :
    (S.advanceAlone fails id)^[n + 4] (w.movedTo s blobs id (.put did key bytes .usage)) =
      w.answered id (S.opPutObject fails s blobs did bytes) := by
  unfold ObjectServer.opPutObject
  dsimp only
  rw [if_neg hfails, hdial]
  dsimp only
  rw [if_neg (by simp [hnew])]
  by_cases husage : fails = some .usageRead
  · rw [if_pos husage]
    apply advanceAlone_answer
    rw [husage]
    rfl
  rw [if_neg husage]
  have hfault : faultAt fails .usage = .none := faultAt_of_onlyOp rfl husage
  rcases hread : readUsage S.limits s did bytes.bytes.length with e | read
  · apply advanceAlone_answer
    rw [hfault]
    simp [ObjectServer.runSection, hread]
  have hsec : S.runSection s blobs (faultAt fails .usage) (.put did key bytes .usage) =
      (s, blobs, .continue (.put did key bytes (.quota read))) := by
    rw [hfault]
    simp [ObjectServer.runSection, hread]
  rw [advanceAlone_continue hsec]
  dsimp only
  by_cases hrest : fails = some .atRestRead
  · rw [if_pos hrest]
    apply advanceAlone_answer
    rw [hrest]
    rfl
  rw [if_neg hrest]
  have hfault : faultAt fails (.quota read) = .none := faultAt_of_onlyOp rfl hrest
  rcases hquota : checkDidQuota S.limits s did read bytes.bytes.length with e | _
  · apply advanceAlone_answer
    rw [hfault]
    simp [ObjectServer.runSection, hquota]
  have hsec : S.runSection s blobs (faultAt fails (.quota read)) (.put did key bytes (.quota read)) =
      (s, blobs, .continue (.put did key bytes (.write (some read)))) := by
    rw [hfault]
    simp [ObjectServer.runSection, hquota]
  rw [advanceAlone_continue hsec]
  exact advanceAlone_write (some read)

/-- **The sections compute `op_put_object`.**  An upload handled alone is answered, and leaves the
tables and blobs that the function leaves. -/
lemma putAlone_eq (hfree : w.inFlight id = none) :
    S.putAlone fails id did key bytes w =
      w.answered id (S.opPutObject fails w.store w.blobs did bytes) := by
  have hstart : S.step w (.start id (.put did key bytes)) =
      w.movedTo w.store w.blobs id (.put did key bytes .gates) := by
    simp only [ObjectServer.step, hfree]
    rfl
  unfold ObjectServer.putAlone
  rw [hstart]
  by_cases hgates : fails = some .dialRead
  · unfold ObjectServer.opPutObject
    rw [if_pos hgates]
    apply advanceAlone_answer
    rw [hgates]
    rfl
  have hfault : faultAt fails .gates = .none := faultAt_of_onlyOp rfl hgates
  rcases hdial : dialGates w.store did bytes.bytes.length with e | _
  · unfold ObjectServer.opPutObject
    dsimp only
    rw [if_neg hgates, hdial]
    apply advanceAlone_answer
    rw [hfault]
    simp [ObjectServer.runSection, hdial]
  have hsec : S.runSection w.store w.blobs (faultAt fails .gates) (.put did key bytes .gates) =
      (w.store, w.blobs, .continue (.put did key bytes .has)) := by
    rw [hfault]
    simp [ObjectServer.runSection, hdial]
  rw [advanceAlone_continue hsec]
  rcases hblob : w.blobs (did, S.crypto.sha256Hex bytes.bytes) with _ | data
  · have hsec : S.runSection w.store w.blobs (faultAt fails .has) (.put did key bytes .has) =
        (w.store, w.blobs, .continue (.put did key bytes .usage)) := by
      simp [ObjectServer.runSection, hblob]
    rw [advanceAlone_continue hsec]
    exact advanceAlone_usage hdial hgates (by rw [hblob]; rfl)
  · have hsec : S.runSection w.store w.blobs (faultAt fails .has) (.put did key bytes .has) =
        (w.store, w.blobs, .continue (.put did key bytes (.write none))) := by
      simp [ObjectServer.runSection, hblob]
    rw [advanceAlone_continue hsec, advanceAlone_write]
    unfold ObjectServer.opPutObject
    dsimp only
    rw [if_neg hgates, hdial]
    dsimp only
    rw [if_pos (by rw [hblob]; rfl)]

end

/-! ## What a failed attempt leaves -/

/-- The blob of an upload is not stored yet. -/
def isNewStore (S : ObjectServer) (blobs : Blobs) (did : String) (bytes : Slice) : Bool :=
  (blobs (did, S.crypto.sha256Hex bytes.bytes)).isNone

/-- The checks of an upload before its blob write. -/
def Admitted (S : ObjectServer) (s : MeterStore) (blobs : Blobs) (did : String) (bytes : Slice) :
    Prop :=
  dialGates s did bytes.bytes.length = .ok () ∧
    (isNewStore S blobs did bytes = true → ∃ read,
      readUsage S.limits s did bytes.bytes.length = .ok read ∧
        checkDidQuota S.limits s did read bytes.bytes.length = .ok ())

/-- The store once the bytes of a new blob are counted. -/
def countNew (S : ObjectServer) (s : MeterStore) (blobs : Blobs) (did : String) (bytes : Slice) :
    MeterStore :=
  if isNewStore S blobs did bytes then s.addStoredBytes did bytes.bytes.length else s

/-- The blobs once an upload has written its own. -/
def blobWritten (S : ObjectServer) (blobs : Blobs) (did : String) (bytes : Slice) : Blobs :=
  Function.update blobs (did, S.crypto.sha256Hex bytes.bytes) (some bytes.bytes)

section

variable {S : ObjectServer} {s s' : MeterStore} {blobs blobs' : Blobs} {op : PutOp}
  {did : String} {bytes : Slice}

/-- An upload that is not admitted is refused before it changes anything. -/
lemma opPutObject_of_not_admitted (fails : Option PutOp) (h : ¬ Admitted S s blobs did bytes) :
    ∃ e, S.opPutObject fails s blobs did bytes = (s, blobs, .error e) := by
  unfold Admitted isNewStore at h
  unfold ObjectServer.opPutObject
  by_cases hfirst : fails = some .dialRead
  · exact ⟨_, if_pos hfirst⟩
  rw [if_neg hfirst]
  rcases hdial : dialGates s did bytes.bytes.length with e | _
  · exact ⟨e, rfl⟩
  dsimp only
  by_cases hblob : (blobs (did, S.crypto.sha256Hex bytes.bytes)).isSome = true
  · exact absurd ⟨hdial, fun hnone => by simp_all⟩ h
  rw [if_neg hblob]
  by_cases husage : fails = some .usageRead
  · exact ⟨_, if_pos husage⟩
  rw [if_neg husage]
  rcases hread : readUsage S.limits s did bytes.bytes.length with e | read
  · exact ⟨e, rfl⟩
  dsimp only
  by_cases hrest : fails = some .atRestRead
  · exact ⟨_, if_pos hrest⟩
  rw [if_neg hrest]
  rcases hquota : checkDidQuota S.limits s did read bytes.bytes.length with e | _
  · exact ⟨e, rfl⟩
  · exact absurd ⟨hdial, fun _ => ⟨read, hread, hquota⟩⟩ h

/-- An admitted upload fails at a read, or goes on to its blob write. -/
lemma opPutObject_of_admitted (fails : Option PutOp) (h : Admitted S s blobs did bytes) :
    (fails = some .dialRead ∨ fails = some .usageRead ∨ fails = some .atRestRead) ∧
        (∃ e, S.opPutObject fails s blobs did bytes = (s, blobs, .error e)) ∨
      ∃ read : Option Usage, read.isSome = isNewStore S blobs did bytes ∧
        S.opPutObject fails s blobs did bytes =
          S.writeAndCommit fails s blobs did bytes read := by
  obtain ⟨hdial, hnew⟩ := h
  unfold isNewStore at hnew ⊢
  unfold ObjectServer.opPutObject
  by_cases hfirst : fails = some .dialRead
  · exact Or.inl ⟨Or.inl hfirst, _, if_pos hfirst⟩
  rw [if_neg hfirst, hdial]
  dsimp only
  by_cases hblob : (blobs (did, S.crypto.sha256Hex bytes.bytes)).isSome = true
  · refine Or.inr ⟨none, ?_, if_pos hblob⟩
    rw [Option.isNone_eq_false_iff.mpr hblob]
    rfl
  have hnone : (blobs (did, S.crypto.sha256Hex bytes.bytes)).isNone = true := by
    simpa using hblob
  rw [if_neg hblob]
  by_cases husage : fails = some .usageRead
  · exact Or.inl ⟨Or.inr (Or.inl husage), _, if_pos husage⟩
  obtain ⟨read, hread, hquota⟩ := hnew hnone
  rw [if_neg husage, hread]
  dsimp only
  by_cases hrest : fails = some .atRestRead
  · exact Or.inl ⟨Or.inr (Or.inr hrest), _, if_pos hrest⟩
  rw [if_neg hrest, hquota]
  exact Or.inr ⟨some read, hnone.symm, rfl⟩

/-- An admitted upload in which nothing fails. -/
lemma opPutObject_none_of_admitted (h : Admitted S s blobs did bytes) :
    ∃ out, S.opPutObject none s blobs did bytes =
      ((countNew S s blobs did bytes).appendReceipt did
          (S.receiptFor s .upload did (S.crypto.sha256Hex bytes.bytes) bytes.bytes.length),
        blobWritten S blobs did bytes, .ok out) := by
  rcases opPutObject_of_admitted none h with ⟨hfails, -⟩ | ⟨read, hread, heq⟩
  · rcases hfails with h | h | h
    all_goals cases h
  · rw [heq]
    unfold countNew
    rw [← hread]
    exact ⟨_, rfl⟩

/-- Where an admitted upload fails: before its blob write; after it, with nothing counted; or after
the bytes of a new blob were counted. -/
lemma opPutObject_error {e : ServerError} (h : Admitted S s blobs did bytes)
    (hfail : S.opPutObject (some op) s blobs did bytes = (s', blobs', .error e)) :
    (s' = s ∧ blobs' = blobs ∧ op ≠ .totalsRead ∧ op ≠ .storedBytesUpdate) ∨
      (s' = s ∧ blobs' = blobWritten S blobs did bytes ∧
        (op = .totalsRead ∨ op = .storedBytesUpdate ∧ isNewStore S blobs did bytes = true)) ∨
      (s' = countNew S s blobs did bytes ∧ blobs' = blobWritten S blobs did bytes ∧
        op = .receiptAppend) := by
  rcases opPutObject_of_admitted (some op) h with ⟨hread, e', heq⟩ | ⟨read, hread, heq⟩
  · rw [heq] at hfail
    simp only [Prod.mk.injEq] at hfail
    obtain ⟨rfl, rfl, -⟩ := hfail
    refine Or.inl ⟨rfl, rfl, ?_, ?_⟩
    · rintro rfl
      simp at hread
    · rintro rfl
      simp at hread
  · rw [heq] at hfail
    unfold countNew
    rw [← hread]
    unfold ObjectServer.writeAndCommit at hfail
    dsimp only at hfail
    split_ifs at hfail with hwrite
    · simp only [Prod.mk.injEq] at hfail
      obtain ⟨rfl, rfl, -⟩ := hfail
      cases hwrite
      exact Or.inl ⟨rfl, rfl, by simp, by simp⟩
    · simp only [Prod.mk.injEq] at hfail
      obtain ⟨rfl, rfl, hresult⟩ := hfail
      refine Or.inr ?_
      rcases op with _ | _ | _ | _ | _ | _ | _
      · cases hresult
      · cases hresult
      · cases hresult
      · exact absurd rfl hwrite
      · exact Or.inl ⟨rfl, rfl, Or.inl rfl⟩
      · rcases read with _ | read
        · cases hresult
        · exact Or.inl ⟨rfl, rfl, Or.inr ⟨rfl, rfl⟩⟩
      · exact Or.inr ⟨rfl, rfl, rfl⟩

end

/-! ## A failed attempt and its retry -/

/-- The same blobs, stored bytes and totals. -/
structure SameAccounts (w w' : ObjectWorld) : Prop where
  blobs : w.blobs = w'.blobs
  stored : ∀ did, w.store.didStoredBytes did = w'.store.didStoredBytes did
  totals : ∀ did, w.store.runningTotals did = w'.store.runningTotals did

/-- Between the two worlds, request `id` was answered with `result`. -/
def Answered (w w' : ObjectWorld) (id : Nat) (result : Except ServerError OpOutcome) : Prop :=
  w'.answers = w.answers ++ [(id, result)]

section

variable {S : ObjectServer} {s s' : MeterStore} {blobs : Blobs} {did did' cid : String} {n : Nat}
  {bytes : Slice}

lemma blobWritten_blobWritten :
    blobWritten S (blobWritten S blobs did bytes) did bytes = blobWritten S blobs did bytes := by
  unfold blobWritten
  exact Function.update_idem ..

/-- A blob that has been written is not new. -/
lemma countNew_blobWritten :
    countNew S s (blobWritten S blobs did bytes) did bytes = s := by
  unfold countNew isNewStore blobWritten
  rw [Function.update_self]
  rfl

lemma LedgerConsistent.countNew (h : LedgerConsistent s) :
    LedgerConsistent (countNew S s blobs did bytes) := by
  unfold Ciss.countNew
  split_ifs
  · exact h.addStoredBytes _
  · exact h

lemma cores_countNew : (countNew S s blobs did bytes).cores did' = s.cores did' := by
  unfold countNew
  split_ifs
  · exact MeterStore.cores_addStoredBytes _
  · rfl

lemma dials_countNew : (countNew S s blobs did bytes).dials = s.dials := by
  unfold countNew
  split_ifs
  · exact MeterStore.addStoredBytes_dials _
  · rfl

/-- Two commits of one upload, on ledgers with the same contents, leave the same totals. -/
lemma runningTotals_commit (h : LedgerConsistent s) (h' : LedgerConsistent s')
    (hcores : ∀ did', s'.cores did' = s.cores did') (hdials : s'.dials = s.dials) :
    (s'.appendReceipt did (S.receiptFor s' .upload did cid n)).runningTotals did' =
      (s.appendReceipt did (S.receiptFor s .upload did cid n)).runningTotals did' := by
  have htotals : s'.runningTotals did = s.runningTotals did := by
    rw [h'.runningTotals_eq, h.runningTotals_eq]
    exact congrArg ReceiptTotals.ofCores (hcores did)
  rw [receiptFor_congr htotals hdials]
  have hleft := h'.commit (S := S) false .upload did cid n
  have hright := h.commit (S := S) false .upload did cid n
  rw [receiptFor_congr htotals hdials] at hleft
  simp only [Bool.false_eq_true, if_false] at hleft hright
  rw [hleft.runningTotals_eq, hright.runningTotals_eq]
  refine congrArg ReceiptTotals.ofCores ?_
  by_cases hdid : did = did'
  · subst hdid
    show MeterStore.cores _ _ = MeterStore.cores _ _
    rw [MeterStore.cores_appendReceipt_self, MeterStore.cores_appendReceipt_self, hcores]
  · show MeterStore.cores _ _ = MeterStore.cores _ _
    rw [MeterStore.cores_appendReceipt_other _ hdid, MeterStore.cores_appendReceipt_other _ hdid,
      hcores]

/-- Counting a new blob changes nothing the receipt depends on. -/
lemma receiptFor_countNew (h : LedgerConsistent s) (direction : Direction) :
    S.receiptFor (countNew S s blobs did bytes) direction did cid n =
      S.receiptFor s direction did cid n := by
  apply receiptFor_congr
  · rw [h.countNew.runningTotals_eq, h.runningTotals_eq]
    exact congrArg ReceiptTotals.ofCores cores_countNew
  · exact dials_countNew

lemma didStoredBytes_countNew :
    (countNew S s blobs did bytes).didStoredBytes did' = s.didStoredBytes did' +
      if did' = did ∧ isNewStore S blobs did bytes = true then bytes.bytes.length else 0 := by
  unfold countNew
  by_cases hnew : isNewStore S blobs did bytes = true
  · rw [if_pos hnew, MeterStore.didStoredBytes_addStoredBytes]
    by_cases hdid : did' = did
    · rw [if_pos hdid, if_pos ⟨hdid, hnew⟩]
    · rw [if_neg hdid, if_neg fun h => hdid h.1, Nat.add_zero]
  · rw [if_neg hnew, if_neg fun h => hnew h.2, Nat.add_zero]

/-- Counting a new blob first leaves the totals of a commit alone. -/
lemma runningTotals_commit_countNew (hs : LedgerConsistent s) :
    ((countNew S s blobs did bytes).appendReceipt did
        (S.receiptFor s .upload did cid n)).runningTotals did' =
      (s.appendReceipt did (S.receiptFor s .upload did cid n)).runningTotals did' := by
  have h : ((countNew S s blobs did bytes).appendReceipt did
        (S.receiptFor (countNew S s blobs did bytes) .upload did cid n)).runningTotals did' =
      (s.appendReceipt did (S.receiptFor s .upload did cid n)).runningTotals did' :=
    runningTotals_commit hs hs.countNew (fun _ => cores_countNew) dials_countNew
  rw [receiptFor_countNew hs] at h
  exact h

end

/-- The attempt leaves a new blob that is not empty and whose bytes it has not counted. -/
def LeavesUncounted (S : ObjectServer) (blobs : Blobs) (did : String) (bytes : Slice)
    (op : PutOp) : Prop :=
  (op = .totalsRead ∨ op = .storedBytesUpdate) ∧
    blobs (did, S.crypto.sha256Hex bytes.bytes) = none ∧ bytes.bytes ≠ []

section

variable {S : ObjectServer} {s s₁ s₂ : MeterStore} {blobs blobs₁ blobs₂ : Blobs} {did : String}
  {bytes : Slice} {op : PutOp} {e : ServerError} {out : OpOutcome}

lemma admitted_of_ok (h : S.opPutObject none s blobs did bytes = (s₂, blobs₂, .ok out)) :
    Admitted S s blobs did bytes := by
  by_contra hnot
  obtain ⟨e, heq⟩ := opPutObject_of_not_admitted none hnot
  rw [heq] at h
  cases h

/-- A retry that finds its blob written appends the receipt and counts nothing. -/
lemma opPutObject_blobWritten
    (h : S.opPutObject none s (blobWritten S blobs did bytes) did bytes = (s₂, blobs₂, .ok out)) :
    s₂ = s.appendReceipt did
        (S.receiptFor s .upload did (S.crypto.sha256Hex bytes.bytes) bytes.bytes.length) ∧
      blobs₂ = blobWritten S blobs did bytes := by
  obtain ⟨out', heq⟩ := opPutObject_none_of_admitted (admitted_of_ok h)
  rw [heq, countNew_blobWritten, blobWritten_blobWritten, Prod.mk.injEq, Prod.mk.injEq] at h
  exact ⟨h.1.symm, h.2.1.symm⟩

/-- The stored bytes of a retry after a failure that left the bytes of a new blob uncounted. -/
lemma stored_uncounted_iff {receipt : Receipt}
    (hop : op = .totalsRead ∨ op = .storedBytesUpdate ∧ isNewStore S blobs did bytes = true) :
    (∀ did', (s.appendReceipt did receipt).didStoredBytes did' =
      ((countNew S s blobs did bytes).appendReceipt did receipt).didStoredBytes did') ↔
      ¬ LeavesUncounted S blobs did bytes op := by
  simp only [MeterStore.didStoredBytes_appendReceipt, didStoredBytes_countNew]
  unfold LeavesUncounted isNewStore
  constructor
  · rintro hall ⟨-, hnone, hne⟩
    have hdid := hall did
    rw [hnone] at hdid
    simp only [Option.isNone_none, and_self, if_true] at hdid
    exact hne (List.length_eq_zero_iff.mp (by omega))
  · intro hnot did'
    split_ifs with hnew
    · have hnil : bytes.bytes = [] := by
        by_contra hne
        refine hnot ⟨?_, Option.isNone_iff_eq_none.mp hnew.2, hne⟩
        exact hop.imp_right And.left
      rw [hnil]
      rfl
    · rfl

/-- The retry of an upload against the same upload without the failed attempt. -/
lemma opPutObject_retry (hs : LedgerConsistent s)
    (hfail : S.opPutObject (some op) s blobs did bytes = (s₁, blobs₁, .error e))
    (hretry : S.opPutObject none s₁ blobs₁ did bytes = (s₂, blobs₂, .ok out)) :
    ∃ s₃ out', S.opPutObject none s blobs did bytes = (s₃, blobs₂, .ok out') ∧
      (∀ did', s₂.runningTotals did' = s₃.runningTotals did') ∧
      ((∀ did', s₂.didStoredBytes did' = s₃.didStoredBytes did') ↔
        ¬ LeavesUncounted S blobs did bytes op) := by
  by_cases hadm : Admitted S s blobs did bytes
  swap
  · -- a refusal: the retry is refused as well
    obtain ⟨e', heq⟩ := opPutObject_of_not_admitted (some op) hadm
    rw [heq, Prod.mk.injEq, Prod.mk.injEq] at hfail
    obtain ⟨rfl, rfl, -⟩ := hfail
    exact absurd (admitted_of_ok hretry) hadm
  obtain ⟨out', hdirect⟩ := opPutObject_none_of_admitted hadm
  rcases opPutObject_error hadm hfail with
    ⟨rfl, rfl, htotals, hstored⟩ | ⟨rfl, rfl, hop⟩ | ⟨rfl, rfl, rfl⟩
  · refine ⟨s₂, out, hretry, fun _ => rfl, iff_of_true (fun _ => rfl) ?_⟩
    rintro ⟨h | h, -⟩
    · exact htotals h
    · exact hstored h
  · -- the blob is there and its bytes are not counted
    obtain ⟨rfl, rfl⟩ := opPutObject_blobWritten hretry
    refine ⟨_, out', hdirect, ?_, stored_uncounted_iff hop⟩
    intro did'
    exact (runningTotals_commit_countNew hs).symm
  · -- the bytes were counted before the receipt failed
    obtain ⟨rfl, rfl⟩ := opPutObject_blobWritten hretry
    rw [receiptFor_countNew hs]
    refine ⟨_, out', hdirect, fun _ => rfl, iff_of_true (fun _ => rfl) ?_⟩
    rintro ⟨h | h, -⟩
    · cases h
    · cases h

end

/-- **A retry restores the accounts.**  After every run, for an upload handled alone that fails at
one of its operations and succeeds when it is tried again: the upload succeeds without the failed
attempt as well, and the two leave the same blobs, stored bytes and totals, exactly if the attempt
did not leave a new blob whose bytes it had not counted. -/
theorem retry_agrees_iff (S : ObjectServer) (acts : List ObjectAction) (id : Nat)
    (did key : String) (bytes : Slice) (op : PutOp) (e : ServerError) (out : OpOutcome)
    (hfree : (run S.step ObjectWorld.init acts).inFlight id = none)
    (hfail : Answered (run S.step ObjectWorld.init acts)
      (S.putAlone (some op) id did key bytes (run S.step ObjectWorld.init acts)) id (.error e))
    (hretry : Answered (S.putAlone (some op) id did key bytes (run S.step ObjectWorld.init acts))
      (S.putAlone none id did key bytes
        (S.putAlone (some op) id did key bytes (run S.step ObjectWorld.init acts))) id (.ok out)) :
    (∃ out', Answered (run S.step ObjectWorld.init acts)
      (S.putAlone none id did key bytes (run S.step ObjectWorld.init acts)) id (.ok out')) ∧
    (SameAccounts
        (S.putAlone none id did key bytes
          (S.putAlone (some op) id did key bytes (run S.step ObjectWorld.init acts)))
        (S.putAlone none id did key bytes (run S.step ObjectWorld.init acts)) ↔
      ¬ LeavesUncounted S (run S.step ObjectWorld.init acts).blobs did bytes op) := by
  have hs : LedgerConsistent (run S.step ObjectWorld.init acts).store :=
    run_invariant' (I := fun w : ObjectWorld => LedgerConsistent w.store)
      (fun w a hw => hw.step a) LedgerConsistent.empty
  generalize run S.step ObjectWorld.init acts = w at hs hfree hfail hretry ⊢
  rcases hfirst : S.opPutObject (some op) w.store w.blobs did bytes with ⟨s₁, blobs₁, r₁⟩
  have hattempt : S.putAlone (some op) id did key bytes w = w.answered id (s₁, blobs₁, r₁) := by
    rw [putAlone_eq hfree, hfirst]
  have hagain : S.putAlone none id did key bytes (w.answered id (s₁, blobs₁, r₁)) =
      (w.answered id (s₁, blobs₁, r₁)).answered id (S.opPutObject none s₁ blobs₁ did bytes) :=
    putAlone_eq (Function.update_self ..)
  rw [hattempt] at hfail hretry ⊢
  rw [hagain] at hretry ⊢
  rw [putAlone_eq hfree]
  rcases hsecond : S.opPutObject none s₁ blobs₁ did bytes with ⟨s₂, blobs₂, r₂⟩
  simp only [Answered, ObjectWorld.answered, hsecond, List.append_cancel_left_eq, List.cons.injEq,
    Prod.mk.injEq, true_and, and_true] at hfail hretry ⊢
  obtain ⟨s₃, out', hdirect, htotals, hstored⟩ :=
    opPutObject_retry hs (hfail ▸ hfirst) (hretry ▸ hsecond)
  rw [hdirect]
  refine ⟨⟨out', rfl⟩, ?_⟩
  rw [← hstored]
  exact ⟨fun h => h.stored, fun h => ⟨rfl, h, htotals⟩⟩

/-! ### One failure and its retry -/

/-- The bytes `abc`. -/
def abcSlice : Slice := ⟨asBytes "abc", abc_fits⟩

/-- The answer to the upload of `abc`. -/
def abcStored : OpOutcome :=
  .stored "ba7816bf8f01cfea414140de5dae2223b00361a396177a9cb410ff61f20015ad" 3 .unilateral
    "859038722f94bce726d5ada92991be904ab1b58b03c3830249e173bf7ca4da88"

/-- A receipt that is not appended: the retry leaves what an upload at once leaves. -/
theorem retry_agrees_iff_example :
    SameAccounts
      (abcServer.putAlone none 1 "did:plc:ewvi7nxzyoun6zhxrhs64oiz" "key" abcSlice
        (abcServer.putAlone (some .receiptAppend) 1 "did:plc:ewvi7nxzyoun6zhxrhs64oiz" "key"
          abcSlice ObjectWorld.init))
      (abcServer.putAlone none 1 "did:plc:ewvi7nxzyoun6zhxrhs64oiz" "key" abcSlice
        ObjectWorld.init) := by
  have hfail : Answered ObjectWorld.init
      (abcServer.putAlone (some .receiptAppend) 1 "did:plc:ewvi7nxzyoun6zhxrhs64oiz" "key"
        abcSlice ObjectWorld.init) 1 (.error (.persist .sqlite)) := by
    unfold Answered
    decide +kernel
  have hretry : Answered
      (abcServer.putAlone (some .receiptAppend) 1 "did:plc:ewvi7nxzyoun6zhxrhs64oiz" "key"
        abcSlice ObjectWorld.init)
      (abcServer.putAlone none 1 "did:plc:ewvi7nxzyoun6zhxrhs64oiz" "key" abcSlice
        (abcServer.putAlone (some .receiptAppend) 1 "did:plc:ewvi7nxzyoun6zhxrhs64oiz" "key"
          abcSlice ObjectWorld.init)) 1 (.ok abcStored) := by
    unfold Answered
    decide +kernel
  refine (retry_agrees_iff abcServer [] 1 "did:plc:ewvi7nxzyoun6zhxrhs64oiz" "key" abcSlice
    .receiptAppend (.persist .sqlite) abcStored rfl hfail hretry).2.mpr ?_
  rintro ⟨h | h, -⟩
  · cases h
  · cases h

/-- Bytes that are not counted before the failure are not counted by the retry. -/
theorem retry_counts_nothing :
    ¬ ∀ (S : ObjectServer) (acts : List ObjectAction) (id : Nat) (did key : String)
        (bytes : Slice) (op : PutOp) (e : ServerError) (out : OpOutcome),
      (run S.step ObjectWorld.init acts).inFlight id = none →
      Answered (run S.step ObjectWorld.init acts)
        (S.putAlone (some op) id did key bytes (run S.step ObjectWorld.init acts)) id (.error e) →
      Answered (S.putAlone (some op) id did key bytes (run S.step ObjectWorld.init acts))
        (S.putAlone none id did key bytes
          (S.putAlone (some op) id did key bytes (run S.step ObjectWorld.init acts))) id
        (.ok out) →
      SameAccounts
        (S.putAlone none id did key bytes
          (S.putAlone (some op) id did key bytes (run S.step ObjectWorld.init acts)))
        (S.putAlone none id did key bytes (run S.step ObjectWorld.init acts)) := by
  intro h
  have hsame := h abcServer [] 1 "did:plc:ewvi7nxzyoun6zhxrhs64oiz" "key" abcSlice
    .storedBytesUpdate (.persist .sqlite) abcStored rfl
    (by unfold Answered; decide +kernel) (by unfold Answered; decide +kernel)
  have hstored := hsame.stored "did:plc:ewvi7nxzyoun6zhxrhs64oiz"
  exact absurd hstored (by decide +kernel)

end Ciss
