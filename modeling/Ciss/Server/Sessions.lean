import Ciss.Server.Metering
import Ciss.Server.Reads

/-!
# Whole sessions of reads

One refused read tells its caller nothing; this module says the same of any number of reads, refused
and granted ones in any order.  A granted read is not free of effects: it appends a receipt to the
ledger of the DID it reads from, with that DID's running total.

The two servers are compared by `Unseen`: they differ in the objects a caller may not read, and in
the owner's ledger as far as those objects and its running totals go.  One read keeps the relation
and is answered alike (`Unseen.dispatch`); the unwinding rule makes it a statement about sessions.
-/

namespace Ciss

/-- Two states that differ in hidden objects, with the same dials and with consistent ledgers. -/
structure Unseen (owner : String) (hidden : Set String) [DecidablePred (· ∈ hidden)]
    (a b : AppState) : Prop extends DifferInObjects owner hidden a b where
  dials : a.meter.dials = b.meter.dials
  consistent_left : LedgerConsistent a.meter
  consistent_right : LedgerConsistent b.meter

lemma uploadCids_concat_download {receipts : List Receipt} {r : Receipt}
    (h : r.core.direction = .download) : uploadCids (receipts ++ [r]) = uploadCids receipts := by
  unfold uploadCids
  rw [List.filter_append]
  simp [h]

section

variable {S : ReadServer} {a b : AppState} {caller : Option String} {did cid owner : String}
variable {hidden : Set String} [DecidablePred (· ∈ hidden)]

lemma Unseen.runningTotals (h : Unseen owner hidden a b) (hdid : did ≠ owner) :
    a.meter.runningTotals did = b.meter.runningTotals did := by
  rw [h.consistent_left.runningTotals_eq, h.consistent_right.runningTotals_eq]
  unfold MeterStore.sumReceipts
  rw [h.receipts did hdid]

lemma distinctUploads_appendReceipt {st : AppState} {r : Receipt}
    (hr : r.core.direction = .download) (did' : String) :
    ({ st with meter := st.meter.appendReceipt did r } : AppState).distinctUploads did' =
      st.distinctUploads did' := by
  unfold AppState.distinctUploads
  by_cases hdid : did = did'
  · rw [← hdid, MeterStore.loadReceipts_appendReceipt_self, uploadCids_concat_download hr]
  · rw [MeterStore.loadReceipts_appendReceipt_other r hdid]

/-- A download that both servers record keeps them related. -/
lemma Unseen.recordDownload (h : Unseen owner hidden a b) (S : ObjectServer) (boundary : Nat) :
    Unseen owner hidden
      { a with meter := a.meter.appendReceipt did (S.receiptFor a.meter .download did cid boundary) }
      { b with meter := b.meter.appendReceipt did (S.receiptFor b.meter .download did cid boundary) }
      where
  assertion := h.assertion
  blobs := h.blobs
  receipts := by
    intro did' hne
    dsimp only
    by_cases hdid : did = did'
    · subst hdid
      rw [MeterStore.loadReceipts_appendReceipt_self, MeterStore.loadReceipts_appendReceipt_self,
        h.receipts did hne, receiptFor_congr (h.runningTotals hne) h.dials]
    · rw [MeterStore.loadReceipts_appendReceipt_other _ hdid,
        MeterStore.loadReceipts_appendReceipt_other _ hdid, h.receipts did' hne]
  uploads := by
    rw [distinctUploads_appendReceipt rfl, distinctUploads_appendReceipt rfl]
    exact h.uploads
  dials := by
    simp only [MeterStore.appendReceipt_dials]
    exact h.dials
  consistent_left := h.consistent_left.commit false .download did cid boundary
  consistent_right := h.consistent_right.commit false .download did cid boundary

lemma dispatch_unauthorized {st : AppState} {op : ReadOp} {e : ServerError}
    (h : authorize caller op = .error e) : S.dispatch st caller op = (st, .error e) := by
  simp only [ReadServer.dispatch, h]

lemma authorize_getMeter_refused (h : caller ≠ some did) :
    ∃ e, authorize caller (.getMeter did) = .error e := by
  rcases caller with _ | c
  · exact ⟨.unauthorized, rfl⟩
  · have hc : c ≠ did := fun hc => h (by rw [hc])
    exact ⟨.forbidden, if_neg hc⟩

lemma dispatch_getMeter_owner {st : AppState} :
    S.dispatch st (some did) (.getMeter did) = (st, .ok (ReadServer.opGetMeter st did)) := by
  have hauth : authorize (some did) (.getMeter did) = .ok () := if_pos rfl
  simp only [ReadServer.dispatch, hauth]
  rfl

lemma dispatch_assertion {st : AppState} {op : ReadOp} :
    (S.dispatch st caller op).1.assertion = st.assertion := by
  unfold ReadServer.dispatch
  split
  · rfl
  · split
    · rfl
    · rcases op with ⟨did, cid⟩ | did | did | ⟨did, kind, subkey⟩
      · simp only [ReadServer.dispatchOp, ReadServer.opGetObject]
        split
        · rfl
        · split_ifs <;> rfl
      · rfl
      · rfl
      · rfl

lemma Unseen.opGetObject (h : Unseen owner hidden a b) (hvis : ¬ (did = owner ∧ cid ∈ hidden)) :
    Unseen owner hidden (S.opGetObject a did cid).1 (S.opGetObject b did cid).1 ∧
      (S.opGetObject a did cid).2 = (S.opGetObject b did cid).2 := by
  unfold ReadServer.opGetObject
  rw [h.blobs did cid hvis]
  rcases b.blobs (did, cid) with _ | data
  · exact ⟨h, rfl⟩
  · dsimp only
    by_cases hlen : data.length > maxObjectBytes
    · rw [if_pos hlen, if_pos hlen]
      exact ⟨h, rfl⟩
    · rw [if_neg hlen, if_neg hlen]
      by_cases hhash : S.objects.crypto.sha256Hex data ≠ cid
      · rw [if_pos hhash, if_pos hhash]
        exact ⟨h, rfl⟩
      · rw [if_neg hhash, if_neg hhash]
        exact ⟨h.recordDownload S.objects data.length, rfl⟩

/-- **One read.**  A caller that is not the owner, and whom no policy of a hidden object admits,
gets the same answer to any read, and the servers stay related. -/
lemma Unseen.dispatch (h : Unseen owner hidden a b) (hcaller : caller ≠ some owner)
    (hrefused : ∀ cid ∈ hidden,
      (S.resolvePolicy a.assertion owner (some cid)).allows caller owner = false) (op : ReadOp) :
    Unseen owner hidden (S.dispatch a caller op).1 (S.dispatch b caller op).1 ∧
      (S.dispatch a caller op).2 = (S.dispatch b caller op).2 := by
  rcases op with ⟨did, cid⟩ | did | did | ⟨did, kind, subkey⟩
  · by_cases hallow : (S.resolvePolicy a.assertion did (some cid)).allows caller did = true
    · have hvis : ¬ (did = owner ∧ cid ∈ hidden) := by
        rintro ⟨rfl, hcid⟩
        rw [hrefused cid hcid] at hallow
        cases hallow
      rw [dispatch_getObject_allowed hallow,
        dispatch_getObject_allowed (by rw [← h.assertion]; exact hallow)]
      exact h.opGetObject hvis
    · have ha := Bool.eq_false_iff.mpr hallow
      have hb := ha
      rw [h.assertion] at hb
      rw [dispatch_getObject_refused ha, dispatch_getObject_refused hb]
      exact ⟨h, rfl⟩
  · by_cases hown : caller = some did
    · have hdid : did ≠ owner := by
        rintro rfl
        exact hcaller hown
      subst hown
      rw [dispatch_getMeter_owner, dispatch_getMeter_owner]
      refine ⟨h, ?_⟩
      unfold ReadServer.opGetMeter
      rw [h.runningTotals hdid]
    · obtain ⟨e, he⟩ := authorize_getMeter_refused hown
      rw [dispatch_unauthorized he, dispatch_unauthorized he]
      exact ⟨h, rfl⟩
  · rw [dispatch_listBlobs, dispatch_listBlobs]
    refine ⟨h, ?_⟩
    by_cases hdid : did = owner
    · subst hdid
      rw [h.toDifferInObjects.gatedCids hrefused]
    · rw [gatedCids_eq, gatedCids_eq, h.assertion]
      unfold AppState.distinctUploads
      rw [h.receipts did hdid]
  · rw [dispatch_getAssertion, dispatch_getAssertion]
    exact ⟨h, opGetAssertion_congr h.assertion⟩

end

/-- **A session tells nothing.**  For every sequence of reads by a caller that is not the owner and
whom no policy of a hidden object admits, two servers that differ in hidden objects give the same
answers. -/
theorem session_answers_agree (S : ReadServer) {owner : String} {hidden : Set String}
    [DecidablePred (· ∈ hidden)] {a b : AppState} (hab : Unseen owner hidden a b)
    {caller : Option String} (hcaller : caller ≠ some owner)
    (hrefused : ∀ cid ∈ hidden,
      (S.resolvePolicy a.assertion owner (some cid)).allows caller owner = false)
    (ops : List ReadOp) :
    answersTo (fun st op => S.dispatch st caller op) a ops =
      answersTo (fun st op => S.dispatch st caller op) b ops := by
  -- no read changes a setting, so the caller stays refused throughout
  have hstep : ∀ s t op,
      Unseen owner hidden s t ∧ s.assertion = a.assertion →
      (Unseen owner hidden (S.dispatch s caller op).1 (S.dispatch t caller op).1 ∧
        (S.dispatch s caller op).1.assertion = a.assertion) ∧
          (S.dispatch s caller op).2 = (S.dispatch t caller op).2 := by
    rintro s t op ⟨hst, hsame⟩
    obtain ⟨hnext, hanswer⟩ := hst.dispatch hcaller (by rw [hsame]; exact hrefused) op
    exact ⟨⟨hnext, dispatch_assertion.trans hsame⟩, hanswer⟩
  exact answersTo_eq_of_unwinding hstep ⟨hab, rfl⟩ ops

end Ciss
