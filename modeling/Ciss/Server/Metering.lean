import Ciss.Server.Objects

/-!
# The ledger invariant over every interleaving

Whatever the order in which the sections of uploads, downloads and countersigns run, the ledger
stays consistent: each receipt of a DID signs the running total of the bytes up to and including
it, and the cached totals are those of a scan (`receipt_ledger_invariant`).  A cached row that is
dropped at any point is rebuilt to the same four figures.

The step lemma goes through `runSection_store`, which says everything a section can do to the
tables; the invariant of the tables themselves is `LedgerConsistent`.
-/

namespace Ciss

section

variable {S : ObjectServer} {s : MeterStore} {w : ObjectWorld}

/-- A commit's receipt continues the ledger, also when the blob's bytes were counted first. -/
lemma LedgerConsistent.commit (h : LedgerConsistent s) (isNew : Bool) (direction : Direction)
    (did cid : String) (boundary : Nat) :
    LedgerConsistent ((if isNew then s.addStoredBytes did boundary else s).appendReceipt did
      (S.receiptFor s direction did cid boundary)) := by
  obtain ⟨hbytes, htotal⟩ := receiptFor_core S s direction did cid boundary
  have hs' : LedgerConsistent (if isNew then s.addStoredBytes did boundary else s) := by
    split_ifs
    · exact h.addStoredBytes boundary
    · exact h
  have hsum : (if isNew then s.addStoredBytes did boundary else s).runningTotals did =
      s.runningTotals did := by
    rw [hs'.runningTotals_eq, h.runningTotals_eq]
    split_ifs
    · exact congrArg ReceiptTotals.ofCores (MeterStore.cores_addStoredBytes boundary)
    · rfl
  refine hs'.appendReceipt ?_
  rw [htotal, hbytes, hsum]

lemma LedgerConsistent.runSection (h : LedgerConsistent s) (blobs : Blobs) (fault : Fault)
    (req : InFlight) : LedgerConsistent (S.runSection s blobs fault req).1 := by
  rcases runSection_store S s blobs fault req with
    heq | ⟨did, key, bytes, read, -, heq⟩ | ⟨did, key, bytes, read, cid, -, heq⟩ |
    ⟨did, cid, data, -, heq⟩ | ⟨did, contentHash, payload, sig, -, heq⟩
  · rw [heq]
    exact h
  · rw [heq]
    exact h.addStoredBytes _
  · rw [heq]
    exact h.commit read.isSome .upload did cid _
  · rw [heq]
    exact h.commit false .download did cid _
  · rw [heq]
    exact h.countersignReceipt contentHash did sig

lemma LedgerConsistent.dropTotalRow (h : LedgerConsistent s) (did : String) :
    LedgerConsistent (s.dropTotalRow did) := by
  refine h.congr (fun _ => rfl) ?_
  intro row hrow
  exact h.cached row (List.mem_of_mem_filter hrow)

/-- One atomic step keeps the ledger consistent. -/
lemma LedgerConsistent.step (h : LedgerConsistent w.store) (a : ObjectAction) :
    LedgerConsistent (S.step w a).store := by
  rcases a with ⟨id, request⟩ | ⟨id, fault⟩ | ⟨did, dials⟩ | did
  · rw [step_start_store]
    exact h
  · rcases step_advance_store S w id fault with
      heq | ⟨req, -, heq⟩
    · rw [heq]
      exact h
    · rw [heq]
      exact h.runSection w.blobs fault req
  · exact h.congr (fun _ => rfl) h.cached
  · exact h.dropTotalRow did

end

/-- **The receipt ledger invariant.**  After every interleaving, for every DID: the `i`-th receipt
signs the sum of the bytes of the first `i`, the cached totals are those of a scan, and dropping
the cached row, or rebuilding it, changes none of the four figures. -/
theorem receipt_ledger_invariant (S : ObjectServer) (acts : List ObjectAction) (did : String) :
    (∀ i receipt,
      ((run S.step ObjectWorld.init acts).store.loadReceipts did)[i]? = some receipt →
      receipt.core.runningTotal =
        ((((run S.step ObjectWorld.init acts).store.loadReceipts did).take (i + 1)).map
          fun r => r.core.bytes).sum) ∧
    (run S.step ObjectWorld.init acts).store.runningTotals did =
      (run S.step ObjectWorld.init acts).store.sumReceipts did ∧
    ((run S.step ObjectWorld.init acts).store.dropTotalRow did).runningTotals did =
      (run S.step ObjectWorld.init acts).store.runningTotals did ∧
    (((run S.step ObjectWorld.init acts).store.dropTotalRow did).ensureTotalRow did).runningTotals
        did =
      (run S.step ObjectWorld.init acts).store.runningTotals did := by
  have h : LedgerConsistent (run S.step ObjectWorld.init acts).store :=
    run_invariant' (I := fun w : ObjectWorld => LedgerConsistent w.store)
      (fun w a hw => hw.step a) LedgerConsistent.empty
  generalize (run S.step ObjectWorld.init acts).store = s at h ⊢
  have hdrop : (s.dropTotalRow did).sumReceipts did = s.sumReceipts did := rfl
  refine ⟨?_, h.runningTotals_eq did, ?_, ?_⟩
  · intro i receipt hget
    obtain ⟨hi, hreceipt⟩ := List.getElem?_eq_some_iff.mp hget
    have hsplit : s.cores did = ((s.loadReceipts did).take i).map Receipt.core ++
        receipt.core :: ((s.loadReceipts did).drop (i + 1)).map Receipt.core := by
      rw [← List.map_cons, ← List.map_append, ← hreceipt, List.cons_getElem_drop_succ,
        List.take_append_drop]
      rfl
    rw [h.running did _ _ _ hsplit, List.take_add_one, hget]
    simp [Function.comp_def]
  · rw [(h.dropTotalRow did).runningTotals_eq, hdrop, h.runningTotals_eq]
  · have hensure : LedgerConsistent ((s.dropTotalRow did).ensureTotalRow did) := by
      refine (h.dropTotalRow did).congr (fun _ => ?_) ?_
      · simp [MeterStore.cores, MeterStore.loadReceipts]
      · intro row hrow
        rcases MeterStore.ensureTotalRow_mem hrow with hmem | ⟨ht, hd, -⟩
        · exact (h.dropTotalRow did).cached row hmem
        · rw [ht, hd]
    rw [hensure.runningTotals_eq, h.runningTotals_eq]
    unfold MeterStore.sumReceipts MeterStore.loadReceipts
    rw [MeterStore.ensureTotalRow_receipts]
    rfl

end Ciss
