import Ciss.Server.Quota
import Ciss.Sync.Push

/-!
# The spend line

Client and server price a period's spend alike and refuse what would take it past the ceiling, but
the client asks once, for the total of a batch, and the server once for every object, after the
ones before it have been metered.  Prices are rounded down, and a transfer whose price is nothing
more is never refused, even past the ceiling.

`withinLine_iff` is the arithmetic: a total that grows piece by piece stays within the line at every
piece exactly when it does in one step, whatever monotone price it is measured by.
`spend_line_agrees` is the statement about `SpendLedger::check` and the gates of `op_put_object`.
-/

namespace Ciss

/-! ## A total that grows piece by piece -/

section

variable {α : Type*} [LinearOrder α] {price : ℕ → α} {line : α} {total : ℕ} {pieces : List ℕ}

/-- No piece takes the price of the total past both the line and the price it had before. -/
def WithinLine (price : ℕ → α) (line : α) : ℕ → List ℕ → Prop
  | _, [] => True
  | total, n :: pieces =>
      price (total + n) ≤ max line (price total) ∧ WithinLine price line (total + n) pieces

/-- **Piece by piece is all at once.** -/
theorem withinLine_iff (hprice : Monotone price) :
    WithinLine price line total pieces ↔ price (total + pieces.sum) ≤ max line (price total) := by
  induction pieces generalizing total with
  | nil => simp [WithinLine]
  | cons n pieces ih =>
      have hsum : total + (n :: pieces).sum = total + n + pieces.sum := by
        rw [List.sum_cons, Nat.add_assoc]
      have hfirst : price total ≤ price (total + n) := hprice (Nat.le_add_right _ _)
      have hlast : price (total + n) ≤ price (total + n + pieces.sum) :=
        hprice (Nat.le_add_right _ _)
      rw [WithinLine, ih, hsum]
      constructor
      · rintro ⟨hn, hrest⟩
        exact hrest.trans (max_le (le_max_left _ _) hn)
      · intro h
        exact ⟨hlast.trans h, h.trans (max_le_max_left line hfirst)⟩

end

lemma monotone_postageCents : Monotone postageCents := fun _ _ h => Nat.div_le_div_right h

/-! ## What a transfer does to the meter -/

namespace MeterStore

variable {s : MeterStore} {did did' : String}

lemma totalRow_updateTotalRow (f : DidTotal → DidTotal) (hf : ∀ row, (f row).did = row.did) :
    (s.updateTotalRow did f).totalRow did = (s.totalRow did).map f := by
  unfold totalRow updateTotalRow
  induction s.didTotal with
  | nil => rfl
  | cons row rows ih =>
      by_cases hdid : row.did = did
      · simp [hdid, hf]
      · simpa [hdid] using ih

lemma totalRow_ensureTotalRow (s : MeterStore) (did : String) :
    ∃ row, (s.ensureTotalRow did).totalRow did = some row ∧ row.totals = s.runningTotals did := by
  unfold ensureTotalRow runningTotals
  rcases hrow : s.totalRow did with _ | row
  · have hnone : ∀ row ∈ s.didTotal, ¬ row.did = did := by
      simpa [totalRow, List.find?_eq_none] using hrow
    refine ⟨⟨did, (s.sumReceipts did).receiptCount, (s.sumReceipts did).uploadBytes,
      (s.sumReceipts did).downloadBytes, 0, (s.sumReceipts did).drawdownDownloadBytes⟩, ?_, rfl⟩
    have hfind : s.didTotal.find? (fun row => decide (row.did = did)) = none := by
      simpa [List.find?_eq_none] using hnone
    simp [totalRow, List.find?_append, hfind]
  · exact ⟨row, hrow, rfl⟩

lemma runningTotals_addStoredBytes (size : Nat) :
    (s.addStoredBytes did size).runningTotals did = s.runningTotals did := by
  obtain ⟨row, hrow, htotals⟩ := totalRow_ensureTotalRow s did
  have hafter : (s.addStoredBytes did size).totalRow did =
      some { row with storedBytes := row.storedBytes + size } := by
    rw [addStoredBytes, totalRow_updateTotalRow, hrow, Option.map_some]
    exact fun _ => rfl
  rw [← htotals, runningTotals, hafter]
  rfl

lemma runningTotals_appendReceipt (r : Receipt) :
    (s.appendReceipt did r).runningTotals did = (s.runningTotals did).addReceipt r.core := by
  obtain ⟨row, hrow, htotals⟩ := totalRow_ensureTotalRow s did
  rw [← htotals, runningTotals, appendReceipt]
  have hrow' : ({ s.ensureTotalRow did with
      receipts := (s.ensureTotalRow did).receipts ++ [⟨did, r⟩] } : MeterStore).totalRow did =
        some row := hrow
  dsimp only
  rw [totalRow_updateTotalRow, hrow', Option.map_some]
  · dsimp only [DidTotal.totals, ReceiptTotals.addReceipt]
    cases r.core.direction with
    | upload => simp
    | download =>
        by_cases hmode : r.core.accountMode = .drawdown
        · simp [hmode]
        · simp [hmode]
  · exact fun _ => rfl

end MeterStore

lemma commitPut_totalBytes (S : ObjectServer) (s : MeterStore) (did cid : String) (boundary : Nat)
    (isNew : Bool) :
    ((S.commitPut s .none did cid boundary isNew).1.runningTotals did).totalBytes =
      (s.runningTotals did).totalBytes + boundary := by
  have hnew : (if isNew then s.addStoredBytes did boundary else s).runningTotals did =
      s.runningTotals did := by
    cases isNew with
    | false => rfl
    | true => exact MeterStore.runningTotals_addStoredBytes boundary
  rw [ObjectServer.commitPut]
  dsimp only
  rw [MeterStore.runningTotals_appendReceipt, ReceiptTotals.totalBytes_addReceipt, hnew,
    (receiptFor_core S s .upload did cid boundary).1]

lemma commitPut_dials (S : ObjectServer) (s : MeterStore) (did cid : String) (boundary : Nat)
    (isNew : Bool) : (S.commitPut s .none did cid boundary isNew).1.dials = s.dials := by
  rw [ObjectServer.commitPut]
  dsimp only
  rw [MeterStore.appendReceipt_dials]
  cases isNew with
  | false => rfl
  | true => exact MeterStore.addStoredBytes_dials boundary

/-! ## Uploads in a row -/

/-- An object as its upload is gated and committed: its address, its bytes at the boundary, and
whether the blob is new. -/
structure SentObject where
  cid : String
  boundary : Nat
  isNew : Bool
  deriving DecidableEq, Repr

/-- The objects pass the gates one after the other, each committed before the next one is gated. -/
def UploadsPass (S : ObjectServer) (did : String) : MeterStore → List SentObject → Prop
  | _, [] => True
  | s, x :: objects =>
      dialGates s did x.boundary = .ok () ∧
        UploadsPass S did (S.commitPut s .none did x.cid x.boundary x.isNew).1 objects

section

variable {S : ObjectServer} {s : MeterStore} {did : String} {spent : Nat}

/-- Outside drawdown the gates are the spend line. -/
lemma dialGates_eq_ok_iff (hmode : (s.dials did).accountMode ≠ .drawdown)
    (hspent : (s.runningTotals did).totalBytes = (s.dials did).periodBaseline + spent)
    {boundary : Nat} (hfits : spent + boundary < 2 ^ 64) :
    dialGates s did boundary = .ok () ↔
      ∀ ceilingCents, (s.dials did).spendCents = some ceilingCents →
        postageCents (spent + boundary) ≤ max ceilingCents (postageCents spent) := by
  have hperiod : (s.runningTotals did).totalBytes - (s.dials did).periodBaseline = spent := by
    omega
  have hsat : saturatingAdd spent boundary = spent + boundary := by
    rw [saturatingAdd]
    omega
  rw [dialGates]
  dsimp only
  rw [if_neg hmode, hperiod, hsat]
  cases (s.dials did).spendCents with
  | none => simp
  | some ceilingCents =>
      dsimp only
      split_ifs with hover
      · simp only [Option.some.injEq, forall_eq', false_iff, le_max_iff, not_or, not_le]
        exact hover
      · simp only [Option.some.injEq, forall_eq', le_max_iff, true_iff]
        omega

/-- The gates draw the line at every object. -/
lemma uploadsPass_iff (hmode : (s.dials did).accountMode ≠ .drawdown)
    (hspent : (s.runningTotals did).totalBytes = (s.dials did).periodBaseline + spent)
    {objects : List SentObject}
    (hfits : spent + (objects.map SentObject.boundary).sum < 2 ^ 64) :
    UploadsPass S did s objects ↔ ∀ ceilingCents, (s.dials did).spendCents = some ceilingCents →
      WithinLine postageCents ceilingCents spent (objects.map SentObject.boundary) := by
  induction objects generalizing s spent with
  | nil => simp [UploadsPass, WithinLine]
  | cons x objects ih =>
      rw [List.map_cons, List.sum_cons] at hfits
      have hdials := commitPut_dials S s did x.cid x.boundary x.isNew
      have hspent' : ((S.commitPut s .none did x.cid x.boundary x.isNew).1.runningTotals
          did).totalBytes = ((S.commitPut s .none did x.cid x.boundary x.isNew).1.dials
            did).periodBaseline + (spent + x.boundary) := by
        rw [commitPut_totalBytes, hdials, hspent, Nat.add_assoc]
      have hnext := ih (by rwa [hdials]) hspent' (by omega)
      rw [hdials] at hnext
      rw [UploadsPass, hnext, dialGates_eq_ok_iff hmode hspent (by omega)]
      simp only [List.map_cons, WithinLine, forall_and]

lemma check_eq_ok_iff {l : SpendLedger} {wantBytes : Nat} :
    l.check wantBytes = .ok () ↔ ∀ ceilingCents, l.ceilingCents = some ceilingCents →
      postageCents (l.spentBytes + wantBytes) ≤ max ceilingCents (postageCents l.spentBytes) := by
  rw [SpendLedger.check]
  cases l.ceilingCents with
  | none => simp
  | some ceilingCents =>
      dsimp only
      split_ifs with hover
      · simp only [Option.some.injEq, forall_eq', false_iff, le_max_iff, not_or, not_le]
        exact hover
      · simp only [Option.some.injEq, forall_eq', le_max_iff, true_iff]
        omega

/-- **Client and server draw the spend line at the same place.**  For an account that is not in
drawdown, and a ledger with its ceiling and its spend of the period, the client's check of a batch
passes exactly when the server's gates pass the objects, in any order. -/
theorem spend_line_agrees (S : ObjectServer) (s : MeterStore) (did : String) (l : SpendLedger)
    (hmode : (s.dials did).accountMode ≠ .drawdown)
    (hceiling : l.ceilingCents = (s.dials did).spendCents)
    (hspent : (s.runningTotals did).totalBytes = (s.dials did).periodBaseline + l.spentBytes)
    (objects order : List SentObject) (horder : order.Perm objects)
    (hfits : l.spentBytes + (objects.map SentObject.boundary).sum < 2 ^ 64) :
    l.check (objects.map SentObject.boundary).sum = .ok () ↔ UploadsPass S did s order := by
  have hsum : (order.map SentObject.boundary).sum = (objects.map SentObject.boundary).sum :=
    (horder.map _).sum_nat
  rw [uploadsPass_iff hmode hspent (by rwa [hsum]), check_eq_ok_iff, hceiling]
  simp only [withinLine_iff monotone_postageCents, hsum]

end

/-- An account that allows no postage at all. -/
def freeOnlyStore : MeterStore :=
  { MeterStore.empty with dials := fun _ => { Dials.default with spendCents := some 0 } }

/-- Two objects of three bytes. -/
def freeObjects : List SentObject :=
  [⟨"ba7816bf8f01cfea414140de5dae2223b00361a396177a9cb410ff61f20015ad", 3, true⟩,
    ⟨"3608bca1e44ea6c4d268eb6db02260269892c0b42b86bbf1e77a6fa16c3c9282", 3, true⟩]

/-- Six bytes cost nothing, so the client may send them and the server takes them. -/
theorem spend_line_agrees_free :
    UploadsPass raceServer "did:plc:ewvi7nxzyoun6zhxrhs64oiz" freeOnlyStore freeObjects := by
  refine (spend_line_agrees raceServer freeOnlyStore "did:plc:ewvi7nxzyoun6zhxrhs64oiz"
    ⟨"tree", some 0, 0⟩ ?_ rfl rfl freeObjects freeObjects (List.Perm.refl _) ?_).1 ?_
  · decide
  · decide
  · decide

end Ciss
