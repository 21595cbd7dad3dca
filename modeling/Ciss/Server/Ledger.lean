import Mathlib.Data.List.Sort
import Mathlib.Data.List.Induction
import Mathlib.Data.List.TakeDrop
import Mathlib.Data.List.TakeWhile
import Std.Data.ExtTreeMap
import Ciss.Server.Assertion

/-!
# The receipt ledger

Every transfer leaves a signed receipt.  This module has the receipts, the SQLite tables they
live in and the operations on them: `append_receipt`, the cached totals a DID's row of
`did_total` keeps, the scan `sum_receipts` that seeds such a row, the stored-bytes counters, and
the in-place rewrite of a countersignature.

The two tables are lists of rows in `rowid` order; an `UPDATE … WHERE` rewrites the rows it
selects.  A row's JSON column holds the receipt it is the text of.  Byte counters are natural
numbers.  What the customer's dials resolve to is kept per DID (`Dials`): the assertions behind
them are another component's.
-/

namespace Ciss

/-! ## Receipts -/

/-- Which way the bytes crossed the boundary. -/
inductive Direction where
  | upload
  | download
  deriving DecidableEq, Repr

/-- How a receipt is attested. -/
inductive ReceiptMode where
  | unilateral
  | bilateral
  deriving DecidableEq, Repr

/-- The account mode a customer asserts. -/
inductive AccountMode where
  | active
  | drawdown
  deriving DecidableEq, Repr

/-- The signed content of a receipt. -/
structure ReceiptCore where
  direction : Direction
  cid : String
  byteStart : Nat
  byteEnd : Nat
  bytes : Nat
  runningTotal : Nat
  day : Nat
  accountMode : AccountMode
  receiverId : String
  senderId : String
  deriving DecidableEq, Repr

namespace ReceiptCore

/-- Build a receipt core; `bytes` is derived from the byte range. -/
def new (direction : Direction) (cid : String) (byteRange : Nat × Nat) (runningTotal day : Nat)
    (accountMode : AccountMode) (receiverId senderId : String) : ReceiptCore where
  direction := direction
  cid := cid
  byteStart := byteRange.1
  byteEnd := byteRange.2
  bytes := byteRange.2 - byteRange.1
  runningTotal := runningTotal
  day := day
  accountMode := accountMode
  receiverId := receiverId
  senderId := senderId

/-- The serialized members, in field order.  The default account mode is left out. -/
def fields (c : ReceiptCore) : List (String × Bytes) :=
  [("direction", renderString (match c.direction with
      | .upload => "upload" | .download => "download")),
    ("cid", renderString c.cid), ("byte_start", asBytes c.byteStart.repr),
    ("byte_end", asBytes c.byteEnd.repr), ("bytes", asBytes c.bytes.repr),
    ("running_total", asBytes c.runningTotal.repr), ("day", asBytes c.day.repr)] ++
  (match c.accountMode with
    | .active => []
    | .drawdown => [("account_mode", renderString "drawdown")]) ++
  [("receiver_id", renderString c.receiverId), ("sender_id", renderString c.senderId)]

/-- The canonical bytes: the members sorted by key. -/
def toCanonicalBytes (c : ReceiptCore) : Bytes :=
  renderObject ((c.fields.insertionSort fun f g => f.1 ≤ g.1).map fun f => renderField f.1 f.2)

/-- The content hash the receipt's signatures are taken over. -/
def contentHash (sha256Hex : Bytes → String) (c : ReceiptCore) : String :=
  sha256Hex c.toCanonicalBytes

end ReceiptCore

/-- A transfer receipt: a core, its content hash, its mode, and the signatures by signer id. -/
structure Receipt where
  core : ReceiptCore
  contentHash : String
  mode : ReceiptMode
  sigs : Std.ExtTreeMap String String compare

/-- The JSON of a receipt. -/
def Receipt.toJson (r : Receipt) : Bytes :=
  renderObject
    [renderField "core" (renderObject (r.core.fields.map fun f => renderField f.1 f.2)),
      renderField "content_hash" (renderString r.contentHash),
      renderField "mode" (renderString (match r.mode with
        | .unilateral => "unilateral" | .bilateral => "bilateral")),
      renderField "sigs" (renderObject (r.sigs.toList.map fun s =>
        renderField s.1 (renderString s.2)))]

/-- The provider's own identity. -/
structure Provider where
  id : String
  keypair : Keypair

/-- Build the boundary receipt for a transfer: signed by the provider, and under the bilateral
mode awaiting the customer's countersignature. -/
def buildBoundaryReceipt (sha256Hex : Bytes → String) (provider : Provider) (core : ReceiptCore)
    (mode : ReceiptMode) : Receipt :=
  let contentHash := core.contentHash sha256Hex
  ⟨core, contentHash, mode,
    (∅ : Std.ExtTreeMap String String compare).insert provider.id
      (provider.keypair.signMessage contentHash)⟩

/-! ## Tables -/

/-- What a customer's dials resolve to. -/
structure Dials where
  accountMode : AccountMode
  /-- The per-period postage cap, in cents. -/
  spendCents : Option Nat
  /-- The at-rest cap, in bytes. -/
  atRestBytes : Option Nat
  receiptMode : ReceiptMode
  /-- The meter total the current spend period started at. -/
  periodBaseline : Nat
  deriving DecidableEq, Repr

/-- The dials of a customer that has asserted none. -/
def Dials.default : Dials := ⟨.active, none, none, .unilateral, 0⟩

/-- A row of `receipt`. -/
structure ReceiptRow where
  did : String
  receipt : Receipt

/-- A row of `did_total`. -/
structure DidTotal where
  did : String
  receiptCount : Nat
  uploadBytes : Nat
  downloadBytes : Nat
  storedBytes : Nat
  drawdownDownloadBytes : Nat
  deriving DecidableEq, Repr

/-- A DID's cumulative transfer totals. -/
structure ReceiptTotals where
  receiptCount : Nat
  uploadBytes : Nat
  downloadBytes : Nat
  drawdownDownloadBytes : Nat
  deriving DecidableEq, Repr

namespace ReceiptTotals

/-- No receipt at all. -/
def zero : ReceiptTotals := ⟨0, 0, 0, 0⟩

/-- Bytes transferred both ways. -/
def totalBytes (t : ReceiptTotals) : Nat := t.uploadBytes + t.downloadBytes

/-- One turn of the loop of `sum_receipts`. -/
def addReceipt (t : ReceiptTotals) (c : ReceiptCore) : ReceiptTotals :=
  match c.direction with
  | .upload => { t with receiptCount := t.receiptCount + 1, uploadBytes := t.uploadBytes + c.bytes }
  | .download =>
      { t with
        receiptCount := t.receiptCount + 1
        downloadBytes := t.downloadBytes + c.bytes
        drawdownDownloadBytes :=
          if c.accountMode = .drawdown then t.drawdownDownloadBytes + c.bytes
          else t.drawdownDownloadBytes }

/-- The totals of a list of receipts. -/
def ofCores (cores : List ReceiptCore) : ReceiptTotals := cores.foldl addReceipt zero

end ReceiptTotals

/-- The figures a cached row keeps. -/
def DidTotal.totals (row : DidTotal) : ReceiptTotals :=
  ⟨row.receiptCount, row.uploadBytes, row.downloadBytes, row.drawdownDownloadBytes⟩

/-- The tables of the metering store. -/
structure MeterStore where
  receipts : List ReceiptRow
  didTotal : List DidTotal
  dials : String → Dials

/-- The store before any request. -/
def MeterStore.empty : MeterStore := ⟨[], [], fun _ => .default⟩

namespace MeterStore

variable (s : MeterStore) (did : String)

/-- The DID's receipts, in insertion order. -/
def loadReceipts : List Receipt :=
  (s.receipts.filter fun row => row.did = did).map ReceiptRow.receipt

/-- A DID's totals by scanning its ledger. -/
def sumReceipts : ReceiptTotals := .ofCores ((s.loadReceipts did).map Receipt.core)

/-- The DID's cached row, if it has one. -/
def totalRow : Option DidTotal := s.didTotal.find? fun row => row.did = did

/-- The DID's totals, from the cache or, without a row, from the ledger. -/
def runningTotals : ReceiptTotals :=
  match s.totalRow did with
  | some row => row.totals
  | none => s.sumReceipts did

/-- Insert a backfilled cache row for `did` if none exists. -/
def ensureTotalRow : MeterStore :=
  match s.totalRow did with
  | some _ => s
  | none =>
      let t := s.sumReceipts did
      { s with
        didTotal := s.didTotal ++
          [⟨did, t.receiptCount, t.uploadBytes, t.downloadBytes, 0, t.drawdownDownloadBytes⟩] }

/-- `UPDATE did_total SET … WHERE did = ?`. -/
def updateTotalRow (f : DidTotal → DidTotal) : MeterStore :=
  { s with didTotal := s.didTotal.map fun row => if row.did = did then f row else row }

/-- Append a receipt, keeping the cached totals in step. -/
def appendReceipt (receipt : Receipt) : MeterStore :=
  let bytes := receipt.core.bytes
  let (up, down) := match receipt.core.direction with
    | .upload => (bytes, 0)
    | .download => (0, bytes)
  -- a download tagged drawdown counts here in addition to the downloads
  let drain :=
    if receipt.core.direction = .download ∧ receipt.core.accountMode = .drawdown then bytes else 0
  let s₁ := s.ensureTotalRow did
  let s₂ : MeterStore := { s₁ with receipts := s₁.receipts ++ [⟨did, receipt⟩] }
  s₂.updateTotalRow did fun row =>
    { row with
      receiptCount := row.receiptCount + 1
      uploadBytes := row.uploadBytes + up
      downloadBytes := row.downloadBytes + down
      drawdownDownloadBytes := row.drawdownDownloadBytes + drain }

/-- The total distinct bytes at rest across all DIDs; `SUM` fails past the 64-bit range. -/
def storeUsage : Except PersistError Nat :=
  let total := (s.didTotal.map DidTotal.storedBytes).sum
  if total ≤ i64Max then .ok total else .error .integerOverflow

/-- The distinct bytes at rest for one DID. -/
def didStoredBytes : Nat := ((s.totalRow did).map DidTotal.storedBytes).getD 0

/-- Record a new blob: add its size to the DID's distinct bytes at rest. -/
def addStoredBytes (size : Nat) : MeterStore :=
  (s.ensureTotalRow did).updateTotalRow did fun row =>
    { row with storedBytes := row.storedBytes + size }

end MeterStore

/-! ## Countersigning -/

/-- An ASCII letter in lower case. -/
def asciiLower (b : UInt8) : UInt8 := if 65 ≤ b.toNat ∧ b.toNat ≤ 90 then b + 32 else b

/-- SQLite's `LIKE`: `%` stands for any text, `_` for one character, and ASCII letters match in
either case. -/
def like : Bytes → Bytes → Bool
  | [], text => text.isEmpty
  | p :: pattern, text =>
      if p = 37 then text.tails.any (like pattern)
      else
        match text with
        | [] => false
        | c :: text =>
            -- `_` takes a whole UTF-8 character: its first byte and the continuation bytes
            if p = 95 then
              like pattern (text.dropWhile fun b => 128 ≤ b.toNat ∧ b.toNat < 192)
            else asciiLower p = asciiLower c && like pattern text

/-- The stored text of the receipt has the hash in it. -/
def ReceiptRow.mentions (row : ReceiptRow) (contentHash : String) : Bool :=
  like (asBytes "%" ++ asBytes contentHash ++ asBytes "%") row.receipt.toJson

/-- The row with one more signature. -/
def ReceiptRow.countersigned (row : ReceiptRow) (signer sig : String) : ReceiptRow :=
  ⟨row.did, { row.receipt with sigs := row.receipt.sigs.insert signer sig }⟩

namespace MeterStore

/-- Add a countersignature to the newest receipt of `did` whose JSON mentions `contentHash`, if
that is the receipt's own content hash.  Returns the completed receipt. -/
def countersignReceipt (s : MeterStore) (did contentHash signer sig : String) :
    MeterStore × Option Receipt :=
  let selected (row : ReceiptRow) : Bool :=
    row.did = did && like (asBytes "%" ++ asBytes contentHash ++ asBytes "%") row.receipt.toJson
  match s.receipts.reverse.span fun row => !selected row with
  | (_, []) => (s, none)
  | (newer, row :: older) =>
      if row.receipt.contentHash ≠ contentHash then (s, none)
      else
        let completed := { row.receipt with sigs := row.receipt.sigs.insert signer sig }
        ({ s with receipts := older.reverse ++ ⟨row.did, completed⟩ :: newer.reverse },
          some completed)

end MeterStore

/-! ## Totals and the ledger -/

section

variable {s : MeterStore} {did did' : String}

namespace ReceiptTotals

lemma ofCores_concat (cores : List ReceiptCore) (c : ReceiptCore) :
    ofCores (cores ++ [c]) = (ofCores cores).addReceipt c := by
  unfold ofCores
  rw [List.foldl_append]
  rfl

lemma totalBytes_addReceipt (t : ReceiptTotals) (c : ReceiptCore) :
    (t.addReceipt c).totalBytes = t.totalBytes + c.bytes := by
  unfold addReceipt totalBytes
  split
  · simp only
    omega
  · simp only
    omega

lemma totalBytes_ofCores (cores : List ReceiptCore) :
    (ofCores cores).totalBytes = (cores.map ReceiptCore.bytes).sum := by
  induction cores using List.reverseRecOn with
  | nil => rfl
  | append_singleton cores c ih =>
      rw [ofCores_concat, totalBytes_addReceipt, ih]
      simp

end ReceiptTotals

namespace MeterStore

/-- The signed contents of the DID's receipts. -/
def cores (s : MeterStore) (did : String) : List ReceiptCore :=
  (s.loadReceipts did).map Receipt.core

@[simp] lemma ensureTotalRow_receipts : (s.ensureTotalRow did).receipts = s.receipts := by
  unfold ensureTotalRow
  split <;> rfl

@[simp] lemma ensureTotalRow_dials : (s.ensureTotalRow did).dials = s.dials := by
  unfold ensureTotalRow
  split <;> rfl

@[simp] lemma addStoredBytes_dials (size : Nat) : (s.addStoredBytes did size).dials = s.dials := by
  simp [addStoredBytes, updateTotalRow]

@[simp] lemma appendReceipt_dials (r : Receipt) : (s.appendReceipt did r).dials = s.dials := by
  simp [appendReceipt, updateTotalRow]

lemma ensureTotalRow_mem {row : DidTotal} (h : row ∈ (s.ensureTotalRow did).didTotal) :
    row ∈ s.didTotal ∨ row.totals = s.sumReceipts did ∧ row.did = did ∧ row.storedBytes = 0 := by
  unfold ensureTotalRow at h
  split at h
  · exact Or.inl h
  · rcases List.mem_append.mp h with h | h
    · exact Or.inl h
    · rw [List.mem_singleton.mp h]
      exact Or.inr ⟨rfl, rfl, rfl⟩

@[simp] lemma loadReceipts_addStoredBytes (size : Nat) :
    (s.addStoredBytes did size).loadReceipts did' = s.loadReceipts did' := by
  simp [loadReceipts, addStoredBytes, updateTotalRow]

lemma loadReceipts_appendReceipt_self (r : Receipt) :
    (s.appendReceipt did r).loadReceipts did = s.loadReceipts did ++ [r] := by
  simp [loadReceipts, appendReceipt, updateTotalRow, List.filter_append]

lemma loadReceipts_appendReceipt_other (r : Receipt) (h : did ≠ did') :
    (s.appendReceipt did r).loadReceipts did' = s.loadReceipts did' := by
  simp [loadReceipts, appendReceipt, updateTotalRow, List.filter_append, h]

@[simp] lemma cores_addStoredBytes (size : Nat) :
    (s.addStoredBytes did size).cores did' = s.cores did' := by
  simp [cores]

lemma cores_appendReceipt_self (r : Receipt) :
    (s.appendReceipt did r).cores did = s.cores did ++ [r.core] := by
  simp [cores, loadReceipts_appendReceipt_self]

lemma cores_appendReceipt_other (r : Receipt) (h : did ≠ did') :
    (s.appendReceipt did r).cores did' = s.cores did' := by
  simp [cores, loadReceipts_appendReceipt_other r h]

/-- **What a countersignature can do.**  No receipt of `did` mentions the hash; or the newest one
that does has another content hash and nothing happens; or it has that hash and is completed in its
place. -/
lemma countersignReceipt_cases (s : MeterStore) (did contentHash signer sig : String) :
    ((∀ row ∈ s.receipts, row.did = did → row.mentions contentHash = false) ∧
        s.countersignReceipt did contentHash signer sig = (s, none)) ∨
      ∃ older row newer, s.receipts = older ++ row :: newer ∧ row.did = did ∧
        row.mentions contentHash = true ∧
        (∀ x ∈ newer, x.did = did → x.mentions contentHash = false) ∧
        ((row.receipt.contentHash ≠ contentHash ∧
            s.countersignReceipt did contentHash signer sig = (s, none)) ∨
          (row.receipt.contentHash = contentHash ∧
            s.countersignReceipt did contentHash signer sig =
              ({ s with receipts := older ++ row.countersigned signer sig :: newer },
                some (row.countersigned signer sig).receipt))) := by
  have hspan := List.takeWhile_append_dropWhile (l := s.receipts.reverse)
    (p := fun row => !(row.did = did && row.mentions contentHash))
  have hskip : ∀ row ∈ s.receipts.reverse.takeWhile
      (fun row => !(row.did = did && row.mentions contentHash)),
      row.did = did → row.mentions contentHash = false := by
    intro row hrow hdid
    have := List.mem_takeWhile_imp hrow
    simpa [hdid] using this
  have hfun : s.countersignReceipt did contentHash signer sig =
      match s.receipts.reverse.span fun row => !(row.did = did && row.mentions contentHash) with
      | (_, []) => (s, none)
      | (newer, row :: older) =>
          if row.receipt.contentHash ≠ contentHash then (s, none)
          else ({ s with receipts := older.reverse ++ row.countersigned signer sig :: newer.reverse },
            some (row.countersigned signer sig).receipt) := rfl
  rw [hfun, List.span_eq_takeWhile_dropWhile]
  rcases hdrop : s.receipts.reverse.dropWhile
      (fun row => !(row.did = did && row.mentions contentHash)) with _ | ⟨row, older⟩
  · rw [hdrop]
    refine Or.inl ⟨?_, rfl⟩
    rw [hdrop, List.append_nil] at hspan
    intro row hrow
    apply hskip
    rw [hspan]
    exact List.mem_reverse.mpr hrow
  · have hrow := List.head?_dropWhile_not
      (fun row : ReceiptRow => !(row.did = did && row.mentions contentHash)) s.receipts.reverse
    rw [hdrop] at hrow hspan ⊢
    have hsplit := congrArg List.reverse hspan
    have hhit : row.did = did ∧ row.mentions contentHash = true := by simpa using hrow
    refine Or.inr ⟨older.reverse, row, (s.receipts.reverse.takeWhile
      fun row => !(row.did = did && row.mentions contentHash)).reverse, ?_, hhit.1, hhit.2, ?_, ?_⟩
    · simpa using hsplit.symm
    · intro x hx
      exact hskip x (List.mem_reverse.mp hx)
    · by_cases hhash : row.receipt.contentHash = contentHash
      · refine Or.inr ⟨hhash, ?_⟩
        dsimp only
        rw [if_neg (not_not.mpr hhash)]
      · refine Or.inl ⟨hhash, ?_⟩
        dsimp only
        rw [if_pos hhash]

/-- A countersignature rewrites no signed content. -/
lemma cores_countersignReceipt (contentHash signer sig : String) :
    (s.countersignReceipt did contentHash signer sig).1.cores did' = s.cores did' := by
  obtain ⟨-, heq⟩ | ⟨older, row, newer, hrows, -, -, -, ⟨-, heq⟩ | ⟨-, heq⟩⟩ :=
    s.countersignReceipt_cases did contentHash signer sig
  · rw [heq]
  · rw [heq]
  · rw [heq]
    have hrow : (row.countersigned signer sig).did = row.did := rfl
    have hcore : (row.countersigned signer sig).receipt.core = row.receipt.core := rfl
    simp only [cores, loadReceipts, hrows, List.filter_append, List.filter_cons, List.map_append,
      hrow]
    split
    · simp only [List.map_cons, hcore]
    · rfl

lemma didTotal_countersignReceipt (contentHash signer sig : String) :
    (s.countersignReceipt did contentHash signer sig).1.didTotal = s.didTotal := by
  obtain ⟨-, heq⟩ | ⟨older, row, newer, -, -, -, -, ⟨-, heq⟩ | ⟨-, heq⟩⟩ :=
    s.countersignReceipt_cases did contentHash signer sig
  · rw [heq]
  · rw [heq]
  · rw [heq]

end MeterStore

/-! ## The ledger invariant -/

/-- Each receipt signs the sum of the bytes up to and including it, and every cached row holds
what a scan of the ledger gives. -/
structure LedgerConsistent (s : MeterStore) : Prop where
  running : ∀ did pre c post, s.cores did = pre ++ c :: post →
    c.runningTotal = ((pre ++ [c]).map ReceiptCore.bytes).sum
  cached : ∀ row ∈ s.didTotal, row.totals = s.sumReceipts row.did

lemma LedgerConsistent.empty : LedgerConsistent MeterStore.empty := by
  refine ⟨?_, ?_⟩
  · intro did pre c post h
    exact absurd h.symm (by simp [MeterStore.cores, MeterStore.loadReceipts, MeterStore.empty])
  · intro row hrow
    cases hrow

lemma LedgerConsistent.runningTotals_eq (h : LedgerConsistent s) (did : String) :
    s.runningTotals did = s.sumReceipts did := by
  unfold MeterStore.runningTotals
  split
  · rename_i row hrow
    have hmem := List.mem_of_find?_eq_some hrow
    have hdid : row.did = did := by simpa using List.find?_some hrow
    rw [h.cached row hmem, hdid]
  · rfl

/-- The invariant reads the signed contents and the cached figures only. -/
lemma LedgerConsistent.congr {s' : MeterStore} (h : LedgerConsistent s)
    (hcores : ∀ did, s'.cores did = s.cores did)
    (hrows : ∀ row ∈ s'.didTotal, row.totals = s.sumReceipts row.did) :
    LedgerConsistent s' := by
  refine ⟨?_, ?_⟩
  · intro did pre c post hsplit
    rw [hcores] at hsplit
    exact h.running did pre c post hsplit
  · intro row hrow
    have hsum : s'.sumReceipts row.did = s.sumReceipts row.did :=
      congrArg ReceiptTotals.ofCores (hcores row.did)
    rw [hsum]
    exact hrows row hrow

lemma LedgerConsistent.addStoredBytes (h : LedgerConsistent s) (size : Nat) :
    LedgerConsistent (s.addStoredBytes did size) := by
  refine h.congr (fun _ => MeterStore.cores_addStoredBytes size) ?_
  intro row hrow
  obtain ⟨row₀, hrow₀, rfl⟩ := List.mem_map.mp hrow
  have htotals : row₀.totals = s.sumReceipts row₀.did := by
    rcases MeterStore.ensureTotalRow_mem hrow₀ with hmem | ⟨ht, hd, -⟩
    · exact h.cached row₀ hmem
    · rw [ht, hd]
  split_ifs
  · exact htotals
  · exact htotals

lemma LedgerConsistent.countersignReceipt (h : LedgerConsistent s)
    (contentHash signer sig : String) :
    LedgerConsistent (s.countersignReceipt did contentHash signer sig).1 := by
  refine h.congr (fun _ => MeterStore.cores_countersignReceipt contentHash signer sig) ?_
  intro row hrow
  rw [MeterStore.didTotal_countersignReceipt] at hrow
  exact h.cached row hrow

/-- The incremental update of a cached row is one more turn of the scan. -/
lemma LedgerConsistent.appendReceipt (h : LedgerConsistent s) {r : Receipt}
    (hr : r.core.runningTotal = (s.runningTotals did).totalBytes + r.core.bytes) :
    LedgerConsistent (s.appendReceipt did r) := by
  refine ⟨?_, ?_⟩
  · intro did' pre c post hsplit
    by_cases hdid : did = did'
    · subst hdid
      rw [MeterStore.cores_appendReceipt_self] at hsplit
      rcases List.eq_nil_or_concat post with rfl | ⟨post, last, rfl⟩
      · obtain ⟨hpre, hc⟩ := List.append_inj' hsplit rfl
        have hc : r.core = c := by simpa using hc
        rw [← hc, ← hpre, hr, h.runningTotals_eq]
        simp [MeterStore.sumReceipts, ReceiptTotals.totalBytes_ofCores, MeterStore.cores]
      · have hinit : s.cores did = pre ++ c :: post := by
          have hsplit' : s.cores did ++ [r.core] = (pre ++ c :: post) ++ [last] := by
            rw [hsplit]
            simp
          exact (List.append_inj' hsplit' rfl).1
        exact h.running did pre c post hinit
    · rw [MeterStore.cores_appendReceipt_other r hdid] at hsplit
      exact h.running did' pre c post hsplit
  · intro row hrow
    obtain ⟨row₀, hrow₀, rfl⟩ := List.mem_map.mp hrow
    have htotals : row₀.totals = s.sumReceipts row₀.did := by
      rcases MeterStore.ensureTotalRow_mem hrow₀ with hmem | ⟨ht, hd, -⟩
      · exact h.cached row₀ hmem
      · rw [ht, hd]
    by_cases hdid : row₀.did = did
    · have hsum : (s.appendReceipt did r).sumReceipts did =
          (s.sumReceipts did).addReceipt r.core := by
        unfold MeterStore.sumReceipts
        rw [← ReceiptTotals.ofCores_concat]
        exact congrArg ReceiptTotals.ofCores (MeterStore.cores_appendReceipt_self r)
      rw [if_pos hdid]
      rw [hdid] at htotals
      change _ = (s.appendReceipt did r).sumReceipts row₀.did
      rw [hdid, hsum, ← htotals]
      unfold DidTotal.totals ReceiptTotals.addReceipt
      rcases hdir : r.core.direction with _ | _
      · simp
      · by_cases hmode : r.core.accountMode = .drawdown
        · simp [hmode]
        · simp [hmode]
    · rw [if_neg hdid]
      change _ = (s.appendReceipt did r).sumReceipts row₀.did
      have hsum : (s.appendReceipt did r).sumReceipts row₀.did = s.sumReceipts row₀.did :=
        congrArg ReceiptTotals.ofCores
          (MeterStore.cores_appendReceipt_other r (fun hne => hdid hne.symm))
      rw [hsum]
      exact htotals

end

end Ciss
