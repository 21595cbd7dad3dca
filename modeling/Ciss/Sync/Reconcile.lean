import Ciss.Framework.Machine
import Ciss.Framework.Tally
import Ciss.Sync.Push

/-!
# The spend ledger and the meter

A spend ledger is a list of rows, each in an accounting period; a reset starts the next period and
deletes nothing.  `reconcile_to_meter` compares the current period with the account's meter: the
first time in a period it adopts a baseline, afterwards it records what the meter has moved beyond
the ledger.

A push is billed put by put and records its bytes once, at its end.  Between the two the meter is
ahead of the ledger by what the push has pending, and a reconciliation made then takes these bytes
for the spend of another device: it charges them to the baseline or to a catch-up row, and the push
records them again.  Where no reconciliation falls between a billing and its record, the rows of
the period, what is pending and the baseline never exceed the meter together (`Balanced`), and
`recorded_le_metered` follows.

Each call of the ledger is one step.  The meter counts everything the account is billed, so its
movements are those of this device's pushes and of the others'.
-/

namespace Ciss

/-! ## The ledger -/

/-- A row of the `spend` table.  Its timestamp is consulted by no query. -/
structure SpendRow where
  bytes : Nat
  periodSeq : Nat
  deriving DecidableEq, Repr

/-- A spend ledger with all its periods: the rows, and the numbers of its `config` table. -/
structure PeriodLedger where
  scope : String
  ceilingCents : Option Nat
  spendPeriod : Option Nat
  reconcileBaselineBytes : Option Nat
  reconcileBaselinePeriod : Option Nat
  rows : List SpendRow
  deriving DecidableEq, Repr

/-- What one reconciliation against the meter did. -/
inductive ReconcileOutcome where
  | adopted (baselineBytes : Nat)
  | caughtUp (bytes : Nat)
  | inSync
  | localAhead (bytes : Nat)
  deriving DecidableEq, Repr

namespace PeriodLedger

variable (l : PeriodLedger)

/-- A ledger just opened. -/
def «open» (scope : String) : PeriodLedger := ⟨scope, none, none, none, none, []⟩

/-- The current accounting period; the first is 0. -/
def currentPeriod : Nat := l.spendPeriod.getD 0

/-- Start a new period. -/
def resetSpend : PeriodLedger := { l with spendPeriod := some (l.currentPeriod + 1) }

/-- Append a transfer's bytes to the current period. -/
def recordBytes (bytes : Nat) : PeriodLedger :=
  { l with rows := l.rows ++ [⟨bytes, l.currentPeriod⟩] }

/-- The end of a push: a transfer that was billed is ledgered. -/
def ledgerTransfer (bytes : Nat) : PeriodLedger := if bytes > 0 then l.recordBytes bytes else l

/-- Total bytes recorded in a period. -/
def spentBytesIn (period : Nat) : Nat :=
  ((l.rows.filter fun row => row.periodSeq = period).map SpendRow.bytes).sum

/-- Total bytes in the current period. -/
def spentBytes : Nat := l.spentBytesIn l.currentPeriod

/-- Make `bytes` the zero point of the current period. -/
def adoptBaseline (bytes : Nat) : PeriodLedger :=
  { l with
    reconcileBaselineBytes := some bytes
    reconcileBaselinePeriod := some l.currentPeriod }

/-- Reconcile against the meter's cumulative account total. -/
def reconcileToMeter (meterTotalBytes : Nat) : PeriodLedger × ReconcileOutcome :=
  let period := l.currentPeriod
  let spent := l.spentBytes
  if l.reconcileBaselineBytes.isNone ∨ l.reconcileBaselinePeriod ≠ some period then
    (l.adoptBaseline (meterTotalBytes - spent), .adopted (meterTotalBytes - spent))
  else
    let accountSpent := meterTotalBytes - l.reconcileBaselineBytes.getD 0
    if accountSpent > spent then
      (l.recordBytes (accountSpent - spent), .caughtUp (accountSpent - spent))
    else if spent > accountSpent then (l, .localAhead (spent - accountSpent))
    else (l, .inSync)

/-- What a push sees of the ledger: the current period. -/
def current : SpendLedger := ⟨l.scope, l.ceilingCents, l.spentBytes⟩

variable {l} {n q : Nat}

@[simp] lemma recordBytes_currentPeriod : (l.recordBytes n).currentPeriod = l.currentPeriod := rfl

@[simp] lemma recordBytes_baseline :
    (l.recordBytes n).reconcileBaselineBytes = l.reconcileBaselineBytes := rfl

@[simp] lemma recordBytes_baselinePeriod :
    (l.recordBytes n).reconcileBaselinePeriod = l.reconcileBaselinePeriod := rfl

@[simp] lemma resetSpend_currentPeriod : l.resetSpend.currentPeriod = l.currentPeriod + 1 := rfl

@[simp] lemma recordBytes_spentBytes : (l.recordBytes n).spentBytes = l.spentBytes + n := by
  have hrows : (l.recordBytes n).rows = l.rows ++ [⟨n, l.currentPeriod⟩] := rfl
  rw [spentBytes, spentBytesIn, recordBytes_currentPeriod, hrows, List.filter_append,
    List.map_append, List.sum_append, ← spentBytesIn, ← spentBytes]
  simp

/-- A push records in the ledger it sees. -/
theorem current_recordBytes : (l.recordBytes n).current = SpendLedger.recordBytes n l.current := by
  rw [current, recordBytes_spentBytes]
  rfl

/-- The period of the ledger has a baseline. -/
def HasBaseline (l : PeriodLedger) : Prop :=
  l.reconcileBaselineBytes.isSome ∧ l.reconcileBaselinePeriod = some l.currentPeriod

lemma hasBaseline_recordBytes : (l.recordBytes n).HasBaseline ↔ l.HasBaseline := Iff.rfl

@[simp] lemma adoptBaseline_spentBytes : (l.adoptBaseline n).spentBytes = l.spentBytes := rfl

lemma hasBaseline_adoptBaseline : (l.adoptBaseline n).HasBaseline := ⟨rfl, rfl⟩

@[simp] lemma ledgerTransfer_spentBytes : (l.ledgerTransfer n).spentBytes = l.spentBytes + n := by
  unfold ledgerTransfer
  split
  · exact recordBytes_spentBytes
  · omega

@[simp] lemma ledgerTransfer_baseline :
    (l.ledgerTransfer n).reconcileBaselineBytes = l.reconcileBaselineBytes := by
  unfold ledgerTransfer
  split <;> rfl

@[simp] lemma hasBaseline_ledgerTransfer : (l.ledgerTransfer n).HasBaseline ↔ l.HasBaseline := by
  unfold ledgerTransfer
  split
  · exact hasBaseline_recordBytes
  · exact Iff.rfl

/-- No row and no baseline is of a period still to come. -/
structure Dated (l : PeriodLedger) : Prop where
  rows_le : ∀ row ∈ l.rows, row.periodSeq ≤ l.currentPeriod
  baseline_le : ∀ q, l.reconcileBaselinePeriod = some q → q ≤ l.currentPeriod

lemma dated_open {scope : String} : (PeriodLedger.open scope).Dated :=
  ⟨by simp [«open»], by simp [«open»]⟩

lemma Dated.recordBytes (h : l.Dated) : (l.recordBytes n).Dated := by
  refine ⟨fun row hrow => ?_, h.baseline_le⟩
  rcases List.mem_append.1 hrow with hold | hnew
  · exact h.rows_le row hold
  · rw [List.mem_singleton.1 hnew, recordBytes_currentPeriod]

lemma Dated.adoptBaseline (h : l.Dated) : (l.adoptBaseline n).Dated :=
  ⟨h.rows_le, fun _ hq => (Option.some.inj hq).ge⟩

lemma Dated.ledgerTransfer (h : l.Dated) : (l.ledgerTransfer n).Dated := by
  unfold PeriodLedger.ledgerTransfer
  split
  · exact h.recordBytes
  · exact h

lemma Dated.resetSpend (h : l.Dated) : l.resetSpend.Dated :=
  ⟨fun row hrow => (h.rows_le row hrow).trans (Nat.le_succ _),
    fun q hq => (h.baseline_le q hq).trans (Nat.le_succ _)⟩

/-- A new period starts empty. -/
lemma Dated.spentBytes_resetSpend (h : l.Dated) : l.resetSpend.spentBytes = 0 := by
  have hnone : l.resetSpend.rows.filter (fun row => row.periodSeq = l.resetSpend.currentPeriod) =
      [] := by
    refine List.filter_eq_nil_iff.2 fun row hrow => ?_
    have := h.rows_le row hrow
    rw [resetSpend_currentPeriod, decide_eq_true_iff]
    omega
  rw [spentBytes, spentBytesIn, hnone]
  rfl

/-- A new period has no baseline. -/
lemma Dated.not_hasBaseline_resetSpend (h : l.Dated) : ¬ l.resetSpend.HasBaseline := by
  rintro ⟨-, hperiod⟩
  have := h.baseline_le _ hperiod
  rw [resetSpend_currentPeriod] at this
  omega

/-- **What a reconciliation does**, by the ledger it is made on. -/
theorem reconcileToMeter_cases (l : PeriodLedger) (meter : Nat) :
    (¬ l.HasBaseline ∧ (l.reconcileToMeter meter).1 = l.adoptBaseline (meter - l.spentBytes)) ∨
    (∃ b, l.HasBaseline ∧ l.reconcileBaselineBytes = some b ∧ l.spentBytes < meter - b ∧
      (l.reconcileToMeter meter).1 = l.recordBytes (meter - b - l.spentBytes)) ∨
    (∃ b, l.HasBaseline ∧ l.reconcileBaselineBytes = some b ∧ meter - b ≤ l.spentBytes ∧
      (l.reconcileToMeter meter).1 = l) := by
  by_cases hbase : l.HasBaseline
  · obtain ⟨b, hb⟩ := Option.isSome_iff_exists.1 hbase.1
    have hold : ¬ (l.reconcileBaselineBytes.isNone ∨
        l.reconcileBaselinePeriod ≠ some l.currentPeriod) := by
      rw [hb, hbase.2]
      simp
    unfold reconcileToMeter
    dsimp only
    rw [if_neg hold, hb, Option.getD_some]
    rcases Nat.lt_or_ge l.spentBytes (meter - b) with hlt | hge
    · exact Or.inr (Or.inl ⟨b, hbase, rfl, hlt, by rw [if_pos hlt]⟩)
    · refine Or.inr (Or.inr ⟨b, hbase, rfl, hge, ?_⟩)
      rw [if_neg (by omega)]
      split <;> rfl
  · have hfresh : l.reconcileBaselineBytes.isNone ∨
        l.reconcileBaselinePeriod ≠ some l.currentPeriod := by
      by_contra hnot
      rw [not_or, Option.isNone_iff_eq_none, ← ne_eq, Option.ne_none_iff_isSome, not_not] at hnot
      exact hbase hnot
    exact Or.inl ⟨hbase, by simp only [reconcileToMeter, if_pos hfresh]⟩

lemma Dated.reconcileToMeter (h : l.Dated) (meter : Nat) : (l.reconcileToMeter meter).1.Dated := by
  rcases l.reconcileToMeter_cases meter with ⟨-, hl⟩ | ⟨b, -, -, -, hl⟩ | ⟨b, -, -, -, hl⟩
    <;> rw [hl]
  · exact h.adoptBaseline
  · exact h.recordBytes
  · exact h

end PeriodLedger

/-! ## The account -/

/-- The account's meter, the profile ledger of this device, and what each of its pushes has been
billed and not yet recorded. -/
structure Metered where
  meter : Nat
  ledger : PeriodLedger
  pending : Nat → Nat

/-- What happens on the account. -/
inductive MeterAction where
  /-- A put of a push of this device is billed. -/
  | put (push bytes : Nat)
  /-- The push ends, and records what it was billed. -/
  | record (push : Nat)
  /-- The push fails after what it was billed, and records nothing. -/
  | fail (push : Nat)
  /-- A transfer of another device is billed. -/
  | others (bytes : Nat)
  | reset
  /-- The ledger is reconciled to the meter's total. -/
  | reconcile
  deriving DecidableEq, Repr

namespace Metered

/-- One action. -/
def step (w : Metered) : MeterAction → Metered
  | .put push bytes =>
      { w with
        meter := w.meter + bytes
        pending := Function.update w.pending push (w.pending push + bytes) }
  | .record push =>
      { w with
        ledger := w.ledger.ledgerTransfer (w.pending push)
        pending := Function.update w.pending push 0 }
  | .fail push => { w with pending := Function.update w.pending push 0 }
  | .others bytes => { w with meter := w.meter + bytes }
  | .reset => { w with ledger := w.ledger.resetSpend }
  | .reconcile => { w with ledger := (w.ledger.reconcileToMeter w.meter).1 }

/-- A ledger just opened, on an account with some history. -/
def start (scope : String) (history : Nat) : Metered := ⟨history, .open scope, fun _ => 0⟩

/-- No push of this device has bytes billed and not yet recorded. -/
def Idle (w : Metered) : Prop := ∀ push, w.pending push = 0

/-- A reconciliation is made on an idle device. -/
def QuietReconcile (w : Metered) (a : MeterAction) : Prop := a = .reconcile → w.Idle

/-- What is pending, over all pushes. -/
noncomputable def pendingTotal (w : Metered) : Nat := ∑ᶠ push, w.pending push

/-- What the period has recorded and what is pending do not exceed the meter together, nor, once
a baseline is adopted, what the meter has moved beyond it. -/
structure Balanced (w : Metered) : Prop where
  finite : w.pending.support.Finite
  dated : w.ledger.Dated
  billed : w.ledger.spentBytes + w.pendingTotal ≤ w.meter
  adopted : ∀ b, w.ledger.HasBaseline → w.ledger.reconcileBaselineBytes = some b →
    w.ledger.spentBytes + w.pendingTotal + b ≤ w.meter

variable {w : Metered} {push bytes v : Nat}

lemma Idle.pendingTotal (h : w.Idle) : w.pendingTotal = 0 := by
  rw [Metered.pendingTotal, funext h]
  exact finsum_zero

lemma balanced_start {scope : String} {history : Nat} : (start scope history).Balanced where
  finite := by simp [start, Function.support]
  dated := PeriodLedger.dated_open
  billed := by
    have hidle : (start scope history).Idle := fun _ => rfl
    rw [hidle.pendingTotal]
    exact Nat.zero_le _
  adopted := by
    rintro b ⟨hsome, -⟩
    cases hsome

/-- The pending bytes of one push replaced. -/
lemma Balanced.pendingTotal_update (h : w.Balanced) {w' : Metered}
    (hw : w'.pending = Function.update w.pending push v) :
    w'.pendingTotal + w.pending push = w.pendingTotal + v := by
  rw [pendingTotal, hw]
  exact finsum_update_add h.finite push v

lemma Balanced.finite_update (h : w.Balanced) {w' : Metered}
    (hw : w'.pending = Function.update w.pending push v) : w'.pending.support.Finite := by
  rw [hw]
  exact (h.finite.insert push).subset (support_update_subset ..)

lemma step_reconcile_ledger :
    (w.step .reconcile).ledger = (w.ledger.reconcileToMeter w.meter).1 := rfl

/-- A reconciliation on an idle device leaves the period level with the meter. -/
theorem Balanced.reconcile_level (h : w.Balanced) (hidle : w.Idle) :
    ∃ b, (w.step .reconcile).ledger.HasBaseline ∧
      (w.step .reconcile).ledger.reconcileBaselineBytes = some b ∧
      (w.step .reconcile).ledger.spentBytes + b = w.meter := by
  have hbilled := h.billed
  rw [hidle.pendingTotal] at hbilled
  rw [step_reconcile_ledger]
  rcases w.ledger.reconcileToMeter_cases w.meter with
    ⟨-, hl⟩ | ⟨b, hbase, hb, hbehind, hl⟩ | ⟨b, hbase, hb, hahead, hl⟩
  · rw [hl]
    refine ⟨_, PeriodLedger.hasBaseline_adoptBaseline, rfl, ?_⟩
    rw [PeriodLedger.adoptBaseline_spentBytes]
    omega
  · rw [hl]
    refine ⟨b, PeriodLedger.hasBaseline_recordBytes.2 hbase, hb, ?_⟩
    rw [PeriodLedger.recordBytes_spentBytes]
    omega
  · have hadopted := h.adopted b hbase hb
    rw [hl]
    exact ⟨b, hbase, hb, by omega⟩

lemma Balanced.reconcile (h : w.Balanced) (hidle : w.Idle) : (w.step .reconcile).Balanced := by
  obtain ⟨b, hbase, hb, hlevel⟩ := h.reconcile_level hidle
  have htotal : (w.step .reconcile).pendingTotal = 0 := hidle.pendingTotal
  refine ⟨h.finite, h.dated.reconcileToMeter w.meter, ?_, fun c _ hc => ?_⟩
  · show _ ≤ w.meter
    omega
  · rw [hb, Option.some.injEq] at hc
    show _ ≤ w.meter
    omega

/-- **One action.**  Where the reconciliations are made on an idle device, every action keeps the
balance. -/
theorem Balanced.step (h : w.Balanced) {a : MeterAction} (hquiet : QuietReconcile w a) :
    (w.step a).Balanced := by
  have hbilled := h.billed
  cases a with
  | put push bytes =>
      have htotal : (w.step (.put push bytes)).pendingTotal + _ = _ := h.pendingTotal_update rfl
      refine ⟨h.finite_update rfl, h.dated, ?_, fun b hbase hb => ?_⟩
      · show w.ledger.spentBytes + _ ≤ w.meter + bytes
        omega
      · have hadopted := h.adopted b hbase hb
        show w.ledger.spentBytes + _ + b ≤ w.meter + bytes
        omega
  | record push =>
      have htotal : (w.step (.record push)).pendingTotal + _ = _ := h.pendingTotal_update rfl
      have hspent : (w.step (.record push)).ledger.spentBytes = _ :=
        PeriodLedger.ledgerTransfer_spentBytes
      refine ⟨h.finite_update rfl, h.dated.ledgerTransfer, ?_, fun b hbase hb => ?_⟩
      · show _ ≤ w.meter
        omega
      · have hadopted := h.adopted b (PeriodLedger.hasBaseline_ledgerTransfer.1 hbase)
          (PeriodLedger.ledgerTransfer_baseline.symm.trans hb)
        show _ ≤ w.meter
        omega
  | fail push =>
      have htotal : (w.step (.fail push)).pendingTotal + _ = _ := h.pendingTotal_update rfl
      refine ⟨h.finite_update rfl, h.dated, ?_, fun b hbase hb => ?_⟩
      · show w.ledger.spentBytes + _ ≤ w.meter
        omega
      · have hadopted := h.adopted b hbase hb
        show w.ledger.spentBytes + _ + b ≤ w.meter
        omega
  | others bytes =>
      refine ⟨h.finite, h.dated, hbilled.trans (Nat.le_add_right _ _), fun b hbase hb => ?_⟩
      exact (h.adopted b hbase hb).trans (Nat.le_add_right _ _)
  | reset =>
      refine ⟨h.finite, h.dated.resetSpend, ?_, fun b hbase _ => ?_⟩
      · show w.ledger.resetSpend.spentBytes + w.pendingTotal ≤ w.meter
        rw [h.dated.spentBytes_resetSpend]
        omega
      · exact absurd hbase h.dated.not_hasBaseline_resetSpend
  | reconcile => exact h.reconcile (hquiet rfl)

/-! ## Runs -/

/-- A reconciliation has run since the last reset. -/
def Reconciled (acts : List MeterAction) : Prop :=
  ∃ past rest, acts = past ++ .reconcile :: rest ∧ .reset ∉ rest

lemma hasBaseline_reconcile : (w.step .reconcile).ledger.HasBaseline := by
  rw [step_reconcile_ledger]
  rcases w.ledger.reconcileToMeter_cases w.meter with
    ⟨-, hl⟩ | ⟨b, hbase, -, -, hl⟩ | ⟨b, hbase, -, -, hl⟩ <;> rw [hl]
  · exact PeriodLedger.hasBaseline_adoptBaseline
  · exact PeriodLedger.hasBaseline_recordBytes.2 hbase
  · exact hbase

/-- Only a reset leaves the period without its baseline. -/
lemma hasBaseline_step (h : w.ledger.HasBaseline) {a : MeterAction} (ha : a ≠ .reset) :
    (w.step a).ledger.HasBaseline := by
  cases a with
  | record push => exact PeriodLedger.hasBaseline_ledgerTransfer.2 h
  | reset => exact absurd rfl ha
  | reconcile => exact hasBaseline_reconcile
  | _ => exact h

lemma hasBaseline_run (h : w.ledger.HasBaseline) {acts : List MeterAction}
    (hacts : .reset ∉ acts) : (run step w acts).ledger.HasBaseline := by
  induction acts generalizing w with
  | nil => exact h
  | cons a acts ih =>
      rw [List.mem_cons, not_or] at hacts
      exact ih (hasBaseline_step h (Ne.symm hacts.1)) hacts.2

/-- The current period has a baseline once it is reconciled. -/
lemma Reconciled.hasBaseline {acts : List MeterAction} (h : Reconciled acts) :
    (run step w acts).ledger.HasBaseline := by
  obtain ⟨past, rest, rfl, hrest⟩ := h
  rw [run_append, run_cons]
  exact hasBaseline_run hasBaseline_reconcile hrest

/-- Where the reconciliations are made on an idle device, the account stays balanced. -/
theorem balanced_run (h : w.Balanced) {acts : List MeterAction}
    (hquiet : Along step QuietReconcile w acts) : (run step w acts).Balanced :=
  run_invariant (fun _ _ hw ha => hw.step ha) h hquiet

/-- **No double count.**  Where no reconciliation falls between the billing of a push and its
record, a period that was reconciled records at most what the meter has moved beyond the adopted
baseline, and exactly that when a reconciliation came last. -/
theorem recorded_le_metered (scope : String) (history : Nat) (acts : List MeterAction)
    (hquiet : Along step QuietReconcile (start scope history) acts) (hrec : Reconciled acts) :
    ∃ b, (run step (start scope history) acts).ledger.reconcileBaselineBytes = some b ∧
      ((run step (start scope history) acts).Idle →
        (run step (start scope history) acts).ledger.spentBytes ≤
          (run step (start scope history) acts).meter - b) ∧
      (acts.getLast? = some .reconcile →
        (run step (start scope history) acts).ledger.spentBytes =
          (run step (start scope history) acts).meter - b) := by
  have hbase := hrec.hasBaseline (w := start scope history)
  obtain ⟨b, hb⟩ := Option.isSome_iff_exists.1 hbase.1
  refine ⟨b, hb, fun _ => ?_, fun hlast => ?_⟩
  · have hadopted := (balanced_run balanced_start hquiet).adopted b hbase hb
    omega
  · obtain ⟨past, rfl⟩ := List.getLast?_eq_some_iff.1 hlast
    rw [along_append, along_cons] at hquiet
    obtain ⟨c, -, hc, hlevel⟩ :=
      (balanced_run balanced_start hquiet.1).reconcile_level (hquiet.2.1 rfl)
    rw [run_append, run_cons, run_nil] at hb ⊢
    obtain rfl : b = c := Option.some.inj (hb.symm.trans hc)
    have hmeter : ((run step (start scope history) past).step .reconcile).meter =
      (run step (start scope history) past).meter := rfl
    omega

/-- A push is billed and recorded, the ledger reconciled, another device billed, and the ledger
reconciled again. -/
def quietDay : List MeterAction :=
  [.put 0 300, .record 0, .reconcile, .others 700, .put 1 40, .put 1 60, .record 1, .reconcile]

theorem recorded_le_metered_quietDay :
    (run step (start "profile" 5000) quietDay).ledger.spentBytes ≤
      (run step (start "profile" 5000) quietDay).meter - 5000 := by
  have hidle : (run step (start "profile" 5000) quietDay).Idle := by
    intro push
    simp [quietDay, step, start]
  have hquiet : Along step QuietReconcile (start "profile" 5000) quietDay := by
    simp [quietDay, QuietReconcile, Idle, step, start, Function.update_apply]
  obtain ⟨b, hb, hle, -⟩ := recorded_le_metered "profile" 5000 quietDay hquiet
    ⟨[.put 0 300, .record 0], [.others 700, .put 1 40, .put 1 60, .record 1, .reconcile], rfl,
      by decide⟩
  obtain rfl : 5000 = b := Option.some.inj hb
  exact hle hidle

/-- A reconciliation between the billing of a push and its record. -/
def reconciledInFlight : List MeterAction := [.put 0 300, .reconcile, .record 0]

/-- There the bytes of the push are in the baseline and in the period. -/
theorem inFlight_counted_twice :
    ¬ ∀ (scope : String) (history : Nat) (acts : List MeterAction), Reconciled acts →
      (run step (start scope history) acts).Idle →
      ∃ b, (run step (start scope history) acts).ledger.reconcileBaselineBytes = some b ∧
        (run step (start scope history) acts).ledger.spentBytes ≤
          (run step (start scope history) acts).meter - b := by
  intro hclaim
  have hidle : (run step (start "profile" 0) reconciledInFlight).Idle := by
    intro push
    simp [reconciledInFlight, step, start]
  obtain ⟨b, hb, hle⟩ := hclaim "profile" 0 reconciledInFlight
    ⟨[.put 0 300], [.record 0], rfl, by decide⟩ hidle
  obtain rfl : 300 = b := Option.some.inj hb
  exact absurd hle (by decide)

end Metered

end Ciss
