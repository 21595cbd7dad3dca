import Ciss.Framework.Delimited

/-!
# The `chain.counter` kind: entries, links and recomputation

The pure half of the append-only accounting chain.  An entry is a *step*, which records
`{delta, total, prev_entry_hash}`, or a *checkpoint*, which closes over the chain behind it and
carries the balance forward.  `verifyStep` and `verifyCheckpoint` say when a proposed entry
continues the chain whose head is `prev`, each refusal quoting the real values; `headHash` is
what a successor must name; `recomputeTotal` walks a whole stored chain, re-deriving every link
and re-adding every delta.

SHA-256 is the parameter `sha256Hex`, from bytes to lowercase hex; nothing in this module
assumes anything about it.  A `u64` is a natural number and an `i64` or `i128` an integer: no
arithmetic here can leave its source type, because the only sum is taken in `i128` and the only
successor is of a sequence number read from an `i64` column.
-/

namespace Ciss

/-- The chain-counter kind tag. -/
def chainCounterKind : String := "chain.counter"

/-- The predecessor hash a first (genesis) entry names: 64 zero hex digits. -/
def genesisPrevHash : String :=
  "0000000000000000000000000000000000000000000000000000000000000000"

/-- A `chain.counter` step body: a signed step in the running total. -/
structure ChainCounterBody where
  /-- The signed change this entry applies; negative for a correction. -/
  delta : Int
  /-- The running total after `delta`. -/
  total : Nat
  /-- The hash of the predecessor, or `genesisPrevHash`. -/
  prevEntryHash : String
  deriving DecidableEq, Repr

/-- A checkpoint body: a signed balance-forward marker. -/
structure CheckpointBody where
  /-- The running total this checkpoint closes at. -/
  closingTotal : Nat
  /-- The hash of the entry this checkpoint closes over. -/
  chainHeadHash : String
  /-- The hash of the prior checkpoint, or `genesisPrevHash`. -/
  prevCheckpoint : String
  deriving DecidableEq, Repr

/-- A chain write is a step or a checkpoint. -/
inductive ChainStep where
  | checkpoint (body : CheckpointBody)
  | step (body : ChainCounterBody)
  deriving DecidableEq, Repr

/-- The canonical fold of a step body, what the assertion signature binds. -/
def chainCounterBodyFold (body : ChainCounterBody) : String :=
  String.join
    ["delta=", body.delta.repr, ";total=", body.total.repr, ";prev=", body.prevEntryHash]

/-- The canonical fold of a checkpoint body, distinct from every step fold. -/
def checkpointBodyFold (body : CheckpointBody) : String :=
  String.join
    ["checkpoint;closing_total=", body.closingTotal.repr, ";head=", body.chainHeadHash,
      ";prev_checkpoint=", body.prevCheckpoint]

namespace ChainStep

/-- The canonical fold for whichever shape this is. -/
def fold : ChainStep → String
  | .step b => chainCounterBodyFold b
  | .checkpoint b => checkpointBodyFold b

/-- Whether this write is a checkpoint. -/
def isCheckpoint : ChainStep → Bool
  | .step _ => false
  | .checkpoint _ => true

/-- The running total the entry carries: a step's `total`, a checkpoint's `closing_total`. -/
def total : ChainStep → Nat
  | .step b => b.total
  | .checkpoint b => b.closingTotal

/-- What the entry adds to the running total; a checkpoint adds nothing. -/
def delta : ChainStep → Int
  | .step b => b.delta
  | .checkpoint _ => 0

end ChainStep

/-- The text `entry_hash` and `checkpoint_hash` digest: the route, the seq and the body's fold.
The source writes the two bodies' folds out again in the two format strings; they are the same
texts. -/
def entryPreimage (did kind : String) (subkey : Option String) (seq : Nat) (fold : String) :
    String :=
  String.join [did, "|", kind, "|", subkey.getD "", "|", seq.repr, "|", fold]

/-- The minimal view of the stored predecessor a verification step needs. -/
structure PrevEntry where
  seq : Nat
  total : Nat
  entryHash : String
  deriving DecidableEq, Repr

/-- Why a proposed entry does not continue the stored chain. -/
inductive ChainBreak where
  | seq (expected got : Nat)
  | total (prevTotal : Nat) (delta expected : Int) (got : Nat)
  | prevHash (expected got : String)
  | closingTotal (runningTotal closingTotal : Nat)
  | prevCheckpoint (expected got : String)
  deriving DecidableEq, Repr

/-- A one-line reason quoting the real values. -/
def ChainBreak.reason : ChainBreak → String
  | .seq expected got =>
      String.join ["seq ", got.repr, " is not the next entry (expected ", expected.repr, ")"]
  | .total prevTotal delta expected got =>
      String.join ["total ", got.repr, " does not follow: prev ", prevTotal.repr, " + delta ",
        delta.repr, " = ", expected.repr]
  | .prevHash expected got =>
      String.join ["prev_entry_hash ", got, " does not match the chain head ", expected]
  | .closingTotal running closing =>
      String.join ["checkpoint closing_total ", closing.repr,
        " does not equal the running total ", running.repr]
  | .prevCheckpoint expected got =>
      String.join ["prev_checkpoint ", got, " does not match the prior checkpoint ", expected]

/-! ## Verification of one entry -/

/-- Verify that `body` at `seq` continues the chain whose head is `prev` (`none` at genesis):
contiguous seq, a correct predecessor link, and `total = prev.total + delta`, in this order. -/
def verifyStep (prev : Option PrevEntry) (body : ChainCounterBody) (seq : Nat) :
    Except ChainBreak Unit :=
  let (expectedSeq, prevTotal, expectedPrevHash) :=
    match prev with
    | none => (1, 0, genesisPrevHash)
    | some p => (p.seq + 1, p.total, p.entryHash)
  if seq ≠ expectedSeq then
    .error (.seq expectedSeq seq)
  else if body.prevEntryHash ≠ expectedPrevHash then
    .error (.prevHash expectedPrevHash body.prevEntryHash)
  else if (body.total : Int) ≠ (prevTotal : Int) + body.delta then
    .error (.total prevTotal body.delta ((prevTotal : Int) + body.delta) body.total)
  else
    .ok ()

/-- Verify a checkpoint over the chain whose head is `prev`, given the expected prior
checkpoint: contiguous seq, a link to the head it closes, the running total, and the
prior-checkpoint link, in this order. -/
def verifyCheckpoint (prev : PrevEntry) (expectedPrevCheckpoint : String)
    (body : CheckpointBody) (seq : Nat) : Except ChainBreak Unit :=
  if seq ≠ prev.seq + 1 then
    .error (.seq (prev.seq + 1) seq)
  else if body.chainHeadHash ≠ prev.entryHash then
    .error (.prevHash prev.entryHash body.chainHeadHash)
  else if body.closingTotal ≠ prev.total then
    .error (.closingTotal prev.total body.closingTotal)
  else if body.prevCheckpoint ≠ expectedPrevCheckpoint then
    .error (.prevCheckpoint expectedPrevCheckpoint body.prevCheckpoint)
  else
    .ok ()

lemma verifyStep_none_iff {body : ChainCounterBody} {seq : Nat} :
    verifyStep none body seq = .ok () ↔
      seq = 1 ∧ body.prevEntryHash = genesisPrevHash ∧ (body.total : Int) = body.delta := by
  unfold verifyStep
  grind

lemma verifyStep_some_iff {p : PrevEntry} {body : ChainCounterBody} {seq : Nat} :
    verifyStep (some p) body seq = .ok () ↔
      seq = p.seq + 1 ∧ body.prevEntryHash = p.entryHash ∧
        (body.total : Int) = (p.total : Int) + body.delta := by
  unfold verifyStep
  grind

lemma verifyCheckpoint_iff {p : PrevEntry} {expected : String} {body : CheckpointBody}
    {seq : Nat} :
    verifyCheckpoint p expected body seq = .ok () ↔
      seq = p.seq + 1 ∧ body.chainHeadHash = p.entryHash ∧ body.closingTotal = p.total ∧
        body.prevCheckpoint = expected := by
  unfold verifyCheckpoint
  grind

/-- The hash a valid entry names as its predecessor. -/
def ChainStep.link : ChainStep → String
  | .step b => b.prevEntryHash
  | .checkpoint b => b.chainHeadHash

/-! ## Entries and recomputation -/

/-- A full chain entry as recomputation sees it. -/
structure ChainEntry where
  did : String
  kind : String
  subkey : Option String
  seq : Nat
  step : ChainStep
  deriving DecidableEq, Repr

section

variable (sha256Hex : Bytes → String)

/-- The hash of a step entry, the value its successor records as `prev_entry_hash`. -/
def entryHash (did kind : String) (subkey : Option String) (seq : Nat)
    (body : ChainCounterBody) : String :=
  sha256Hex (asBytes (entryPreimage did kind subkey seq (chainCounterBodyFold body)))

/-- The hash of a checkpoint entry. -/
def checkpointHash (did kind : String) (subkey : Option String) (seq : Nat)
    (body : CheckpointBody) : String :=
  sha256Hex (asBytes (entryPreimage did kind subkey seq (checkpointBodyFold body)))

/-- This entry's hash: `entryHash` for a step, `checkpointHash` for a checkpoint. -/
def ChainEntry.headHash (e : ChainEntry) : String :=
  match e.step with
  | .step b => entryHash sha256Hex e.did e.kind e.subkey e.seq b
  | .checkpoint b => checkpointHash sha256Hex e.did e.kind e.subkey e.seq b

lemma ChainEntry.headHash_eq (e : ChainEntry) :
    e.headHash sha256Hex =
      sha256Hex (asBytes (entryPreimage e.did e.kind e.subkey e.seq e.step.fold)) := by
  unfold ChainEntry.headHash
  cases e.step <;> rfl

/-- The view of an entry its successor is verified against. -/
def ChainEntry.asPrev (e : ChainEntry) : PrevEntry :=
  ⟨e.seq, e.step.total, e.headHash sha256Hex⟩

/-- The loop variables of `recompute_total`: the head so far and the last checkpoint's hash. -/
abbrev RecomputeState := Option PrevEntry × String

/-- One turn of the loop of `recompute_total`.  A leading checkpoint is a compacted anchor and
is not checked: there is nothing to check it against. -/
def recomputeEntry (st : RecomputeState) (e : ChainEntry) : Except ChainBreak RecomputeState :=
  let checked : Except ChainBreak Unit :=
    match e.step with
    | .step body => verifyStep st.1 body e.seq
    | .checkpoint body =>
        match st.1 with
        | none => .ok ()
        | some prev => verifyCheckpoint prev st.2 body e.seq
  match checked with
  | .error brk => .error brk
  | .ok () =>
      .ok (some (e.asPrev sha256Hex),
        if e.step.isCheckpoint then e.headHash sha256Hex else st.2)

/-- The loop of `recompute_total` over the entries, in seq order. -/
def recomputeFrom (st : RecomputeState) (entries : List ChainEntry) :
    Except ChainBreak RecomputeState :=
  entries.foldlM (recomputeEntry sha256Hex) st

/-- Recompute a chain from its entries, returning the verified final total (0 if empty). -/
def recomputeTotal (entries : List ChainEntry) : Except ChainBreak Nat :=
  match recomputeFrom sha256Hex (none, genesisPrevHash) entries with
  | .error brk => .error brk
  | .ok st => .ok (st.1.elim 0 PrevEntry.total)

variable {sha256Hex}

@[simp] lemma recomputeFrom_nil (st : RecomputeState) :
    recomputeFrom sha256Hex st [] = .ok st := rfl

lemma recomputeFrom_cons (st : RecomputeState) (e : ChainEntry) (es : List ChainEntry) :
    recomputeFrom sha256Hex st (e :: es) =
      (recomputeEntry sha256Hex st e).bind (recomputeFrom sha256Hex · es) := by
  unfold recomputeFrom
  rw [List.foldlM_cons]
  rfl

lemma recomputeFrom_append (st : RecomputeState) (es es' : List ChainEntry) :
    recomputeFrom sha256Hex st (es ++ es') =
      (recomputeFrom sha256Hex st es).bind (recomputeFrom sha256Hex · es') := by
  unfold recomputeFrom
  rw [List.foldlM_append]
  rfl

/-- What a successful turn of the loop leaves behind depends on the entry only, apart from the
last checkpoint's hash. -/
lemma recomputeEntry_ok {st st' : RecomputeState} {e : ChainEntry}
    (h : recomputeEntry sha256Hex st e = .ok st') :
    st'.1 = some (e.asPrev sha256Hex) ∧
      st'.2 = if e.step.isCheckpoint then e.headHash sha256Hex else st.2 := by
  unfold recomputeEntry at h
  dsimp only at h
  split at h
  · cases h
  · cases h
    exact ⟨rfl, rfl⟩

/-- A leading checkpoint is accepted as an anchor whatever it says. -/
lemma recomputeEntry_anchor {e : ChainEntry} {l : String} (h : e.step.isCheckpoint = true) :
    recomputeEntry sha256Hex (none, l) e =
      .ok (some (e.asPrev sha256Hex), e.headHash sha256Hex) := by
  unfold recomputeEntry
  cases hs : e.step with
  | step b => simp [hs, ChainStep.isCheckpoint] at h
  | checkpoint b => simp [ChainStep.isCheckpoint]

/-- An accepted entry that has a predecessor is its contiguous successor and names its hash. -/
lemma recomputeEntry_some_ok {p : PrevEntry} {l : String} {st' : RecomputeState}
    {e : ChainEntry} (h : recomputeEntry sha256Hex (some p, l) e = .ok st') :
    e.seq = p.seq + 1 ∧ e.step.link = p.entryHash ∧
      (e.step.total : Int) = (p.total : Int) + e.step.delta := by
  unfold recomputeEntry at h
  dsimp only at h
  split at h
  · cases h
  · rename_i hchk
    cases hs : e.step with
    | step b =>
        rw [hs] at hchk
        obtain ⟨hseq, hlink, htot⟩ := verifyStep_some_iff.mp hchk
        exact ⟨hseq, hlink, htot⟩
    | checkpoint b =>
        rw [hs] at hchk
        obtain ⟨hseq, hlink, htot, -⟩ := verifyCheckpoint_iff.mp hchk
        exact ⟨hseq, hlink, by simp [ChainStep.total, ChainStep.delta, htot]⟩

/-- An accepted leading step is a genesis entry. -/
lemma recomputeEntry_none_ok {l : String} {st' : RecomputeState} {e : ChainEntry}
    (h : recomputeEntry sha256Hex (none, l) e = .ok st')
    (hstep : e.step.isCheckpoint = false) :
    e.seq = 1 ∧ e.step.link = genesisPrevHash ∧ (e.step.total : Int) = e.step.delta := by
  unfold recomputeEntry at h
  dsimp only at h
  split at h
  · cases h
  · rename_i hchk
    cases hs : e.step with
    | step b =>
        rw [hs] at hchk
        exact verifyStep_none_iff.mp hchk
    | checkpoint b => simp [hs, ChainStep.isCheckpoint] at hstep

/-- After an accepted non-empty list the head is the last entry's. -/
lemma recomputeFrom_concat_ok {st st' : RecomputeState} {es : List ChainEntry} {e : ChainEntry}
    (h : recomputeFrom sha256Hex st (es ++ [e]) = .ok st') :
    ∃ st₁, recomputeFrom sha256Hex st es = .ok st₁ ∧
      recomputeEntry sha256Hex st₁ e = .ok st' ∧ st'.1 = some (e.asPrev sha256Hex) := by
  rw [recomputeFrom_append] at h
  cases hes : recomputeFrom sha256Hex st es with
  | error brk => rw [hes] at h; cases h
  | ok st₁ =>
      rw [hes] at h
      simp only [Except.bind, recomputeFrom_cons, recomputeFrom_nil] at h
      cases he : recomputeEntry sha256Hex st₁ e with
      | error brk => rw [he] at h; cases h
      | ok st₂ =>
          rw [he] at h
          cases h
          exact ⟨st₁, rfl, he, (recomputeEntry_ok he).1⟩

end

end Ciss
