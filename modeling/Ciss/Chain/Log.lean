import Mathlib.Algebra.Ring.Int.Defs
import Mathlib.Data.List.Induction
import Ciss.Chain.Store
import Ciss.Framework.Outcome

/-!
# The history behind a chain

The rows of a chain are what compaction has left of it.  This module puts the chain's full
history back under them: the list of every write the server has accepted, as signed.  An
abstract chain is such a list, and `History.put` says what the server answers to the next write
in terms of the list alone: no tables, no columns, no compaction.

`Tracks` connects the two levels.  A store tracks a history when its rows are the history's own
rows from some checkpoint on (or all of them), its latest-record row is the last write's, and
every total of the history fits an `i64` column.  `putRecord_tracks` is the refinement: over a
store that tracks a history, `op_put_assertion` answers what the abstract chain answers, and an
accepted write whose total fits leaves a store that tracks the longer history.
`compact_tracks` says compaction changes no history.  Soundness of the chain over whole runs and
independence of compaction are both read off the history.
-/

namespace Ciss

/-! ## Recomputation of a whole list -/

section

variable {sha256Hex : Bytes → String} {st st' : RecomputeState} {p : PrevEntry} {l : String}
  {es : List ChainEntry}

/-- The head and the last checkpoint that an accepted list leaves behind. -/
lemma recomputeFrom_state (h : recomputeFrom sha256Hex st es = .ok st') :
    st'.1 = (es.getLast?.map (ChainEntry.asPrev sha256Hex)).or st.1 ∧
      st'.2 = (((es.filter fun e => e.step.isCheckpoint).getLast?).map
        (ChainEntry.headHash sha256Hex)).getD st.2 := by
  induction es using List.reverseRecOn generalizing st' with
  | nil =>
      cases h
      simp
  | append_singleton es e ih =>
      obtain ⟨st₁, hes, he, -⟩ := recomputeFrom_concat_ok h
      obtain ⟨h₁, h₂⟩ := recomputeEntry_ok he
      refine ⟨by simp [h₁], ?_⟩
      rw [h₂]
      by_cases hc : e.step.isCheckpoint
      · simp [hc, List.filter_append]
      · simpa [hc, List.filter_append] using (ih hes).2

/-- The first turn of an accepted walk leaves the entry itself as the head. -/
lemma recomputeFrom_cons_ok {e : ChainEntry}
    (h : recomputeFrom sha256Hex st (e :: es) = .ok st') :
    ∃ l', recomputeEntry sha256Hex st e = .ok (some (e.asPrev sha256Hex), l') ∧
      recomputeFrom sha256Hex (some (e.asPrev sha256Hex), l') es = .ok st' := by
  rw [recomputeFrom_cons] at h
  cases he : recomputeEntry sha256Hex st e with
  | error brk => rw [he] at h; cases h
  | ok st₁ =>
      rw [he] at h
      have hst₁ : st₁ = (some (e.asPrev sha256Hex), st₁.2) :=
        Prod.ext (recomputeEntry_ok he).1 rfl
      rw [hst₁] at h
      exact ⟨st₁.2, by rw [← hst₁], h⟩

/-- Behind a predecessor, accepted entries count up from it. -/
lemma recomputeFrom_seq_lt (h : recomputeFrom sha256Hex (some p, l) es = .ok st') :
    (∀ e ∈ es, p.seq < e.seq) ∧ es.Pairwise (fun e e' => e.seq < e'.seq) := by
  induction es generalizing p l with
  | nil => simp
  | cons e es ih =>
      obtain ⟨l', he, hes⟩ := recomputeFrom_cons_ok h
      have hseq := (recomputeEntry_some_ok he).1
      obtain ⟨hgt, hpw⟩ := ih hes
      have hgt' : ∀ e' ∈ es, e.seq < e'.seq := hgt
      refine ⟨?_, List.pairwise_cons.mpr ⟨hgt', hpw⟩⟩
      intro e' he'
      rcases List.mem_cons.mp he' with rfl | hmem
      · omega
      · have := hgt' e' hmem
        omega

/-- Accepted entries have increasing seqs. -/
lemma recomputeFrom_pairwise (h : recomputeFrom sha256Hex (none, l) es = .ok st') :
    es.Pairwise (fun e e' => e.seq < e'.seq) := by
  cases es with
  | nil => simp
  | cons e es =>
      obtain ⟨l', -, hes⟩ := recomputeFrom_cons_ok h
      obtain ⟨hgt, hpw⟩ := recomputeFrom_seq_lt hes
      exact List.pairwise_cons.mpr ⟨hgt, hpw⟩

/-- Recomputation from a checkpoint on gives what recomputation of the full list gives. -/
lemma recomputeFrom_of_checkpoint {pre rest : List ChainEntry} {c : ChainEntry} {l' : String}
    (hc : c.step.isCheckpoint = true)
    (h : recomputeFrom sha256Hex st (pre ++ c :: rest) = .ok st') :
    recomputeFrom sha256Hex (none, l') (c :: rest) = .ok st' := by
  rw [recomputeFrom_append] at h
  cases hpre : recomputeFrom sha256Hex st pre with
  | error brk => rw [hpre] at h; cases h
  | ok st₁ =>
      rw [hpre] at h
      obtain ⟨l₁, he, hrest⟩ := recomputeFrom_cons_ok h
      have hl₁ : l₁ = c.headHash sha256Hex := by
        have := (recomputeEntry_ok he).2
        rwa [if_pos hc] at this
      rw [recomputeFrom_cons, recomputeEntry_anchor hc, ← hl₁]
      exact hrest

/-- The total an accepted list ends at is the one it starts from plus every delta. -/
lemma recomputeFrom_total (h : recomputeFrom sha256Hex (some p, l) es = .ok st') :
    ∃ q, st'.1 = some q ∧
      (q.total : Int) = (p.total : Int) + (es.map fun e => e.step.delta).sum := by
  induction es generalizing p l with
  | nil =>
      cases h
      exact ⟨p, rfl, by simp⟩
  | cons e es ih =>
      obtain ⟨l', he, hes⟩ := recomputeFrom_cons_ok h
      have htot := (recomputeEntry_some_ok he).2.2
      obtain ⟨q, hq, hsum⟩ := ih hes
      refine ⟨q, hq, ?_⟩
      rw [hsum, List.map_cons, List.sum_cons, ← Int.add_assoc, ← htot]
      rfl

/-- A list that begins with a step ends at the sum of its deltas. -/
lemma recomputeFrom_total_of_step {e : ChainEntry} (hstep : e.step.isCheckpoint = false)
    (h : recomputeFrom sha256Hex (none, l) (e :: es) = .ok st') :
    ∃ q, st'.1 = some q ∧
      (q.total : Int) = ((e :: es).map fun e => e.step.delta).sum := by
  obtain ⟨l', he, hes⟩ := recomputeFrom_cons_ok h
  have htot := (recomputeEntry_none_ok he hstep).2.2
  obtain ⟨q, hq, hsum⟩ := recomputeFrom_total hes
  refine ⟨q, hq, ?_⟩
  rw [hsum, List.map_cons, List.sum_cons, ← htot]
  rfl

end

/-! ## Columns and rows -/

lemma ofColumn_toColumn {n : Nat} (h : n ≤ i64Max) : ofColumn (toColumn n) = n := by
  simp [toColumn, ofColumn, h]

lemma toColumn_lt_iff {m n : Nat} (hm : m ≤ i64Max) (hn : n ≤ i64Max) :
    toColumn m < toColumn n ↔ m < n := by
  simp [toColumn, hm, hn]

/-- The column saturates: a successor of a seq that fits either fits too, or lands on it. -/
lemma toColumn_succ_of_not_le {n : Nat} (hn : n ≤ i64Max) (h : ¬ n + 1 ≤ i64Max) :
    toColumn (n + 1) = toColumn n := by
  have heq : n = i64Max := by omega
  simp [toColumn, heq]

/-- A row behind every other is inserted at the end. -/
lemma insertRow_of_forall_lt {rows : List ChainRow} {row : ChainRow}
    (h : ∀ r ∈ rows, r.seq < row.seq) : insertRow rows row = .ok (rows ++ [row]) := by
  have hany : rows.any (fun r => r.seq = row.seq) = false := by
    rw [List.any_eq_false]
    intro r hr
    have := h r hr
    simp only [decide_eq_true_eq]
    omega
  have hins : rows.orderedInsert (fun r r' => r.seq ≤ r'.seq) row = rows ++ [row] := by
    clear hany
    induction rows with
    | nil => rfl
    | cons r rows ih =>
        have hlt := h r (by simp)
        rw [List.orderedInsert_cons, if_neg (by omega),
          ih (fun r' hr' => h r' (List.mem_cons_of_mem _ hr')), List.cons_append]
  rw [insertRow, hany, hins]
  rfl

lemma insertRow_of_mem {rows : List ChainRow} {row r : ChainRow} (hr : r ∈ rows)
    (hseq : r.seq = row.seq) : insertRow rows row = .error .constraintViolation := by
  have hany : rows.any (fun r => r.seq = row.seq) = true :=
    List.any_eq_true.mpr ⟨r, hr, by simpa using hseq⟩
  rw [insertRow, hany]
  rfl

/-! ## Histories -/

/-- A write the server accepted: the record, and the chain step its body holds. -/
structure AcceptedWrite where
  record : SignedAssertion
  step : ChainStep

/-- The prior checkpoint a chain step names; a step names none. -/
def ChainStep.priorCheckpoint : ChainStep → String
  | .step _ => ""
  | .checkpoint b => b.prevCheckpoint

namespace AcceptedWrite

/-- The chain entry a write makes. -/
def entry (w : AcceptedWrite) : ChainEntry :=
  ⟨w.record.did, w.record.kind, w.record.subkey, w.record.seq, w.step⟩

/-- The row of `chain_entry` that stores a write. -/
def row (S : ChainServer) (w : AcceptedWrite) : ChainRow :=
  ⟨toColumn w.record.seq, w.step.delta, toColumn w.step.total, w.step.link,
    w.entry.headHash S.crypto.sha256Hex, w.step.isCheckpoint, w.step.priorCheckpoint,
    w.record.toJson, (makeAck S.crypto w.record S.attestKeypair).toJson⟩

/-- The row of `assertion` that stores a write. -/
def latestRow (S : ChainServer) (w : AcceptedWrite) : AssertionRow :=
  ⟨toColumn w.record.seq, w.record.toJson,
    (makeAck S.crypto w.record S.attestKeypair).toJson⟩

/-- The write's seq and total survive the 64-bit columns. -/
def Fits (w : AcceptedWrite) : Prop := w.record.seq ≤ i64Max ∧ w.step.total ≤ i64Max

end AcceptedWrite

/-- The head a successor of the history must follow. -/
def History.head (S : ChainServer) (L : List AcceptedWrite) : Option PrevEntry :=
  L.getLast?.map fun w => w.entry.asPrev S.crypto.sha256Hex

/-- The hash of the history's latest checkpoint. -/
def History.checkpoint (S : ChainServer) (L : List AcceptedWrite) : Option String :=
  (L.filter fun w => w.step.isCheckpoint).getLast?.map fun w => w.entry.headHash S.crypto.sha256Hex

/-- Whether a chain step continues the history `L`. -/
def History.check (S : ChainServer) (L : List AcceptedWrite) (seq : Nat) :
    ChainStep → Except ServerError Unit
  | .step body =>
      (verifyStep (History.head S L) body seq).mapError fun brk => .chainBroken brk.reason
  | .checkpoint body =>
      match History.head S L with
      | none => .error (.chainBroken "a checkpoint needs a chain to close (none exists)")
      | some prev =>
          (verifyCheckpoint prev ((History.checkpoint S L).getD genesisPrevHash) body
            seq).mapError fun brk => .chainBroken brk.reason

/-- What the chain with history `L` answers to a chain step it has authorized: does the entry
continue the history, and is there a `seq` left for it? -/
def History.append (S : ChainServer) (L : List AcceptedWrite) (record : SignedAssertion)
    (step : ChainStep) : Except ServerError AssertionSaved :=
  match History.check S L record.seq step with
  | .error e => .error e
  | .ok () =>
      if record.seq ≤ i64Max then
        .ok ⟨record.seq, (makeAck S.crypto record S.attestKeypair).toJson⟩
      else .error (.persist .constraintViolation)

/-- What the chain with history `L` answers to a submitted record. -/
def History.put (S : ChainServer) (L : List AcceptedWrite) (subkey : Option String)
    (record : SignedAssertion) : Except ServerError AssertionSaved := do
  let fold ← chainCounterFold subkey record.body
  let bytes := record.body.render.length
  if bytes > smallBodyCeilingBytes then
    throw (.bodyAboveCeiling chainCounterKind bytes smallBodyCeilingBytes)
  if (L.getLast?.map fun w => w.record.seq).any (record.seq ≤ ·) then
    throw (.assertionStale chainCounterKind record.seq)
  if !record.verify S.crypto fold none S.attestKeypair.verifyingKey then
    throw .assertionUnauthorized
  match ChainStep.fromValue record.body with
  | none => throw (.badAssertion "body is not a valid chain.counter entry")
  | some step => History.append S L record step

/-- The writes of one chain, in order: all of them addressed to it, the list as a whole accepted
by recomputation, the first a step, and every seq and total within its column. -/
structure IsHistory (S : ChainServer) (did : String) (subkey : Option String)
    (L : List AcceptedWrite) : Prop where
  target : ∀ w ∈ L, w.record.did = did ∧ w.record.kind = chainCounterKind ∧
    w.record.subkey = subkey
  valid : ∃ st, recomputeFrom S.crypto.sha256Hex (none, genesisPrevHash)
    (L.map AcceptedWrite.entry) = .ok st
  genesis : ∀ w ∈ L.head?, w.step.isCheckpoint = false
  fits : ∀ w ∈ L, w.Fits
  subkey_valid : L ≠ [] → subkeyValid subkey = true

/-- The rows are the history's own, from a checkpoint on or from its beginning. -/
def Retains (S : ChainServer) (rows : List ChainRow) (L : List AcceptedWrite) : Prop :=
  ∃ pre kept, L = pre ++ kept ∧ rows = kept.map (AcceptedWrite.row S) ∧
    (pre = [] ∨ ∃ c rest, kept = c :: rest ∧ c.step.isCheckpoint = true)

/-- The store holds what it must hold of the chain with history `L`. -/
structure Tracks (S : ChainServer) (s : ChainStore) (did : String) (subkey : Option String)
    (L : List AcceptedWrite) : Prop where
  history : IsHistory S did subkey L
  rows : Retains S (s.chainEntry (rowKey did chainCounterKind subkey)) L
  latest : s.assertion (rowKey did chainCounterKind subkey) =
    L.getLast?.map (AcceptedWrite.latestRow S)

/-! ## What a tracking store answers to queries -/

section

variable {S : ChainServer} {s : ChainStore} {did : String} {subkey : Option String}
  {L : List AcceptedWrite} {rows : List ChainRow} {w : AcceptedWrite}

lemma Retains.getLast?_eq (h : Retains S rows L) :
    rows.getLast? = L.getLast?.map (AcceptedWrite.row S) := by
  obtain ⟨pre, kept, rfl, rfl, rfl | ⟨c, rest, rfl, -⟩⟩ := h
  · simp
  · simp [List.getLast?_append, List.getLast?_cons]

lemma Retains.checkpoint_eq (h : Retains S rows L) :
    (rows.filter ChainRow.isCheckpoint).getLast? =
      (L.filter fun w => w.step.isCheckpoint).getLast?.map (AcceptedWrite.row S) := by
  have hmap : ∀ K : List AcceptedWrite, (K.map (AcceptedWrite.row S)).filter ChainRow.isCheckpoint =
      (K.filter fun w => w.step.isCheckpoint).map (AcceptedWrite.row S) := by
    intro K
    rw [List.filter_map]
    rfl
  obtain ⟨pre, kept, rfl, rfl, rfl | ⟨c, rest, rfl, hc⟩⟩ := h
  · simp [hmap]
  · rw [hmap, List.filter_append, List.getLast?_map, List.filter_cons_of_pos (by exact hc)]
    simp [List.getLast?_append, List.getLast?_cons]

lemma Retains.subset (h : Retains S rows L) {r : ChainRow} (hr : r ∈ rows) :
    ∃ w ∈ L, r = w.row S := by
  obtain ⟨pre, kept, rfl, rfl, -⟩ := h
  obtain ⟨w, hw, rfl⟩ := List.mem_map.mp hr
  exact ⟨w, List.mem_append_right _ hw, rfl⟩

/-- The state recomputation of the full history ends in. -/
lemma IsHistory.recompute (h : IsHistory S did subkey L) :
    recomputeFrom S.crypto.sha256Hex (none, genesisPrevHash) (L.map AcceptedWrite.entry) =
      .ok (History.head S L, (History.checkpoint S L).getD genesisPrevHash) := by
  obtain ⟨st, hst⟩ := h.valid
  obtain ⟨h₁, h₂⟩ := recomputeFrom_state hst
  have hfilter : (L.map AcceptedWrite.entry).filter (fun e => e.step.isCheckpoint) =
      (L.filter fun w => w.step.isCheckpoint).map AcceptedWrite.entry := by
    rw [List.filter_map]
    rfl
  rw [hst]
  refine congrArg Except.ok (Prod.ext ?_ ?_)
  · rw [h₁]
    simp [History.head, Function.comp_def]
  · rw [h₂, hfilter]
    simp [History.checkpoint, Function.comp_def]

/-- The last write has the highest seq. -/
lemma IsHistory.seq_le_last (h : IsHistory S did subkey L) {u last : AcceptedWrite} (hu : u ∈ L)
    (hlast : L.getLast? = some last) : u.record.seq ≤ last.record.seq := by
  obtain ⟨init, rfl⟩ := List.getLast?_eq_some_iff.mp hlast
  have hpw := recomputeFrom_pairwise h.recompute
  rw [List.map_append, List.pairwise_append] at hpw
  rcases List.mem_append.mp hu with hinit | hu
  · have := hpw.2.2 u.entry (List.mem_map_of_mem hinit) last.entry (by simp)
    exact Nat.le_of_lt this
  · rw [List.mem_singleton.mp hu]

lemma IsHistory.last_fits (h : IsHistory S did subkey L) {last : AcceptedWrite}
    (hlast : L.getLast? = some last) : last.Fits :=
  h.fits last (List.mem_of_getLast? hlast)

lemma entryOfRow_row (htarget : w.record.did = did ∧ w.record.kind = chainCounterKind ∧
      w.record.subkey = subkey) (hfits : w.Fits) :
    ChainStore.entryOfRow did chainCounterKind subkey (w.row S) = w.entry := by
  obtain ⟨rfl, hkind, rfl⟩ := htarget
  obtain ⟨hseq, htotal⟩ := hfits
  rcases w with ⟨record, step | step⟩
  all_goals
    simp only [ChainStore.entryOfRow, AcceptedWrite.row, AcceptedWrite.entry,
      ChainStep.isCheckpoint, ChainStep.total, ChainStep.delta, ChainStep.link,
      ChainStep.priorCheckpoint] at hseq htotal hkind ⊢
    simp [ofColumn_toColumn hseq, ofColumn_toColumn htotal, hkind]

namespace Tracks

lemma assertionSeq_eq (h : Tracks S s did subkey L) :
    s.assertionSeq did chainCounterKind subkey = L.getLast?.map fun w => w.record.seq := by
  unfold ChainStore.assertionSeq
  rw [h.latest]
  cases hlast : L.getLast? with
  | none => rfl
  | some last =>
      have hfits := h.history.last_fits hlast
      simp [AcceptedWrite.latestRow, ofColumn_toColumn hfits.1]

lemma latestChainEntry_eq (h : Tracks S s did subkey L) :
    s.latestChainEntry did chainCounterKind subkey = History.head S L := by
  unfold ChainStore.latestChainEntry History.head
  rw [h.rows.getLast?_eq]
  cases hlast : L.getLast? with
  | none => rfl
  | some last =>
      have hfits := h.history.last_fits hlast
      simp [AcceptedWrite.row, ofColumn_toColumn hfits.1, ofColumn_toColumn hfits.2,
        ChainEntry.asPrev, AcceptedWrite.entry]

lemma latestCheckpointHash_eq (h : Tracks S s did subkey L) :
    s.latestCheckpointHash did chainCounterKind subkey = History.checkpoint S L := by
  unfold ChainStore.latestCheckpointHash History.checkpoint
  rw [h.rows.checkpoint_eq, Option.map_map]
  rfl

/-- Recomputation over the retained rows gives the total of the last write. -/
lemma recomputeTotal_eq (h : Tracks S s did subkey L) :
    recomputeTotal S.crypto.sha256Hex
        ((s.chainEntries did chainCounterKind subkey).map Prod.fst) =
      .ok (L.getLast?.elim 0 fun w => w.step.total) := by
  have hrec := h.history.recompute
  obtain ⟨pre, kept, hL, hrows, hpre⟩ := h.rows
  have hentries : (s.chainEntries did chainCounterKind subkey).map Prod.fst =
      kept.map AcceptedWrite.entry := by
    unfold ChainStore.chainEntries
    rw [hrows, List.map_map, List.map_map]
    refine List.map_congr_left fun w hw => ?_
    have hmem : w ∈ L := hL ▸ List.mem_append_right _ hw
    exact entryOfRow_row (h.history.target w hmem) (h.history.fits w hmem)
  have hkept : recomputeFrom S.crypto.sha256Hex (none, genesisPrevHash)
      (kept.map AcceptedWrite.entry) =
        .ok (History.head S L, (History.checkpoint S L).getD genesisPrevHash) := by
    rcases hpre with rfl | ⟨c, rest, rfl, hc⟩
    · rw [hL, List.nil_append] at hrec ⊢
      exact hrec
    · rw [hL, List.map_append, List.map_cons, ← hL] at hrec
      exact recomputeFrom_of_checkpoint (by exact hc) hrec
  rw [recomputeTotal, hentries, hkept]
  unfold History.head
  cases L.getLast? <;> rfl

end Tracks

end

/-! ## Appending to a tracking store -/

section

variable {S : ChainServer} {s : ChainStore} {did : String} {subkey : Option String}
  {L : List AcceptedWrite} {w : AcceptedWrite}

/-- What a write must satisfy to be accepted behind the history `L`: recomputation accepts its
entry there, an empty history takes a step only, and its seq fits the column. -/
structure Continues (S : ChainServer) (L : List AcceptedWrite) (w : AcceptedWrite) : Prop where
  accepted : ∃ st, recomputeEntry S.crypto.sha256Hex
    (History.head S L, (History.checkpoint S L).getD genesisPrevHash) w.entry = .ok st
  genesis : L = [] → w.step.isCheckpoint = false
  seq_le : w.record.seq ≤ i64Max

/-- Both verifications are the one turn of the recomputation loop. -/
lemma recomputeEntry_of_verifyStep {head : Option PrevEntry} {cp : String}
    {record : SignedAssertion} {body : ChainCounterBody}
    (h : verifyStep head body record.seq = .ok ()) :
    ∃ st, recomputeEntry S.crypto.sha256Hex (head, cp)
      (AcceptedWrite.entry ⟨record, .step body⟩) = .ok st := by
  unfold recomputeEntry AcceptedWrite.entry
  dsimp only
  rw [h]
  exact ⟨_, rfl⟩

lemma recomputeEntry_of_verifyCheckpoint {prev : PrevEntry} {cp : String}
    {record : SignedAssertion} {body : CheckpointBody}
    (h : verifyCheckpoint prev cp body record.seq = .ok ()) :
    ∃ st, recomputeEntry S.crypto.sha256Hex (some prev, cp)
      (AcceptedWrite.entry ⟨record, .checkpoint body⟩) = .ok st := by
  unfold recomputeEntry AcceptedWrite.entry
  dsimp only
  rw [h]
  exact ⟨_, rfl⟩

/-- What continues the history is what recomputation accepts behind it. -/
lemma History.check_ok {record : SignedAssertion} {step : ChainStep}
    (h : History.check S L record.seq step = .ok ()) :
    (∃ st, recomputeEntry S.crypto.sha256Hex
      (History.head S L, (History.checkpoint S L).getD genesisPrevHash)
      (AcceptedWrite.entry ⟨record, step⟩) = .ok st) ∧ (L = [] → step.isCheckpoint = false) := by
  unfold History.check at h
  cases step with
  | step body =>
      dsimp only at h
      cases hv : verifyStep (History.head S L) body record.seq with
      | error brk => rw [hv] at h; cases h
      | ok u => exact ⟨recomputeEntry_of_verifyStep hv, fun _ => rfl⟩
  | checkpoint body =>
      dsimp only at h
      cases hhead : History.head S L with
      | none => rw [hhead] at h; cases h
      | some prev =>
          rw [hhead] at h
          dsimp only at h
          cases hv : verifyCheckpoint prev ((History.checkpoint S L).getD genesisPrevHash) body
              record.seq with
          | error brk => rw [hv] at h; cases h
          | ok u =>
              refine ⟨recomputeEntry_of_verifyCheckpoint hv, ?_⟩
              rintro rfl
              cases hhead

/-- The seq of a write that continues the history is the next one. -/
lemma History.check_seq {record : SignedAssertion} (step : ChainStep)
    (h : History.check S L record.seq step = .ok ()) :
    record.seq = L.getLast?.elim 1 fun u => u.record.seq + 1 := by
  obtain ⟨⟨st, hst⟩, hgenesis⟩ := History.check_ok h
  unfold History.head at hst
  cases hlast : L.getLast? with
  | none =>
      rw [hlast] at hst
      exact (recomputeEntry_none_ok hst (hgenesis (List.getLast?_eq_none_iff.mp hlast))).1
  | some last =>
      rw [hlast] at hst
      exact (recomputeEntry_some_ok hst).1

lemma History.append_continues {record : SignedAssertion} {step : ChainStep}
    {out : AssertionSaved} (h : History.append S L record step = .ok out) :
    Continues S L ⟨record, step⟩ := by
  unfold History.append at h
  split at h
  · cases h
  · rename_i hchk
    obtain ⟨haccepted, hgenesis⟩ := History.check_ok hchk
    split at h
    · rename_i hseq
      exact ⟨haccepted, hgenesis, hseq⟩
    · cases h

/-- A history grows by a write that continues it and whose total fits. -/
lemma IsHistory.concat (h : IsHistory S did subkey L) (hc : Continues S L w)
    (htarget : w.record.did = did ∧ w.record.kind = chainCounterKind ∧ w.record.subkey = subkey)
    (hsub : subkeyValid subkey = true) (htotal : w.step.total ≤ i64Max) :
    IsHistory S did subkey (L ++ [w]) where
  target := by
    intro u hu
    rcases List.mem_append.mp hu with hu | hu
    · exact h.target u hu
    · rw [List.mem_singleton.mp hu]
      exact htarget
  valid := by
    obtain ⟨st, hst⟩ := hc.accepted
    refine ⟨st, ?_⟩
    rw [List.map_append, recomputeFrom_append, h.recompute]
    simp only [Except.bind, List.map_cons, List.map_nil, recomputeFrom_cons, hst,
      recomputeFrom_nil]
  genesis := by
    cases L with
    | nil => simpa using hc.genesis rfl
    | cons u L => simpa using h.genesis
  fits := by
    intro u hu
    rcases List.mem_append.mp hu with hu | hu
    · exact h.fits u hu
    · rw [List.mem_singleton.mp hu]
      exact ⟨hc.seq_le, htotal⟩
  subkey_valid := fun _ => hsub

/-- `INSERT` of the next write's row: it goes behind the retained rows, unless its seq saturates
the column, when it meets the last row there. -/
lemma Tracks.insertRow_eq (h : Tracks S s did subkey L)
    (hseq : w.record.seq = L.getLast?.elim 1 fun u => u.record.seq + 1) :
    insertRow (s.chainEntry (rowKey did chainCounterKind subkey)) (w.row S) =
      if w.record.seq ≤ i64Max then
        .ok (s.chainEntry (rowKey did chainCounterKind subkey) ++ [w.row S])
      else .error .constraintViolation := by
  split
  · rename_i hle
    refine insertRow_of_forall_lt fun r hr => ?_
    obtain ⟨u, hu, rfl⟩ := h.rows.subset hr
    cases hlast : L.getLast? with
    | none =>
        rw [List.getLast?_eq_none_iff.mp hlast] at hu
        cases hu
    | some last =>
        rw [hlast] at hseq
        have hle' := h.history.seq_le_last hu hlast
        refine (toColumn_lt_iff (h.history.fits u hu).1 hle).mpr ?_
        simp only [Option.elim_some] at hseq
        omega
  · rename_i hle
    cases hlast : L.getLast? with
    | none =>
        rw [hlast] at hseq
        exact absurd (by rw [hseq]; decide) hle
    | some last =>
        rw [hlast] at hseq
        have hmem : last.row S ∈ s.chainEntry (rowKey did chainCounterKind subkey) := by
          refine List.mem_of_getLast? ?_
          rw [h.rows.getLast?_eq, hlast]
          rfl
        refine insertRow_of_mem hmem ?_
        simp only [Option.elim_some] at hseq
        change toColumn last.record.seq = toColumn w.record.seq
        rw [hseq, toColumn_succ_of_not_le (h.history.last_fits hlast).1 (by omega)]

/-- The latest-record row is always replaced by the next write's. -/
lemma Tracks.upsertRow_eq (h : Tracks S s did subkey L)
    (hseq : w.record.seq = L.getLast?.elim 1 fun u => u.record.seq + 1)
    (hle : w.record.seq ≤ i64Max) :
    upsertRow (s.assertion (rowKey did chainCounterKind subkey)) (w.latestRow S) =
      w.latestRow S := by
  rw [h.latest]
  cases hlast : L.getLast? with
  | none => rfl
  | some last =>
      rw [hlast] at hseq
      simp only [Option.elim_some] at hseq
      have hlt : toColumn last.record.seq < toColumn w.record.seq :=
        (toColumn_lt_iff (h.history.last_fits hlast).1 hle).mpr (by omega)
      exact if_pos hlt

/-- The store after a write's row has been appended to its chain. -/
def ChainStore.withWrite (S : ChainServer) (s : ChainStore) (w : AcceptedWrite) : ChainStore :=
  let key := rowKey w.record.did w.record.kind w.record.subkey
  ⟨Function.update s.assertion key (some (w.latestRow S)),
    Function.update s.chainEntry key (s.chainEntry key ++ [w.row S])⟩

/-- The transaction of both appends, for the next write of a tracked chain. -/
lemma Tracks.appendRow_eq (h : Tracks S s did subkey L)
    (htarget : w.record.did = did ∧ w.record.kind = chainCounterKind ∧ w.record.subkey = subkey)
    (hseq : w.record.seq = L.getLast?.elim 1 fun u => u.record.seq + 1) :
    s.appendRow (rowKey w.record.did w.record.kind w.record.subkey) (w.row S) =
      if w.record.seq ≤ i64Max then .ok (s.withWrite S w) else .error .constraintViolation := by
  have hkey : rowKey w.record.did w.record.kind w.record.subkey =
      rowKey did chainCounterKind subkey := by
    rw [htarget.1, htarget.2.1, htarget.2.2]
  unfold ChainStore.appendRow
  rw [hkey, h.insertRow_eq hseq]
  split_ifs with hle
  · have hup := h.upsertRow_eq hseq hle
    simp only [ChainStore.withWrite, hkey]
    rw [show (⟨(w.row S).seq, (w.row S).json, (w.row S).ack⟩ : AssertionRow) = w.latestRow S from rfl,
      hup]
  · rfl

lemma Tracks.withWrite (h : Tracks S s did subkey L) (hc : Continues S L w)
    (htarget : w.record.did = did ∧ w.record.kind = chainCounterKind ∧ w.record.subkey = subkey)
    (hsub : subkeyValid subkey = true) (htotal : w.step.total ≤ i64Max) :
    Tracks S (s.withWrite S w) did subkey (L ++ [w]) where
  history := h.history.concat hc htarget hsub htotal
  rows := by
    obtain ⟨pre, kept, hL, hrows, hpre⟩ := h.rows
    refine ⟨pre, kept ++ [w], by rw [hL, List.append_assoc], ?_, ?_⟩
    · simp only [ChainStore.withWrite]
      rw [htarget.1, htarget.2.1, htarget.2.2, Function.update_self, hrows, List.map_append,
        List.map_cons, List.map_nil]
    · rcases hpre with rfl | ⟨c, rest, rfl, hcp⟩
      · exact Or.inl rfl
      · exact Or.inr ⟨c, rest ++ [w], rfl, hcp⟩
  latest := by
    simp only [ChainStore.withWrite]
    rw [htarget.1, htarget.2.1, htarget.2.2, Function.update_self]
    simp

/-! ## Compaction -/

/-- Compaction behind the latest checkpoint keeps the history and drops rows only. -/
lemma Tracks.compact (h : Tracks S s did subkey L) :
    Tracks S (s.compactBehindLatestCheckpoint did chainCounterKind subkey).1 did subkey L := by
  have hcp := h.rows.checkpoint_eq
  unfold ChainStore.compactBehindLatestCheckpoint
  dsimp only
  rw [hcp]
  cases hlast : (L.filter fun w => w.step.isCheckpoint).getLast? with
  | none => exact h
  | some c =>
      refine ⟨h.history, ?_, h.latest⟩
      have hcmem : c ∈ L.filter fun w => w.step.isCheckpoint := List.mem_of_getLast? hlast
      obtain ⟨hcL, hcstep⟩ := List.mem_filter.mp hcmem
      obtain ⟨pre, kept, hL, hrows, hpre⟩ := h.rows
      -- the latest checkpoint is among the rows kept so far
      have hck : c ∈ kept := by
        have hrow : c.row S ∈ kept.map (AcceptedWrite.row S) := by
          rw [← hrows]
          refine List.mem_of_mem_filter (p := ChainRow.isCheckpoint) (List.mem_of_getLast? ?_)
          rw [hcp, hlast]
          rfl
        rcases hpre with rfl | ⟨c₀, rest, rfl, hc₀⟩
        · rwa [hL, List.nil_append] at hcL
        · rw [hL, List.filter_append, List.getLast?_append,
            List.filter_cons_of_pos (by exact hc₀)] at hlast
          have hne : ((c₀ :: rest.filter fun w => w.step.isCheckpoint)).getLast? = some c := by
            rw [List.getLast?_cons] at hlast ⊢
            simpa using hlast
          have := List.mem_of_getLast? hne
          rcases List.mem_cons.mp this with rfl | hr
          · simp
          · exact List.mem_cons_of_mem _ (List.mem_of_mem_filter hr)
      obtain ⟨k₁, k₂, rfl⟩ := List.append_of_mem hck
      refine ⟨pre ++ k₁, c :: k₂, by rw [hL, List.append_assoc], ?_, Or.inr ⟨c, k₂, rfl, hcstep⟩⟩
      -- seqs increase along the rows, so the deletion takes exactly those before the checkpoint
      have hpw := recomputeFrom_pairwise h.history.recompute
      rw [hL, List.map_append, List.map_append, List.map_cons, List.pairwise_append,
        List.pairwise_append, List.pairwise_cons] at hpw
      obtain ⟨-, ⟨-, ⟨hafter, -⟩, hbefore⟩, -⟩ := hpw
      have hfit : ∀ u ∈ k₁ ++ c :: k₂, u.record.seq ≤ i64Max := fun u hu =>
        (h.history.fits u (hL ▸ List.mem_append_right _ hu)).1
      simp only [Option.map_some, Function.update_self, hrows, List.map_append, List.map_cons,
        List.filter_append]
      have h₁ : (k₁.map (AcceptedWrite.row S)).filter
          (fun r => !decide (r.seq < (c.row S).seq)) = [] := by
        rw [List.filter_eq_nil_iff]
        intro r hr
        obtain ⟨u, hu, rfl⟩ := List.mem_map.mp hr
        have hlt := hbefore u.entry (List.mem_map_of_mem hu) c.entry (by simp)
        have : (u.row S).seq < (c.row S).seq :=
          (toColumn_lt_iff (hfit u (List.mem_append_left _ hu)) (hfit c (by simp))).mpr hlt
        simp [this]
      have h₂ : ((c.row S) :: k₂.map (AcceptedWrite.row S)).filter
          (fun r => !decide (r.seq < (c.row S).seq)) =
            (c.row S) :: k₂.map (AcceptedWrite.row S) := by
        rw [List.filter_eq_self]
        intro r hr
        rcases List.mem_cons.mp hr with rfl | hr
        · simp
        · obtain ⟨u, hu, rfl⟩ := List.mem_map.mp hr
          have hlt := hafter u.entry (List.mem_map_of_mem hu)
          have hmem : u ∈ k₁ ++ c :: k₂ := List.mem_append_right _ (List.mem_cons_of_mem _ hu)
          have : (c.row S).seq < (u.row S).seq :=
            (toColumn_lt_iff (hfit c (by simp)) (hfit u hmem)).mpr hlt
          simp only [Bool.not_eq_eq_eq_not, Bool.not_true, decide_eq_false_iff_not, not_lt]
          omega
      rw [h₁, h₂, List.nil_append]

end

/-! ## The refinement -/

section

variable {S : ChainServer} {s s' : ChainStore} {did : String} {subkey : Option String}
  {L : List AcceptedWrite} {record : SignedAssertion} {step : ChainStep} {out : AssertionSaved}

/-- What the compaction policy makes of the store once an entry has been appended. -/
def ChainServer.settle (S : ChainServer) (did : String) (subkey : Option String)
    (step : ChainStep) (s : ChainStore) : ChainStore :=
  if step.isCheckpoint = true ∧ S.compaction = .onAck then
    (s.compactBehindLatestCheckpoint did chainCounterKind subkey).1
  else s

/-- Over a store that tracks a history, the append answers what the history answers, and the
store takes the write's row. -/
lemma Tracks.appendVerifiedChainEntry_eq (h : Tracks S s did subkey L)
    (htarget : record.did = did ∧ record.kind = chainCounterKind ∧ record.subkey = subkey)
    (hstep : ChainStep.fromValue record.body = some step) :
    S.appendVerifiedChainEntry s did chainCounterKind subkey record
        (makeAck S.crypto record S.attestKeypair) =
      (History.append S L record step).map fun out =>
        (S.settle did subkey step (s.withWrite S ⟨record, step⟩), out) := by
  unfold ChainServer.appendVerifiedChainEntry History.append
  rw [hstep]
  have hrow := fun hseq => h.appendRow_eq (w := ⟨record, step⟩) htarget hseq
  obtain ⟨rfl, hkind, rfl⟩ := htarget
  cases step with
  | step body =>
      simp only [h.latestChainEntry_eq, History.check]
      cases hv : verifyStep (History.head S L) body record.seq with
      | error brk => rfl
      | ok u =>
          have hseq : record.seq = L.getLast?.elim 1 fun u => u.record.seq + 1 :=
            History.check_seq (.step body) (by rw [History.check, hv]; rfl)
          have happend : s.appendChainEntry record (makeAck S.crypto record S.attestKeypair) body
              (entryHash S.crypto.sha256Hex record.did chainCounterKind record.subkey record.seq
                body) = if record.seq ≤ i64Max then .ok (s.withWrite S ⟨record, .step body⟩)
                  else .error .constraintViolation := by
            rw [← hkind]
            exact hrow hseq
          rw [happend]
          split_ifs with hle
          · simp [ChainServer.settle, ChainStep.isCheckpoint, Except.map]
          · rfl
  | checkpoint body =>
      simp only [h.latestChainEntry_eq, h.latestCheckpointHash_eq, History.check]
      cases hhead : History.head S L with
      | none => rfl
      | some prev =>
          dsimp only
          cases hv : verifyCheckpoint prev ((History.checkpoint S L).getD genesisPrevHash) body
              record.seq with
          | error brk => rfl
          | ok u =>
              have hseq : record.seq = L.getLast?.elim 1 fun u => u.record.seq + 1 :=
                History.check_seq (.checkpoint body)
                  (by rw [History.check, hhead]; dsimp only; rw [hv]; rfl)
              have happend : s.appendCheckpointEntry record
                  (makeAck S.crypto record S.attestKeypair) body
                  (checkpointHash S.crypto.sha256Hex record.did chainCounterKind record.subkey
                    record.seq body) =
                if record.seq ≤ i64Max then .ok (s.withWrite S ⟨record, .checkpoint body⟩)
                else .error .constraintViolation := by
                rw [← hkind]
                exact hrow hseq
              rw [happend]
              split_ifs with hle
              · cases hpol : S.compaction <;>
                  simp [ChainServer.settle, ChainStep.isCheckpoint, Except.map, hpol]
              · rfl

/-- The whole of `op_put_assertion` behind the record. -/
lemma Tracks.putRecord_eq (h : Tracks S s did subkey L)
    (htarget : record.did = did ∧ record.kind = chainCounterKind ∧ record.subkey = subkey) :
    S.putRecord s did subkey record =
      (History.put S L subkey record).map fun out =>
        ((ChainStep.fromValue record.body).elim s fun step =>
          S.settle did subkey step (s.withWrite S ⟨record, step⟩), out) := by
  unfold ChainServer.putRecord History.put
  rw [h.assertionSeq_eq]
  cases hfold : chainCounterFold subkey record.body with
  | error e => rfl
  | ok fold =>
      simp only [bind, Except.bind, throw, throwThe, MonadExceptOf.throw]
      split_ifs
      · rfl
      · rfl
      · rfl
      · cases hstep : ChainStep.fromValue record.body with
        | none =>
            simp only [ChainServer.appendVerifiedChainEntry, hstep]
            rfl
        | some step => exact h.appendVerifiedChainEntry_eq htarget hstep

end

/-! ## Accepted writes and other chains -/

section

variable {S : ChainServer} {s s' : ChainStore} {did did' : String} {subkey subkey' : Option String}
  {L : List AcceptedWrite} {record : SignedAssertion} {step : ChainStep} {out : AssertionSaved}

lemma chainCounterFold_ok {body : Value} {fold : String}
    (h : chainCounterFold subkey body = .ok fold) : subkeyValid subkey = true := by
  unfold chainCounterFold at h
  split_ifs at h with hsub
  · simpa using hsub

/-- An accepted record holds a chain step that continues the history. -/
lemma History.put_ok (h : History.put S L subkey record = .ok out) :
    subkeyValid subkey = true ∧ ∃ step, ChainStep.fromValue record.body = some step ∧
      History.append S L record step = .ok out := by
  unfold History.put at h
  cases hfold : chainCounterFold subkey record.body with
  | error e => rw [hfold] at h; cases h
  | ok fold =>
      rw [hfold] at h
      simp only [bind, Except.bind, throw, throwThe, MonadExceptOf.throw] at h
      refine ⟨chainCounterFold_ok hfold, ?_⟩
      split_ifs at h
      cases hstep : ChainStep.fromValue record.body with
      | none => rw [hstep] at h; cases h
      | some step =>
          rw [hstep] at h
          exact ⟨step, rfl, h⟩

/-- A checkpoint carries the total of the last write, which fits. -/
lemma IsHistory.checkpoint_fits (h : IsHistory S did subkey L) {body : CheckpointBody} {seq : Nat}
    (hchk : History.check S L seq (.checkpoint body) = .ok ()) : body.closingTotal ≤ i64Max := by
  unfold History.check History.head at hchk
  cases hlast : L.getLast? with
  | none => rw [hlast] at hchk; cases hchk
  | some last =>
      rw [hlast] at hchk
      simp only [Option.map_some] at hchk
      cases hv : verifyCheckpoint (last.entry.asPrev S.crypto.sha256Hex)
          ((History.checkpoint S L).getD genesisPrevHash) body seq with
      | error brk => rw [hv] at hchk; cases hchk
      | ok u =>
          rw [(verifyCheckpoint_iff.mp hv).2.2.1]
          exact (h.last_fits hlast).2

lemma Tracks.settle (h : Tracks S s did subkey L) :
    Tracks S (S.settle did subkey step s) did subkey L := by
  unfold ChainServer.settle
  split_ifs
  · exact h.compact
  · exact h

/-- An accepted write whose total fits leaves a store that tracks the longer history. -/
lemma Tracks.put (h : Tracks S s did subkey L)
    (htarget : record.did = did ∧ record.kind = chainCounterKind ∧ record.subkey = subkey)
    (hsub : subkeyValid subkey = true) (happend : History.append S L record step = .ok out)
    (htotal : step.total ≤ i64Max) :
    Tracks S (S.settle did subkey step (s.withWrite S ⟨record, step⟩)) did subkey
      (L ++ [⟨record, step⟩]) :=
  (h.withWrite (History.append_continues happend) htarget hsub htotal).settle

/-- Tracking reads one key of the tables only. -/
lemma Tracks.congr (h : Tracks S s did subkey L)
    (hrows : s'.chainEntry (rowKey did chainCounterKind subkey) =
      s.chainEntry (rowKey did chainCounterKind subkey))
    (hlatest : s'.assertion (rowKey did chainCounterKind subkey) =
      s.assertion (rowKey did chainCounterKind subkey)) :
    Tracks S s' did subkey L :=
  ⟨h.history, hrows ▸ h.rows, hlatest ▸ h.latest⟩

/-- A valid subkey shares its row key with no other. -/
lemma rowKey_inj {kind : String} (hsub : subkeyValid subkey = true)
    (h : rowKey did' kind subkey' = rowKey did kind subkey) : did' = did ∧ subkey' = subkey := by
  simp only [rowKey, Prod.mk.injEq, true_and] at h
  refine ⟨h.1, ?_⟩
  cases subkey with
  | none => simp [subkeyValid] at hsub
  | some sk =>
      cases subkey' with
      | none =>
          have hsk : sk = "" := by simpa using h.2.symm
          simp [subkeyValid, hsk] at hsub
      | some sk' => simpa using h.2

lemma compact_frame {kind : String} {key : RowKey} (hkey : key ≠ rowKey did kind subkey) :
    (s.compactBehindLatestCheckpoint did kind subkey).1.chainEntry key = s.chainEntry key := by
  unfold ChainStore.compactBehindLatestCheckpoint
  dsimp only
  split
  · rfl
  · exact Function.update_of_ne hkey _ _

lemma compact_assertion {kind : String} :
    (s.compactBehindLatestCheckpoint did kind subkey).1.assertion = s.assertion := by
  unfold ChainStore.compactBehindLatestCheckpoint
  dsimp only
  split <;> rfl

/-- A write leaves every other chain alone. -/
lemma Tracks.frame (h : Tracks S s did' subkey' L)
    (htarget : record.did = did ∧ record.kind = chainCounterKind ∧ record.subkey = subkey)
    (hkey : rowKey did' chainCounterKind subkey' ≠ rowKey did chainCounterKind subkey) :
    Tracks S (S.settle did subkey step (s.withWrite S ⟨record, step⟩)) did' subkey' L := by
  have hwrite : Tracks S (s.withWrite S ⟨record, step⟩) did' subkey' L := by
    refine h.congr ?_ ?_
    all_goals
      simp only [ChainStore.withWrite, htarget.1, htarget.2.1, htarget.2.2]
      exact Function.update_of_ne hkey _ _
  unfold ChainServer.settle
  split_ifs
  · exact hwrite.congr (compact_frame hkey) (congrFun compact_assertion _)
  · exact hwrite

/-- Compacting one chain leaves every chain's history as it was. -/
lemma Tracks.compact_any (h : Tracks S s did' subkey' L) (did : String)
    (subkey : Option String) :
    Tracks S (s.compactBehindLatestCheckpoint did chainCounterKind subkey).1 did' subkey' L := by
  by_cases hkey : rowKey did' chainCounterKind subkey' = rowKey did chainCounterKind subkey
  · have hsame : s.compactBehindLatestCheckpoint did chainCounterKind subkey =
        s.compactBehindLatestCheckpoint did' chainCounterKind subkey' := by
      unfold ChainStore.compactBehindLatestCheckpoint
      rw [hkey]
    rw [hsame]
    exact h.compact
  · exact h.congr (compact_frame hkey) (congrFun compact_assertion _)

/-- The record of an accepted request is addressed to the request's route. -/
lemma submittedRecord_target {body : Bytes} {authed : Option AuthedWrite}
    (h : S.submittedRecord did subkey body authed = .ok record) :
    record.did = did ∧ record.kind = chainCounterKind ∧ record.subkey = subkey := by
  unfold ChainServer.submittedRecord at h
  cases authed with
  | some auth =>
      dsimp only at h
      split at h
      · cases h
      · cases hparse : S.parseIntent body with
        | none => rw [hparse] at h; cases h
        | some intent =>
            rw [hparse] at h
            dsimp only at h
            cases hfold : chainCounterFold subkey intent.2 with
            | error e => rw [hfold] at h; cases h
            | ok fold =>
                rw [hfold] at h
                cases h
                exact ⟨rfl, rfl, rfl⟩
  | none =>
      dsimp only at h
      cases hparse : S.parseRecord body with
      | none => rw [hparse] at h; cases h
      | some r =>
          rw [hparse] at h
          dsimp only at h
          split at h
          · cases h
          · rename_i hroute
            cases h
            simpa only [not_or, ne_eq, not_not] using hroute

end

end Ciss
