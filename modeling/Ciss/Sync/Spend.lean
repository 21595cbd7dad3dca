import Ciss.Sync.Complete

/-!
# The ledgers and the bill

A push records its bytes in the attached ledgers once, at its end.  A put that was accepted before
the push failed is on the bill and in no ledger, and the device head, which is put after the push,
is never recorded.

`beforeStop` gives the uploads that are accepted, from the planned uploads and the server's
answers alone.  In these terms `ledger_complete_iff` says exactly when the ledgers grow by what
was accepted.
-/

namespace Ciss

/-! ## The uploads of a command -/

/-- The uploads of the tree, if the push gets that far: the tree can be encoded and no ceiling
defers it. -/
def treeUploads (P : Platform) (env : PushEnv) (opened : Bool) (d : Device) :
    List (String × Except SyncError Bytes) :=
  match planPush P env.haveSet opened d with
  | (_, .error _) => []
  | (d, .ok plan) =>
      match checkCeilings env opened d plan.wantBytes with
      | .error _ => []
      | .ok () => plan.uploads P env opened d

/-- The upload of the device head that follows the push. -/
def headUpload (P : Platform) (key : Keypair) (deviceId : String) (d : Device)
    (fsManifestCid : String) : String × Except SyncError Bytes :=
  match (DeviceHead.newSigned deviceId (d.counter + 1) fsManifestCid d.lastHead d.base key).encode
      P.codec with
  | .error e => (deviceId, .error e)
  | .ok headBytes => (P.crypto.sha256Hex headBytes, .ok headBytes)

/-- Everything a frontier backup puts: the uploads of the tree, then the head. -/
def frontierUploads (P : Platform) (key : Keypair) (env : PushEnv) (deviceId : String)
    (d : Device) : List (String × Except SyncError Bytes) :=
  match planPush P env.haveSet true d with
  | (_, .error _) => []
  | (d, .ok plan) =>
      match checkCeilings env true d plan.wantBytes with
      | .error _ => []
      | .ok () =>
          plan.uploads P env true d ++ [headUpload P key deviceId d plan.fsManifestCid]

/-- Of all uploads, the ones before the first that fails carry no bytes, or they are exactly those
of the tree. -/
def Settles (refuse : Nat → String → Option ServerError) (n : Nat)
    (tree uploads : List (String × Except SyncError Bytes)) : Prop :=
  beforeStop refuse n uploads = tree ∨ ((beforeStop refuse n uploads).map payload).sum = 0

/-! ## The ledgers -/

/-- Every ledger grew by what was accepted on the wire. -/
def SpendComplete (d : Device) (w : Wire) (d' : Device) (w' : Wire) : Prop :=
  d'.ledgers.map SpendLedger.spentBytes =
    d.ledgers.map fun l => l.spentBytes + (w'.acceptedBytes - w.acceptedBytes)

/-- Every ledger recorded `n` bytes. -/
def Records (d d' : Device) (n : Nat) : Prop :=
  d'.ledgers = d.ledgers.map (SpendLedger.recordBytes n)

section

variable {P : Platform} {env : PushEnv} {opened : Bool} {d d' d'' : Device} {w w' : Wire}
  {n m : Nat} {refuse : Nat → String → Option ServerError}
  {tree uploads : List (String × Except SyncError Bytes)}

lemma Records.zero (h : d'.ledgers = d.ledgers) : Records d d' 0 := by
  have hid : SpendLedger.recordBytes 0 = id := by
    funext l
    rfl
  rw [Records, h, hid, List.map_id]

lemma Records.trans (h : Records d d' n) (h' : Records d' d'' m) : Records d d'' (n + m) := by
  rw [Records, h', h, List.map_map]
  congr 1
  funext l
  simp only [Function.comp_apply, SpendLedger.recordBytes, Nat.add_assoc]

/-- Ledgers that recorded `n` bytes are complete when `n` bytes were accepted. -/
lemma Records.complete_iff (hl : d.ledgers ≠ []) (h : Records d d' n) :
    SpendComplete d w d' w' ↔ n = w'.acceptedBytes - w.acceptedBytes := by
  obtain ⟨l, ls, hls⟩ := List.exists_cons_of_ne_nil hl
  rw [SpendComplete, h, hls]
  constructor
  · intro heq
    have hhead := (List.cons.inj heq).1
    simp only [SpendLedger.recordBytes] at hhead
    omega
  · rintro rfl
    rw [List.map_map]
    rfl

lemma recordSpendAll_records (hm : env.metered = true) (n : Nat) :
    Records d (recordSpendAll env true d n) n := by
  unfold recordSpendAll
  rw [hm]
  by_cases hn : 0 < n
  · rw [if_pos (by simpa using hn)]
    rfl
  · rw [if_neg (by simpa using hn), Nat.eq_zero_of_not_pos hn]
    exact .zero rfl

@[simp] lemma recordSpendAll_counter : (recordSpendAll env opened d n).counter = d.counter := by
  unfold recordSpendAll
  split <;> rfl

@[simp] lemma recordSpendAll_lastHead : (recordSpendAll env opened d n).lastHead = d.lastHead := by
  unfold recordSpendAll
  split <;> rfl

@[simp] lemma recordSpendAll_base : (recordSpendAll env opened d n).base = d.base := by
  unfold recordSpendAll
  split <;> rfl

lemma logicalTreeWith_ledgers : (logicalTreeWith P opened d).2.ledgers = d.ledgers := by
  unfold logicalTreeWith
  split
  · rfl
  · rfl

end

section

variable {P : Platform} {key : Keypair} {env : PushEnv} {d d' : Device} {w w' : Wire} {n : Nat}
  {refuse : Nat → String → Option ServerError} {deviceId : String}
  {tree uploads : List (String × Except SyncError Bytes)} {r : Except SyncError PushedTree}

/-- Uploads that follow others are reached when none of those fails. -/
lemma beforeStop_append : beforeStop refuse n (tree ++ uploads) =
    if beforeStop refuse n tree = tree then tree ++ beforeStop refuse (n + tree.length) uploads
    else beforeStop refuse n tree := by
  induction tree generalizing n with
  | nil => simp [beforeStop]
  | cons x tree ih =>
      rw [List.cons_append, beforeStop, beforeStop]
      by_cases hx : stops refuse n x = true
      · rw [if_pos hx, if_pos hx, if_neg (by simp)]
      · rw [if_neg hx, if_neg hx, ih]
        have hlen : n + 1 + tree.length = n + (x :: tree).length := by
          rw [List.length_cons]
          omega
        by_cases hrest : beforeStop refuse (n + 1) tree = tree
        · rw [if_pos hrest, if_pos (by rw [hrest]), hlen, List.cons_append]
        · rw [if_neg hrest, if_neg (by simpa using hrest)]

/-- **What a push costs and what it records.**  The uploads before the first that fails are
accepted.  If that is all of them the push succeeds and records them; else it records nothing. -/
lemma pushOver_spend (key : Keypair) (deviceId : String) (hm : env.metered = true)
    (h : pushOver P env true d w = (d', w', r)) :
    w'.accepted = w.accepted ++
        (beforeStop env.refuse w.accepted.length (treeUploads P env true d)).map payload ∧
      (((∃ e, r = .error e) ∧ Records d d' 0 ∧
          (treeUploads P env true d = [] ∧ frontierUploads P key env deviceId d = [] ∨
            beforeStop env.refuse w.accepted.length (treeUploads P env true d) ≠
              treeUploads P env true d ∧ ∃ head, frontierUploads P key env deviceId d =
                treeUploads P env true d ++ [head])) ∨
        ∃ pushed, r = .ok pushed ∧
          beforeStop env.refuse w.accepted.length (treeUploads P env true d) =
            treeUploads P env true d ∧
          Records d d' ((treeUploads P env true d).map payload).sum ∧
          frontierUploads P key env deviceId d = treeUploads P env true d ++
            [headUpload P key deviceId d' pushed.fsManifestCid]) := by
  have hledgers : (logicalTreeWith P true d).2.ledgers = d.ledgers := logicalTreeWith_ledgers
  unfold treeUploads frontierUploads
  rcases pushOver_cases h with ⟨rfl, rfl, hr, hstop⟩ |
    ⟨plan, hplan, hof, hceil, hw, hrun⟩
  · rcases hstop with ⟨e, he⟩ | ⟨plan, e, hplan, hceil⟩
    · rcases hp : planPush P env.haveSet true d with ⟨d₁, e' | plan⟩
      · exact ⟨by simp [beforeStop], Or.inl ⟨hr, .zero hledgers, Or.inl ⟨rfl, rfl⟩⟩⟩
      · rw [hp] at he
        simp at he
    · rw [hplan]
      dsimp only
      rw [hceil]
      exact ⟨by simp [beforeStop], Or.inl ⟨hr, .zero hledgers, Or.inl ⟨rfl, rfl⟩⟩⟩
  rw [hplan]
  dsimp only
  rw [hceil]
  dsimp only
  obtain ⟨hacc, hres⟩ := runTransfers_accepted env.refuse w
    (hof.uploads_named env true (logicalTreeWith P true d).2)
  refine ⟨by rw [hw, hacc], ?_⟩
  rcases hrun with ⟨e, e', rfl, herr, rfl⟩ | ⟨count, total, pushed, rfl, hok, rfl, -, hcid, -⟩
  · rcases hres with ⟨-, hlt⟩ | ⟨-, hok⟩
    · refine Or.inl ⟨⟨e, rfl⟩, .zero hledgers, Or.inr ⟨?_, _, rfl⟩⟩
      intro heq
      rw [heq] at hlt
      omega
    · rw [herr] at hok
      simp at hok
  · rcases hres with ⟨⟨e, herr⟩, -⟩ | ⟨hall, hok'⟩
    · rw [herr] at hok
      simp at hok
    · rw [hok] at hok'
      obtain ⟨-, rfl⟩ := Prod.mk.inj (Except.ok.inj hok')
      refine Or.inr ⟨pushed, rfl, hall, ?_, ?_⟩
      · have hrec := recordSpendAll_records (d := (logicalTreeWith P true d).2) hm
          ((plan.uploads P env true (logicalTreeWith P true d).2).map payload).sum
        rwa [Records, hledgers] at hrec
      · rw [hcid]
        simp [headUpload]

end

section

variable {P : Platform} {key : Keypair} {env env' : PushEnv} {d d' : Device} {w w' : Wire}
  {deviceId : String} {fault : Option PersistError} {around : SyncEnv}

/-- **What a frontier backup costs and what it records.**  It never records more than was
accepted, and less whenever its head was. -/
lemma backupFrontierOver_spend (hhead : ∀ head bytes, P.codec.encodeHead head = .ok bytes →
      bytes ≠ []) (hm : env.metered = true) {r : Except SyncError FrontierReport}
    (h : backupFrontierOver P key env fault deviceId d w = (d', w', r)) :
    w'.accepted = w.accepted ++
        (beforeStop env.refuse w.accepted.length (frontierUploads P key env deviceId d)).map payload ∧
      ∃ k, Records d d' k ∧
        k ≤ ((beforeStop env.refuse w.accepted.length
          (frontierUploads P key env deviceId d)).map payload).sum ∧
        (k = ((beforeStop env.refuse w.accepted.length
            (frontierUploads P key env deviceId d)).map payload).sum ↔
          Settles env.refuse w.accepted.length (treeUploads P env true d)
            (frontierUploads P key env deviceId d)) ∧
        ((∃ report, r = .ok report) → k < ((beforeStop env.refuse w.accepted.length
          (frontierUploads P key env deviceId d)).map payload).sum) := by
  unfold Settles
  unfold backupFrontierOver at h
  rcases hpush : pushOver P env true d w with ⟨d₁, w₁, r₁⟩
  obtain ⟨hacc, hcases⟩ := pushOver_spend key deviceId hm hpush
  rw [hpush] at h
  rcases hcases with ⟨⟨e, rfl⟩, hrec, hstop⟩ | ⟨pushed, rfl, hall, hrec, hfront⟩
  · -- the push failed: nothing more is put, and nothing is recorded
    simp only [Prod.mk.injEq] at h
    obtain ⟨rfl, rfl, rfl⟩ := h
    rcases hstop with ⟨htree, hfront⟩ | ⟨hne, head, hfront⟩
    · rw [htree] at hacc ⊢
      rw [hfront]
      exact ⟨hacc, 0, hrec, by simp [beforeStop], by simp [beforeStop], by simp⟩
    · rw [hfront, beforeStop_append, if_neg hne]
      refine ⟨hacc, 0, hrec, by omega, ?_, by simp⟩
      constructor
      · intro hzero
        exact Or.inr hzero.symm
      · rintro (heq | hzero)
        · exact absurd heq hne
        · exact hzero.symm
  rw [hfront, beforeStop_append, if_pos hall, List.map_append, List.sum_append]
  rw [hall] at hacc
  have hlen : w₁.accepted.length = w.accepted.length + (treeUploads P env true d).length := by
    rw [hacc, List.length_append, List.length_map]
  dsimp only at h
  unfold headUpload
  rcases henc : (DeviceHead.newSigned deviceId (d₁.counter + 1) pushed.fsManifestCid d₁.lastHead
    d₁.base key).encode P.codec with e | headBytes
  · rw [henc] at h
    simp only [Prod.mk.injEq] at h
    obtain ⟨rfl, rfl, rfl⟩ := h
    refine ⟨?_, _, hrec, ?_, ?_, by simp⟩
    · simp [hacc, beforeStop, stops, Except.toOption]
    · omega
    · simp [beforeStop, stops, Except.toOption]
  rw [henc] at h
  dsimp only at h ⊢
  have hbytes : 0 < headBytes.length :=
    List.length_pos_of_ne_nil (hhead _ _ (mapError_eq_ok.mp henc))
  rcases Wire.put_named env.refuse w₁ (rfl : P.crypto.sha256Hex headBytes = _) with
    ⟨e, hr, hp⟩ | ⟨hr, s, hp⟩
  · -- the head was refused: what was accepted is the tree, and it is recorded
    rw [hp] at h
    simp only [Prod.mk.injEq] at h
    obtain ⟨rfl, rfl, rfl⟩ := h
    have hstop : beforeStop env.refuse (w.accepted.length + (treeUploads P env true d).length)
        [(P.crypto.sha256Hex headBytes, .ok headBytes)] = [] := by
      simp [beforeStop, stops, ← hlen, hr]
    rw [hstop]
    exact ⟨by simp [hacc], _, hrec, by simp, by simp, by simp⟩
  · -- the head was accepted: it is recorded nowhere
    have hstop : beforeStop env.refuse (w.accepted.length + (treeUploads P env true d).length)
        [(P.crypto.sha256Hex headBytes, .ok headBytes)] =
          [(P.crypto.sha256Hex headBytes, .ok headBytes)] := by
      simp [beforeStop, stops, ← hlen, hr, Except.toOption]
    have hpay : ([(P.crypto.sha256Hex headBytes, Except.ok headBytes)].map payload).sum =
        headBytes.length := by
      simp [payload, Except.toOption]
    rw [hp] at h
    rw [hstop, hpay]
    have hout : d'.ledgers = d₁.ledgers ∧ w'.accepted = w₁.accepted ++ [headBytes.length] := by
      dsimp only at h
      split at h
      · simp only [Prod.mk.injEq] at h
        obtain ⟨rfl, rfl, -⟩ := h
        exact ⟨rfl, rfl⟩
      · simp only [Prod.mk.injEq] at h
        obtain ⟨rfl, rfl, -⟩ := h
        exact ⟨rfl, rfl⟩
    refine ⟨?_, _, hout.1.trans hrec, by omega, ?_, fun _ => by omega⟩
    · simp [hout.2, hacc, payload, Except.toOption]
    · constructor
      · intro heq
        omega
      · rintro (heq | hzero)
        · exact absurd heq (by simp)
        · omega

lemma convergeFold_ledgers {s : SyncServer} {m : Except SyncError Materialized}
    (h : convergeFold P key around deviceId d s = (d', m)) : d'.ledgers = d.ledgers := by
  have hfst : d' = (convergeFold P key around deviceId d s).1 := by rw [h]
  rw [hfst]
  unfold convergeFold
  split
  · rfl
  split
  · rfl
  split
  · rfl
  split
  · rfl
  dsimp only
  split
  · rfl
  split
  · rfl
  · rfl

lemma Wire.acceptedBytes_of_append {l : List Nat} (h : w'.accepted = w.accepted ++ l) :
    w'.acceptedBytes - w.acceptedBytes = l.sum := by
  simp only [Wire.acceptedBytes, h, List.sum_append]
  omega

lemma backup_complete_iff (hm : env.metered = true) (hl : d.ledgers ≠ []) :
    SpendComplete d w (backup P key env fault true d w).1 (backup P key env fault true d w).2.1 ↔
      Settles env.refuse w.accepted.length (treeUploads P env true d)
        (treeUploads P env true d) := by
  rcases hpush : pushOver P env true d w with ⟨d₁, w₁, r₁⟩
  have hout : (backup P key env fault true d w).1.ledgers = d₁.ledgers ∧
      (backup P key env fault true d w).2.1.accepted = w₁.accepted := by
    unfold backup
    rw [hpush]
    rcases r₁ with e | pushed
    · exact ⟨rfl, rfl⟩
    · dsimp only
      rcases commitKeepSet P key fault w₁.server pushed.needed
        ((w₁.server.slot.manifest.map Manifest.seq).elim 1 (· + 1)) with ⟨s, e | u⟩
      · exact ⟨rfl, rfl⟩
      · exact ⟨rfl, rfl⟩
  obtain ⟨hacc, hcases⟩ := pushOver_spend key "" hm hpush
  rw [← hout.2] at hacc
  have hbytes := Wire.acceptedBytes_of_append hacc
  unfold Settles
  rcases hcases with ⟨-, hrec, hstop⟩ | ⟨pushed, -, hall, hrec, -⟩
  · rw [Records, ← hout.1] at hrec
    rw [Records.complete_iff hl hrec, hbytes]
    rcases hstop with ⟨htree, -⟩ | ⟨hne, -⟩
    · simp [htree, beforeStop]
    · constructor
      · intro h
        exact Or.inr h.symm
      · rintro (h | h)
        · exact absurd h hne
        · exact h.symm
  · rw [Records, ← hout.1] at hrec
    rw [Records.complete_iff hl hrec, hbytes, hall]
    exact ⟨fun _ => Or.inl rfl, fun _ => rfl⟩

/-- Also a converge falls short as soon as its first head is accepted: the rest of it records at
most what it puts. -/
lemma converge_complete_iff (hhead : ∀ head bytes, P.codec.encodeHead head = .ok bytes →
      bytes ≠ []) (hm : env.metered = true) (hm' : env'.metered = true) (hl : d.ledgers ≠ []) :
    SpendComplete d w (convergeOver P key env env' around deviceId d w).1
        (convergeOver P key env env' around deviceId d w).2.1 ↔
      Settles env.refuse w.accepted.length (treeUploads P env true d)
        (frontierUploads P key env deviceId d) := by
  rcases hfirst : backupFrontierOver P key env around.fault deviceId d w with ⟨d₁, w₁, r₁⟩
  obtain ⟨hacc, k, hrec, hle, hiff, hlt⟩ := backupFrontierOver_spend hhead hm hfirst
  rcases r₁ with e | report
  · have hconv : convergeOver P key env env' around deviceId d w = (d₁, w₁, .error e) := by
      rw [convergeOver, hfirst]
    rw [hconv, Records.complete_iff hl hrec, Wire.acceptedBytes_of_append hacc, hiff]
  have hshort := hlt ⟨report, rfl⟩
  -- what follows the first backup: it records `k'` and puts at least as much
  obtain ⟨k', l, hrec', hacc', hle'⟩ : ∃ k' l,
      Records d₁ (convergeOver P key env env' around deviceId d w).1 k' ∧
      (convergeOver P key env env' around deviceId d w).2.1.accepted = w₁.accepted ++ l ∧
      k' ≤ l.sum := by
    rw [convergeOver, hfirst]
    dsimp only
    rcases hf : convergeFold P key around deviceId d₁ w₁.server with ⟨d₂, e | m⟩
    · have hfold := convergeFold_ledgers hf
      exact ⟨0, [], .zero hfold, by simp, by simp⟩
    · have hfold := convergeFold_ledgers hf
      dsimp only
      rcases hsecond : backupFrontierOver P key env' around.fault deviceId d₂ w₁ with
        ⟨d₃, w₃, e | report'⟩
      · obtain ⟨hacc₃, k₃, hrec₃, hle₃, -⟩ := backupFrontierOver_spend hhead hm' hsecond
        rw [Records, hfold] at hrec₃
        exact ⟨k₃, _, hrec₃, hacc₃, hle₃⟩
      · obtain ⟨hacc₃, k₃, hrec₃, hle₃, -⟩ := backupFrontierOver_spend hhead hm' hsecond
        rw [Records, hfold] at hrec₃
        exact ⟨k₃, _, hrec₃, hacc₃, hle₃⟩
  rw [hacc, List.append_assoc] at hacc'
  rw [Records.complete_iff hl (hrec.trans hrec'), Wire.acceptedBytes_of_append hacc',
    List.sum_append]
  constructor
  · intro heq
    omega
  · intro hs
    have := hiff.mpr hs
    omega

end

/-- **When the ledgers are complete.**  On a billed transport with at least the tree's own ledger:

* after a `backup`, exactly when every upload of the tree is accepted, or those before the first
  that fails carry no bytes;
* after a `backup_frontier` or a `converge`, exactly when the uploads that are accepted, the head
  included, carry no bytes or are those of the tree, so that the head is not one of them. -/
theorem ledger_complete_iff {P : Platform} (hhead : ∀ head bytes,
      P.codec.encodeHead head = .ok bytes → bytes ≠ [])
    (key : Keypair) (env env' : PushEnv) (hm : env.metered = true) (hm' : env'.metered = true)
    (fault : Option PersistError) (around : SyncEnv) (deviceId : String) (d : Device)
    (hl : d.ledgers ≠ []) (w : Wire) :
    (SpendComplete d w (backup P key env fault true d w).1 (backup P key env fault true d w).2.1 ↔
        Settles env.refuse w.accepted.length (treeUploads P env true d)
          (treeUploads P env true d)) ∧
      (SpendComplete d w (backupFrontierOver P key env fault deviceId d w).1
          (backupFrontierOver P key env fault deviceId d w).2.1 ↔
        Settles env.refuse w.accepted.length (treeUploads P env true d)
          (frontierUploads P key env deviceId d)) ∧
      (SpendComplete d w (convergeOver P key env env' around deviceId d w).1
          (convergeOver P key env env' around deviceId d w).2.1 ↔
        Settles env.refuse w.accepted.length (treeUploads P env true d)
          (frontierUploads P key env deviceId d)) := by
  refine ⟨backup_complete_iff hm hl, ?_, converge_complete_iff hhead hm hm' hl⟩
  rcases hfr : backupFrontierOver P key env fault deviceId d w with ⟨d₁, w₁, r₁⟩
  obtain ⟨hacc, k, hrec, -, hiff, -⟩ := backupFrontierOver_spend hhead hm hfr
  rw [Records.complete_iff hl hrec, Wire.acceptedBytes_of_append hacc, hiff]

/-! ### A head that is on no ledger -/

namespace TwoDevices

lemma encodeHead_ne_nil : ∀ head bytes, platform.codec.encodeHead head = .ok bytes →
    bytes ≠ [] := by
  intro head bytes h
  have hcodec : platform.codec.encodeHead head =
      encodeAmong DeviceHead.toCbor [headB1, headB2, headA1, headA2, headA3, headA4] head := rfl
  rw [hcodec, encodeAmong] at h
  split at h
  · obtain rfl := Except.ok.inj h
    simp [DeviceHead.toCbor, cborMap, cborHead]
  · simp at h

/-- `dev-b` with its file evicted, and its ledger. -/
def ledgered : Device := { evicted.device with ledgers := [⟨"tree", none, 0⟩] }

/-- A server that accepts `n` puts and refuses the ones after them. -/
def closedAfter (n : Nat) : PushEnv :=
  { bare with refuse := fun k _ => if n ≤ k then some .drawdownActive else none }

/-- The account before anything was published. -/
def emptyWire : Wire := ⟨init.server, []⟩

/-- The three commands of `dev-b` against such a server. -/
def backedUpTo (n : Nat) : Device × Wire × Except SyncError BackupReport :=
  backup platform account (closedAfter n) none true ledgered emptyWire

def publishedTo (n : Nat) : Device × Wire × Except SyncError FrontierReport :=
  backupFrontierOver platform account (closedAfter n) none "dev-b" ledgered emptyWire

def convergedTo (n : Nat) : Device × Wire × Except SyncError ConvergeReport :=
  convergeOver platform account (closedAfter n) (closedAfter n) env "dev-b" ledgered emptyWire

/-- A chunk and an fs-manifest are put before the head, and after two puts only the head is
refused. -/
lemma uploads_to_two :
    beforeStop (closedAfter 2).refuse 0 (treeUploads platform (closedAfter 2) true ledgered) =
        treeUploads platform (closedAfter 2) true ledgered ∧
      beforeStop (closedAfter 2).refuse 0
          (frontierUploads platform account (closedAfter 2) "dev-b" ledgered) =
        treeUploads platform (closedAfter 2) true ledgered ∧
      (treeUploads platform (closedAfter 2) true ledgered).map payload = [3, 174] := by
  decide +kernel

lemma beforeStop_none (l : List (String × Except SyncError Bytes)) :
    beforeStop (closedAfter 0).refuse 0 l = [] := by
  cases l with
  | nil => rfl
  | cons x l => simp [beforeStop, stops, closedAfter]

lemma accepted_emptyWire : emptyWire.accepted = [] := rfl

lemma accepted_publishedTo (n : Nat) : (publishedTo n).2.1.accepted =
    (beforeStop (closedAfter n).refuse 0
      (frontierUploads platform account (closedAfter n) "dev-b" ledgered)).map payload := by
  have hmetered : (closedAfter n).metered = true := rfl
  rcases h : publishedTo n with ⟨d, w, r⟩
  obtain ⟨hacc, -⟩ := backupFrontierOver_spend encodeHead_ne_nil hmetered h
  rw [accepted_emptyWire, List.nil_append, List.length_nil] at hacc
  exact hacc

end TwoDevices

/-- Against a server that takes the chunk and the fs-manifest, 177 bytes, and refuses the head, the
ledgers are complete after each of the three commands; so they are against one that takes
nothing. -/
theorem ledger_complete_when_refused :
    (∀ n ∈ [0, 2],
      SpendComplete TwoDevices.ledgered TwoDevices.emptyWire (TwoDevices.backedUpTo n).1
          (TwoDevices.backedUpTo n).2.1 ∧
        SpendComplete TwoDevices.ledgered TwoDevices.emptyWire (TwoDevices.publishedTo n).1
          (TwoDevices.publishedTo n).2.1 ∧
        SpendComplete TwoDevices.ledgered TwoDevices.emptyWire (TwoDevices.convergedTo n).1
          (TwoDevices.convergedTo n).2.1) ∧
      (TwoDevices.publishedTo 2).2.1.accepted = [3, 174] := by
  have hiff := fun n => ledger_complete_iff TwoDevices.encodeHead_ne_nil TwoDevices.account
    (TwoDevices.closedAfter n) (TwoDevices.closedAfter n) rfl rfl none TwoDevices.env "dev-b"
    TwoDevices.ledgered (by simp [TwoDevices.ledgered]) TwoDevices.emptyWire
  simp only [TwoDevices.accepted_emptyWire, List.length_nil] at hiff
  obtain ⟨htree, hfrontier, hpayload⟩ := TwoDevices.uploads_to_two
  constructor
  · simp only [List.forall_mem_cons, List.not_mem_nil, false_imp_iff, implies_true, and_true,
      TwoDevices.backedUpTo, TwoDevices.publishedTo, TwoDevices.convergedTo]
    constructor
    · obtain ⟨hbackup, hpublish, hconverge⟩ := hiff 0
      have hnone : ∀ l l', Settles (TwoDevices.closedAfter 0).refuse 0 l l' := by
        intro l l'
        refine Or.inr ?_
        rw [TwoDevices.beforeStop_none]
        rfl
      exact ⟨hbackup.mpr (hnone _ _), hpublish.mpr (hnone _ _), hconverge.mpr (hnone _ _)⟩
    · obtain ⟨hbackup, hpublish, hconverge⟩ := hiff 2
      exact ⟨hbackup.mpr (Or.inl htree), hpublish.mpr (Or.inl hfrontier),
        hconverge.mpr (Or.inl hfrontier)⟩
  · rw [TwoDevices.accepted_publishedTo, hfrontier, hpayload]

/-- A `backup_frontier` that succeeds: 457 bytes are accepted, chunk, fs-manifest and head, and
the ledger grows by 177. -/
theorem head_not_recorded :
    (backupFrontierOver TwoDevices.platform TwoDevices.account TwoDevices.bare none "dev-b"
        TwoDevices.ledgered TwoDevices.emptyWire).2.2.toOption.isSome = true ∧
      (backupFrontierOver TwoDevices.platform TwoDevices.account TwoDevices.bare none "dev-b"
        TwoDevices.ledgered TwoDevices.emptyWire).2.1.accepted = [3, 174, 280] ∧
      (backupFrontierOver TwoDevices.platform TwoDevices.account TwoDevices.bare none "dev-b"
        TwoDevices.ledgered TwoDevices.emptyWire).1.ledgers.map SpendLedger.spentBytes = [177] ∧
      ¬ SpendComplete TwoDevices.ledgered TwoDevices.emptyWire
        (backupFrontierOver TwoDevices.platform TwoDevices.account TwoDevices.bare none "dev-b"
          TwoDevices.ledgered TwoDevices.emptyWire).1
        (backupFrontierOver TwoDevices.platform TwoDevices.account TwoDevices.bare none "dev-b"
          TwoDevices.ledgered TwoDevices.emptyWire).2.1 := by
  unfold SpendComplete
  decide +kernel

end Ciss
