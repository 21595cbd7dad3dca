import Ciss.Server.Objects
import Ciss.Framework.HashTable
import Mathlib.Data.List.Infix

/-!
# Which receipt a countersignature reaches

The receipt a countersignature completes is looked up by a substring match over the stored texts:
of the DID's receipts whose JSON mentions the hash, the newest is taken, and it must have that
content hash.  A receipt mentions its own content hash, but a text may mention a hash for other
reasons: an uploaded object is named by its SHA-256, and the canonical bytes of a receipt can be
uploaded like any others.

`countersign_reaches_iff` states when a valid countersignature is accepted and changes nothing but
the receipt it is for.
-/

namespace Ciss

/-- A countersignature is accepted: it adds its signature to one stored receipt with that content
hash, and leaves every other receipt, their order and all totals as they were. -/
def CountersignReaches (S : ObjectServer) (s : MeterStore)
    (did contentHash payload sig : String) : Prop :=
  ∃ older row newer s', s.receipts = older ++ row :: newer ∧ row.did = did ∧
    row.receipt.contentHash = contentHash ∧
    S.countersign s .none did contentHash payload =
      (s', .ok (.completed (row.countersigned did sig).receipt.toJson)) ∧
    s'.receipts = older ++ row.countersigned did sig :: newer ∧ s'.didTotal = s.didTotal ∧
    s'.dials = s.dials ∧ ∀ did', s'.sumReceipts did' = s.sumReceipts did'

/-- A receipt of the DID that mentions the hash has it, or a newer receipt of the DID does. -/
def LastMentionHashes (s : MeterStore) (did contentHash : String) : Prop :=
  ∀ older row newer, s.receipts = older ++ row :: newer → row.did = did →
    row.mentions contentHash = true → row.receipt.contentHash = contentHash ∨
      ∃ row' ∈ newer, row'.did = did ∧ row'.receipt.contentHash = contentHash

/-! ## A receipt mentions its content hash -/

section

variable {pattern text rest : Bytes} {contentHash : String}

lemma like_percent : like (37 :: pattern) text = text.tails.any (like pattern) := by
  rw [like.eq_def]
  exact if_pos rfl

/-- A pattern without wildcards matches itself at the front. -/
lemma like_append_percent (hplain : ∀ b ∈ pattern, b ≠ 37 ∧ b ≠ 95) :
    like (pattern ++ asBytes "%") (pattern ++ rest) = true := by
  have hpercent : asBytes "%" = [37] := by decide
  rw [hpercent]
  induction pattern with
  | nil =>
      rw [List.nil_append, like_percent, List.any_eq_true]
      exact ⟨[], by simp, rfl⟩
  | cons b pattern ih =>
      obtain ⟨h37, h95⟩ := hplain b (by simp)
      rw [List.cons_append, List.cons_append, like, if_neg h37, if_neg h95,
        ih fun c hc => hplain c (List.mem_cons_of_mem _ hc)]
      simp

/-- A pattern without wildcards is found wherever it stands. -/
lemma like_of_infix (hplain : ∀ b ∈ pattern, b ≠ 37 ∧ b ≠ 95) (h : pattern <:+: text) :
    like (asBytes "%" ++ pattern ++ asBytes "%") text = true := by
  obtain ⟨front, back, rfl⟩ := h
  have hpercent : asBytes "%" = [37] := by decide
  rw [hpercent, List.append_assoc, List.singleton_append, like_percent, List.any_eq_true]
  refine ⟨pattern ++ back, (List.mem_tails _ _).mpr ⟨front, by simp⟩, ?_⟩
  rw [← hpercent]
  exact like_append_percent hplain

/-- The bytes of a text of lowercase hexadecimal digits are those of the digits. -/
lemma isLowerHexByte_of_hex {s : String} (h : ∀ c ∈ s.toList, isLowerHexDigit c = true) :
    ∀ b ∈ asBytes s, isLowerHexByte b = true := by
  intro b hb
  rw [asBytes_eq_flatMap] at hb
  obtain ⟨c, hc, hb⟩ := List.mem_flatMap.mp hb
  have hdigit := h c hc
  have hval : c.val.toNat ≤ 57 ∧ 48 ≤ c.val.toNat ∨ c.val.toNat ≤ 102 ∧ 97 ≤ c.val.toNat := by
    unfold isLowerHexDigit Char.isDigit at hdigit
    simp only [Bool.or_eq_true, Bool.and_eq_true, decide_eq_true_eq] at hdigit
    rcases hdigit with ⟨hlo, hhi⟩ | ⟨hlo, hhi⟩
    · exact Or.inl ⟨hhi, hlo⟩
    · exact Or.inr ⟨hhi, hlo⟩
  have hone : String.utf8EncodeChar c = [UInt8.ofNat c.val.toNat] := by
    unfold String.utf8EncodeChar
    dsimp only
    rw [if_pos (by omega)]
  rw [hone, List.mem_singleton] at hb
  have htoNat : (UInt8.ofNat c.val.toNat).toNat = c.val.toNat := by
    rw [UInt8.toNat_ofNat']
    omega
  rw [hb, isLowerHexByte, htoNat]
  simp only [Bool.or_eq_true, Bool.and_eq_true, decide_eq_true_eq]
  omega

lemma escapeByte_of_hex {b : UInt8} (h : isLowerHexByte b = true) : escapeByte b = [b] := by
  simp only [isLowerHexByte, Bool.or_eq_true, Bool.and_eq_true, decide_eq_true_eq] at h
  unfold escapeByte
  dsimp only
  rw [if_neg (by omega), if_neg (by omega), if_neg (by omega)]

/-- A hexadecimal text is rendered as it is. -/
lemma infix_renderString_of_hex (h : ∀ c ∈ contentHash.toList, isLowerHexDigit c = true) :
    asBytes contentHash <:+: renderString contentHash := by
  have hcopy : (asBytes contentHash).flatMap escapeByte = asBytes contentHash := by
    have hbytes := isLowerHexByte_of_hex h
    generalize asBytes contentHash = bytes at hbytes
    induction bytes with
    | nil => rfl
    | cons b bytes ih =>
        rw [List.flatMap_cons, escapeByte_of_hex (hbytes b (by simp)),
          ih fun c hc => hbytes c (List.mem_cons_of_mem _ hc)]
        rfl
  unfold renderString
  rw [hcopy]
  exact ⟨_, _, rfl⟩

lemma infix_intercalate_of_mem {sep field : Bytes} {fields : List Bytes} (h : field ∈ fields) :
    field <:+: sep.intercalate fields := by
  apply List.infix_of_mem_flatten
  induction fields with
  | nil => simp at h
  | cons x fields ih =>
      rcases fields with _ | ⟨y, fields⟩
      · simpa using h
      · rw [List.intersperse_cons_cons]
        rcases List.mem_cons.mp h with rfl | h
        · simp
        · exact List.mem_cons_of_mem _ (List.mem_cons_of_mem _ (ih h))

lemma Receipt.infix_toJson (r : Receipt) : renderString r.contentHash <:+: r.toJson := by
  have hfield : renderString r.contentHash <:+:
      renderField "content_hash" (renderString r.contentHash) :=
    (List.suffix_append _ _).isInfix
  unfold Receipt.toJson renderObject
  refine hfield.trans ((infix_intercalate_of_mem ?_).trans (List.infix_append _ _ _))
  exact List.mem_cons_of_mem _ List.mem_cons_self

/-- A receipt mentions its own content hash. -/
lemma ReceiptRow.mentions_contentHash (row : ReceiptRow)
    (h : ∀ c ∈ row.receipt.contentHash.toList, isLowerHexDigit c = true) :
    row.mentions row.receipt.contentHash = true := by
  apply like_of_infix
  · intro b hb
    have hhex := isLowerHexByte_of_hex h b hb
    simp only [isLowerHexByte, Bool.or_eq_true, Bool.and_eq_true, decide_eq_true_eq] at hhex
    constructor
    · rintro rfl
      simp at hhex
    · rintro rfl
      simp at hhex
  · exact (infix_renderString_of_hex h).trans row.receipt.infix_toJson

end

/-! ## Stored receipts carry their content hash -/

/-- Every stored receipt carries the content hash of its core. -/
def HashedReceipts (S : ObjectServer) (s : MeterStore) : Prop :=
  ∀ row ∈ s.receipts, row.receipt.contentHash = row.receipt.core.contentHash S.crypto.sha256Hex

section

variable {S : ObjectServer} {s s' : MeterStore} {w : ObjectWorld} {did : String}

lemma HashedReceipts.congr (h : HashedReceipts S s) (heq : s'.receipts = s.receipts) :
    HashedReceipts S s' := by
  rw [HashedReceipts, heq]
  exact h

lemma HashedReceipts.addStoredBytes (h : HashedReceipts S s) (size : Nat) :
    HashedReceipts S (s.addStoredBytes did size) := by
  refine h.congr ?_
  simp [MeterStore.addStoredBytes, MeterStore.updateTotalRow]

lemma HashedReceipts.appendReceipt (h : HashedReceipts S s) {r : Receipt}
    (hr : r.contentHash = r.core.contentHash S.crypto.sha256Hex) :
    HashedReceipts S (s.appendReceipt did r) := by
  intro row hrow
  have hmem : row ∈ s.receipts ++ [⟨did, r⟩] := by
    simpa [MeterStore.appendReceipt, MeterStore.updateTotalRow] using hrow
  rcases List.mem_append.mp hmem with hmem | hmem
  · exact h row hmem
  · rw [List.mem_singleton.mp hmem]
    exact hr

lemma HashedReceipts.countersignReceipt (h : HashedReceipts S s)
    (contentHash signer sig : String) :
    HashedReceipts S (s.countersignReceipt did contentHash signer sig).1 := by
  obtain ⟨-, heq⟩ | ⟨older, row, newer, hrows, -, -, -, ⟨-, heq⟩ | ⟨-, heq⟩⟩ :=
    s.countersignReceipt_cases did contentHash signer sig
  · rw [heq]
    exact h
  · rw [heq]
    exact h
  · rw [heq]
    have hall : ∀ x ∈ older ++ row :: newer,
        x.receipt.contentHash = x.receipt.core.contentHash S.crypto.sha256Hex := hrows ▸ h
    intro x hx
    rcases List.mem_append.mp hx with hx | hx
    · exact hall x (List.mem_append_left _ hx)
    rcases List.mem_cons.mp hx with rfl | hx
    · exact hall row (by simp)
    · exact hall x (List.mem_append_right _ (List.mem_cons_of_mem _ hx))

lemma receiptFor_contentHash (direction : Direction) (cid : String) (boundary : Nat) :
    (S.receiptFor s direction did cid boundary).contentHash =
      (S.receiptFor s direction did cid boundary).core.contentHash S.crypto.sha256Hex := by
  rcases direction with _ | _
  · rfl
  · rfl

lemma HashedReceipts.runSection (h : HashedReceipts S s) (blobs : Blobs) (fault : Fault)
    (req : InFlight) : HashedReceipts S (S.runSection s blobs fault req).1 := by
  rcases runSection_store S s blobs fault req with
    heq | ⟨did, key, bytes, read, -, heq⟩ | ⟨did, key, bytes, read, cid, -, heq⟩ |
    ⟨did, cid, data, -, heq⟩ | ⟨did, contentHash, payload, sig, -, heq⟩
  · rw [heq]
    exact h
  · rw [heq]
    exact h.addStoredBytes _
  · rw [heq]
    refine HashedReceipts.appendReceipt ?_ (receiptFor_contentHash .upload cid _)
    split
    · exact h.addStoredBytes _
    · exact h
  · rw [heq]
    exact h.appendReceipt (receiptFor_contentHash .download cid _)
  · rw [heq]
    exact h.countersignReceipt contentHash did sig

lemma HashedReceipts.step (h : HashedReceipts S w.store) (a : ObjectAction) :
    HashedReceipts S (S.step w a).store := by
  rcases a with ⟨id, request⟩ | ⟨id, fault⟩ | ⟨did, dials⟩ | did
  · rw [step_start_store]
    exact h
  · rcases step_advance_store S w id fault with heq | ⟨req, -, heq⟩
    · rw [heq]
      exact h
    · rw [heq]
      exact h.runSection w.blobs fault req
  · exact h.congr rfl
  · exact h.congr rfl

/-- In every reachable store every receipt mentions its own content hash. -/
lemma mentions_of_reachable (hC : HexHash S.crypto.sha256Hex) (acts : List ObjectAction) :
    ∀ row ∈ (run S.step ObjectWorld.init acts).store.receipts,
      row.mentions row.receipt.contentHash = true := by
  have h : HashedReceipts S (run S.step ObjectWorld.init acts).store :=
    run_invariant' (I := fun w : ObjectWorld => HashedReceipts S w.store)
      (fun w a hw => hw.step a) (by simp [HashedReceipts, ObjectWorld.init, MeterStore.empty])
  intro row hrow
  apply row.mentions_contentHash
  rw [h row hrow]
  exact hC.hex _

end

/-! ## The countersignature -/

section

variable {S : ObjectServer} {s : MeterStore} {did contentHash payload signer sig : String}
  {key : VerifyingKey}

/-- A valid countersignature gets as far as the lookup. -/
lemma countersign_eq (hparse : S.parseCountersign payload = some (signer, sig))
    (hkey : publicKeyFromHex S.crypto signer = .ok key) (hdid : deriveId S.crypto key = did)
    (hsig : verifyMessage S.crypto key contentHash sig = true) :
    S.countersign s .none did contentHash payload =
      ((s.countersignReceipt did contentHash did sig).1,
        (s.countersignReceipt did contentHash did sig).2.elim (.error .notFound) fun completed =>
          .ok (.completed completed.toJson)) := by
  unfold ObjectServer.countersign
  rw [hparse]
  dsimp only
  rw [hkey]
  dsimp only
  rw [if_neg (not_not.mpr hdid), hsig, if_neg (by simp), if_neg (by simp)]
  rcases s.countersignReceipt did contentHash did sig with ⟨s', _ | completed⟩
  · rfl
  · rfl

/-- Two ways to cut a list at a member: it is the same one, or one of them is behind the other. -/
lemma mem_of_append_cons_eq {α : Type*} {a b c d : List α} {x y : α}
    (h : a ++ x :: b = c ++ y :: d) : x = y ∨ y ∈ b ∨ x ∈ d := by
  rcases List.append_eq_append_iff.mp h with ⟨as, -, hx⟩ | ⟨cs, -, hy⟩
  · rcases as with _ | ⟨z, as⟩
    · exact Or.inl (List.cons.inj hx).1
    · rw [(List.cons.inj hx).2]
      exact Or.inr (Or.inl (by simp))
  · rcases cs with _ | ⟨z, cs⟩
    · exact Or.inl (List.cons.inj hy).1.symm
    · rw [(List.cons.inj hy).2]
      exact Or.inr (Or.inr (by simp))

end

/-- **Which receipt a countersignature reaches.**  In every reachable store, for every stored
receipt `r` of a DID, a valid countersignature by the DID's key over `r`'s content hash is accepted
and adds its signature to one receipt with that hash and nothing else, exactly when the newest of
the DID's receipts that mention the hash in their text has it. -/
theorem countersign_reaches_iff (S : ObjectServer) (hC : HexHash S.crypto.sha256Hex)
    (acts : List ObjectAction) (did : String) (r : Receipt)
    (hr : r ∈ (run S.step ObjectWorld.init acts).store.loadReceipts did)
    (payload signer sig : String) (key : VerifyingKey)
    (hparse : S.parseCountersign payload = some (signer, sig))
    (hkey : publicKeyFromHex S.crypto signer = .ok key) (hdid : deriveId S.crypto key = did)
    (hsig : verifyMessage S.crypto key r.contentHash sig = true) :
    CountersignReaches S (run S.step ObjectWorld.init acts).store did r.contentHash payload sig ↔
      LastMentionHashes (run S.step ObjectWorld.init acts).store did r.contentHash := by
  have hown := mentions_of_reachable hC acts
  have hcores : ∀ did', ((run S.step ObjectWorld.init acts).store.countersignReceipt did
      r.contentHash did sig).1.sumReceipts did' =
        (run S.step ObjectWorld.init acts).store.sumReceipts did' := fun did' =>
    congrArg ReceiptTotals.ofCores (MeterStore.cores_countersignReceipt r.contentHash did sig)
  generalize (run S.step ObjectWorld.init acts).store = s at hr hown hcores ⊢
  obtain ⟨row₀, hrow₀, rfl⟩ := List.mem_map.mp hr
  obtain ⟨hmem₀, hdid₀⟩ := List.mem_filter.mp hrow₀
  have hcs := countersign_eq (s := s) hparse hkey hdid hsig
  obtain ⟨hnone, -⟩ | ⟨older, row, newer, hrows, hrow, hment, hlast, hcase⟩ :=
    s.countersignReceipt_cases did row₀.receipt.contentHash did sig
  · -- some receipt mentions the hash: `r` does
    have := hnone row₀ hmem₀ (by simpa using hdid₀)
    rw [hown row₀ hmem₀] at this
    simp at this
  have hafter : ∀ x ∈ newer, x.did = did → x.receipt.contentHash ≠ row₀.receipt.contentHash := by
    intro x hx hxdid hxhash
    have hmention := hown x (by rw [hrows]; simp [hx])
    rw [hxhash, hlast x hx hxdid] at hmention
    simp at hmention
  rcases hcase with ⟨hne, heq⟩ | ⟨hhash, heq⟩
  · -- the newest mention is of another receipt
    constructor
    · rintro ⟨_, _, _, _, -, -, -, hres, -⟩
      rw [hcs, heq] at hres
      simp at hres
    · intro hmentions
      rcases hmentions older row newer hrows hrow hment with hhash | ⟨x, hx, hxdid, hxhash⟩
      · exact absurd hhash hne
      · exact absurd hxhash (hafter x hx hxdid)
  · constructor
    · intro _ older' row' newer' hrows' hrow' hment'
      rcases mem_of_append_cons_eq (hrows.symm.trans hrows') with rfl | hin | hin
      · exact Or.inl hhash
      · rw [hlast row' hin hrow'] at hment'
        simp at hment'
      · exact Or.inr ⟨row, hin, hrow, hhash⟩
    · intro _
      rw [heq] at hcs hcores
      exact ⟨older, row, newer, _, hrows, hrow, hhash, hcs, rfl, rfl, rfl, hcores⟩

/-! ### A receipt that is uploaded

The customer uploads three bytes, and then the canonical bytes of the receipt it got for them. -/

namespace Echo

/-- The customer's key and the provider's. -/
def customerKey : VerifyingKey :=
  ⟨(hexDecode "ea4a6c63e29c520abef5507b132ec5f9954776aebebe7b92421eea691446d22c").getD []⟩

def providerKey : VerifyingKey :=
  ⟨(hexDecode "fd1724385aa0c75b64fb78cd602fa1d991fdebf76b13c58ed702eac835e9f618").getD []⟩

/-- The customer. -/
def did : String := "id:fe812c12f3ab4ce6ac5db69ac352f906cb1b11ef43fb33e252ef7ff552263889"

def providerId : String := "id:dbc298251c51321b7266e78d1c151c2b62aff8cb95b293096d3463018544face"

/-- The signed content of the first receipt. -/
def core : ReceiptCore :=
  .new .upload "ba7816bf8f01cfea414140de5dae2223b00361a396177a9cb410ff61f20015ad" (0, 3) 3 0 .active
    providerId did

def coreHash : String := "80ca10554c5f7cba42b478ef96706941ac95071bf7511bf529a2b5bb26eed85e"

/-- The signed content of the second, whose object is the first's canonical bytes. -/
def echoCore : ReceiptCore := .new .upload coreHash (0, 325) 328 0 .active providerId did

def echoHash : String := "26257307d20faae376b73df8ae52e26fa29fb7d3ce916f682d243211ed2c9477"

/-- What SHA-256 is applied to in the run, and its digests. -/
def digests : List (Bytes × String) :=
  [(customerKey.toBytes, "fe812c12f3ab4ce6ac5db69ac352f906cb1b11ef43fb33e252ef7ff552263889"),
    (asBytes "abc", "ba7816bf8f01cfea414140de5dae2223b00361a396177a9cb410ff61f20015ad"),
    (core.toCanonicalBytes, coreHash), (echoCore.toCanonicalBytes, echoHash)]

/-- The provider's signatures over the two content hashes. -/
def providerSign (message : Bytes) : Bytes :=
  if message = asBytes coreHash then
    (hexDecode "3e7d6dd6c227f5d3981ed5e3433df8ece10d6e0b21fb82815dd6bc10bbe49574").getD [] ++
      (hexDecode "b095c78466a5eb39685ada97d7c595feb859564871d452dfba5b603ef0636a00").getD []
  else
    (hexDecode "8097dc83c0ddb8c701f30727d8afdfacae1685fc6024a454a49ab2053a877ce8").getD [] ++
      (hexDecode "75d070e8e3ae0b9ff8dc8429601182e89abcf81e0f8800616d6077452c749c0d").getD []

/-- The customer's signature over the first content hash, in two halves. -/
def customerSig : String :=
  String.join ["b6ca932104a9a81d1a75800e61f488779a55f7870367d11b04db5d4088b69c64",
    "2a79ec9f9cd6a6937bd0fd883d96bef1c43b824e78aa20929e5b7026601f7308"]

def server : ObjectServer where
  crypto :=
    { sha256Hex := tabulatedHex digests
      isPublicKey := fun bytes => bytes = customerKey.toBytes
      verifyStrict := fun key message sig => key = customerKey && message = asBytes coreHash &&
        some sig = hexDecode customerSig }
  provider := ⟨providerId, ⟨providerKey, providerSign⟩⟩
  limits := ⟨1000000, none⟩
  day := 0
  parseCountersign payload :=
    if payload = "countersign" then some (hexEncode customerKey.toBytes, customerSig) else none

lemma hexHash : HexHash server.crypto.sha256Hex := hexHash_tabulatedHex (by decide +kernel)

/-- An upload, section after section. -/
def upload (id : Nat) (bytes : Bytes) (h : bytes.length ≤ i64Max) : List ObjectAction :=
  .start id (.put did "key" ⟨bytes, h⟩) :: List.replicate 6 (.advance id .none)

def firstUpload : List ObjectAction := upload 1 (asBytes "abc") (by decide +kernel)

def bothUploads : List ObjectAction :=
  firstUpload ++ upload 2 core.toCanonicalBytes (by decide +kernel)

/-- The server after the uploads. -/
def world (acts : List ObjectAction) : ObjectWorld := run server.step ObjectWorld.init acts

/-- The countersignature over the first receipt's content hash. -/
def countersigned (acts : List ObjectAction) : MeterStore × Except ServerError OpOutcome :=
  server.countersign (world acts).store .none did coreHash "countersign"

end Echo

/-- After the first upload the countersignature is accepted. -/
theorem countersign_reaches_iff_first : ∃ r,
    (Echo.world Echo.firstUpload).store.loadReceipts Echo.did = [r] ∧
      r.contentHash = Echo.coreHash ∧
      (CountersignReaches Echo.server (Echo.world Echo.firstUpload).store Echo.did r.contentHash
        "countersign" Echo.customerSig ↔
          LastMentionHashes (Echo.world Echo.firstUpload).store Echo.did r.contentHash) ∧
      (Echo.countersigned Echo.firstUpload).2.isOk = true := by
  have hone : ((Echo.world Echo.firstUpload).store.loadReceipts Echo.did).map Receipt.contentHash =
      [Echo.coreHash] := by decide +kernel
  obtain ⟨r, hload, hhash⟩ := List.map_eq_singleton_iff.mp hone
  refine ⟨r, hload, hhash, ?_, by decide +kernel⟩
  refine countersign_reaches_iff Echo.server Echo.hexHash Echo.firstUpload Echo.did r ?_
    "countersign" (hexEncode Echo.customerKey.toBytes) Echo.customerSig Echo.customerKey ?_ ?_ ?_ ?_
  · rw [← Echo.world, hload]
    simp
  · decide +kernel
  · decide +kernel
  · decide +kernel
  · rw [hhash]
    decide +kernel

lemma Echo.countersigned_both :
    ((Echo.world Echo.bothUploads).store.loadReceipts Echo.did).map Receipt.contentHash =
        [Echo.coreHash, Echo.echoHash] ∧
      verifyMessage Echo.server.crypto Echo.customerKey Echo.coreHash Echo.customerSig = true ∧
      (Echo.countersigned Echo.bothUploads).2.isOk = false := by
  decide +kernel

/-- After the second upload the same countersignature is not found: the newest receipt that
mentions the hash is the second, whose object it names. -/
theorem echoed_receipt_not_found :
    ((Echo.world Echo.bothUploads).store.loadReceipts Echo.did).map Receipt.contentHash =
        [Echo.coreHash, Echo.echoHash] ∧
      verifyMessage Echo.server.crypto Echo.customerKey Echo.coreHash Echo.customerSig = true ∧
      ¬CountersignReaches Echo.server (Echo.world Echo.bothUploads).store Echo.did Echo.coreHash
        "countersign" Echo.customerSig := by
  obtain ⟨hload, hsig, hrefused⟩ := Echo.countersigned_both
  refine ⟨hload, hsig, ?_⟩
  rintro ⟨_, _, _, s', -, -, -, hres, -⟩
  rw [Echo.countersigned, hres] at hrefused
  simp [Except.isOk, Except.toBool] at hrefused

end Ciss
