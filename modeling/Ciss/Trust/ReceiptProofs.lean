import Ciss.Server.Countersign
import Ciss.Server.SignedLedger

/-!
# What a stored receipt proves

A receipt is signed over the canonical bytes of its core, by the provider when the transfer commits
and by the customer when it countersigns.  `verifyUnilateral` and `verifyBilateral` are the checks a
third party makes under a ring of pinned keys, and `isCoAttested` reads off the receipt whether both
parties are there.

A stored receipt passes the check of its own mode, the bilateral one as soon as it is co-attested
(`stored_receipts_verify`).  A core is determined by its canonical bytes, also with the default
account mode left out, so the signatures of a stored receipt vouch for no other core
(`signatures_vouch_for_one_core`).
-/

namespace Ciss

namespace Receipt

variable (C : Crypto) (r : Receipt) (keyring : Keyring)

/-- Whether the stored content hash still matches the core. -/
def coreMatches : Bool := r.core.contentHash C.sha256Hex = r.contentHash

/-- Fully valid as a bilateral receipt: both parties signed the content, and both signatures verify
under their pinned keys. -/
def verifyBilateral : Bool :=
  if r.mode ≠ .bilateral ∨ r.coreMatches C = false then false
  else
    match r.sigs[r.core.receiverId]?, r.sigs[r.core.senderId]? with
    | some receiverSig, some senderSig =>
        match keyring[r.core.receiverId]?, keyring[r.core.senderId]? with
        | some receiverKey, some senderKey =>
            verifyMessage C receiverKey r.contentHash receiverSig &&
              verifyMessage C senderKey r.contentHash senderSig
        | _, _ => false
    | _, _ => false

/-- Valid as a unilateral measurement: there is a signature, and every signature verifies under a
pinned key. -/
def verifyUnilateral : Bool :=
  if r.mode ≠ .unilateral ∨ r.coreMatches C = false ∨ r.sigs.isEmpty = true then false
  else
    r.sigs.toList.all fun s => keyring[s.1]?.any fun key => verifyMessage C key r.contentHash s.2

/-- Whether both parties acknowledged. -/
def isAcknowledged : Bool := r.sigs.contains r.core.receiverId && r.sigs.contains r.core.senderId

/-- Whether the receipt is co-attested: bilateral, with both parties present. -/
def isCoAttested : Bool := r.mode = .bilateral && r.isAcknowledged

end Receipt

/-! ## The canonical bytes of a core -/

/-- The text of an object tells its members, in their order. -/
lemma renderObject_inj {f g : List (String × Bytes)}
    (hread : ∀ k x y, (k, x) ∈ f → (k, y) ∈ g → Unmistakable EndsValue x y)
    (h : renderObject (f.map fun m => renderField m.1 m.2) =
      renderObject (g.map fun m => renderField m.1 m.2)) : f = g := by
  have hopen : asBytes "\x7b" = [123] := by decide
  have hcomma : asBytes "," = [44] := by decide
  have hclose : asBytes "\x7d" = [125] := by decide
  have hinj : Function.Injective fun m : String × Bytes => renderField m.1 m.2 := by
    intro m n hmn
    obtain ⟨hkey, hvalue⟩ := renderField_inj hmn
    exact Prod.ext hkey hvalue
  rw [renderObject, renderObject, hopen, hcomma, hclose] at h
  refine hinj.list_map (intercalate_append_inj endsValue_comma endsValue_brace (by decide)
    ?_ ?_ ?_ (List.cons.inj h).2).1
  · intro u hu v hv
    obtain ⟨⟨a, x⟩, hx, rfl⟩ := List.mem_map.mp hu
    obtain ⟨⟨b, y⟩, hy, rfl⟩ := List.mem_map.mp hv
    refine unmistakable_renderField ?_
    rintro rfl
    exact hread a x y hx hy
  · intro u hu
    obtain ⟨⟨a, x⟩, -, rfl⟩ := List.mem_map.mp hu
    exact avoids_renderField (by decide) a x
  · intro v hv
    obtain ⟨⟨b, y⟩, -, rfl⟩ := List.mem_map.mp hv
    exact avoids_renderField (by decide) b y

namespace ReceiptCore

variable {c c' : ReceiptCore}

/-- The text of a direction. -/
def directionText : Direction → String
  | .upload => "upload"
  | .download => "download"

lemma directionText_injective : Function.Injective directionText := by
  intro d d' h
  cases d <;> cases d' <;> first | rfl | exact absurd h (by decide)

/-- The members that hold a text. -/
def texts (c : ReceiptCore) : List (String × String) :=
  [("direction", directionText c.direction), ("cid", c.cid)] ++
  (match c.accountMode with
    | .active => []
    | .drawdown => [("account_mode", "drawdown")]) ++
  [("receiver_id", c.receiverId), ("sender_id", c.senderId)]

/-- The members that hold a count. -/
def counts (c : ReceiptCore) : List (String × Nat) :=
  [("byte_start", c.byteStart), ("byte_end", c.byteEnd), ("bytes", c.bytes),
    ("running_total", c.runningTotal), ("day", c.day)]

/-- The names under which a text can stand, and those under which a count does. -/
def textNames : List String := ["direction", "cid", "account_mode", "receiver_id", "sender_id"]

def countNames : List String := ["byte_start", "byte_end", "bytes", "running_total", "day"]

lemma mem_fields {k : String} {x : Bytes} :
    (k, x) ∈ c.fields ↔
      (∃ t, (k, t) ∈ c.texts ∧ renderString t = x) ∨ ∃ n, (k, n) ∈ c.counts ∧ asBytes n.repr = x := by
  have htext : ∀ l : List (String × String),
      (k, x) ∈ l.map (fun m => (m.1, renderString m.2)) ↔
        ∃ t, (k, t) ∈ l ∧ renderString t = x := by
    simp
  have hcount : (k, x) ∈ c.counts.map (fun m => (m.1, asBytes m.2.repr)) ↔
      ∃ n, (k, n) ∈ c.counts ∧ asBytes n.repr = x := by
    simp
  have hsplit : c.fields = (c.texts.take 2).map (fun m => (m.1, renderString m.2)) ++
      c.counts.map (fun m => (m.1, asBytes m.2.repr)) ++
        (c.texts.drop 2).map (fun m => (m.1, renderString m.2)) := by
    unfold fields texts
    cases c.accountMode <;> rfl
  rw [← htext, ← hcount, hsplit, List.mem_append, List.mem_append, or_right_comm, ← List.mem_append,
    ← List.map_append, List.take_append_drop]

lemma mem_textNames {k t : String} (h : (k, t) ∈ c.texts) : k ∈ textNames := by
  have hnames : c.texts.map Prod.fst ⊆ textNames := by
    unfold texts textNames
    cases c.accountMode <;> simp
  exact hnames (List.mem_map_of_mem (f := Prod.fst) h)

lemma mem_countNames {k : String} {n : Nat} (h : (k, n) ∈ c.counts) : k ∈ countNames :=
  List.mem_map_of_mem (f := Prod.fst) h

/-- No name is both. -/
lemma not_mem_countNames {k : String} (h : k ∈ textNames) : k ∉ countNames := by
  revert k
  decide

lemma unmistakable_fields {k : String} {x y : Bytes} (hx : (k, x) ∈ c.fields)
    (hy : (k, y) ∈ c'.fields) : Unmistakable EndsValue x y := by
  obtain ⟨t, ht, rfl⟩ | ⟨n, hn, rfl⟩ := mem_fields.mp hx
  · obtain ⟨t', -, rfl⟩ | ⟨n', hn', rfl⟩ := mem_fields.mp hy
    · exact unmistakable_renderString t t'
    · exact absurd (mem_countNames hn') (not_mem_countNames (mem_textNames ht))
  · obtain ⟨t', ht', rfl⟩ | ⟨n', -, rfl⟩ := mem_fields.mp hy
    · exact absurd (mem_countNames hn) (not_mem_countNames (mem_textNames ht'))
    · exact unmistakable_natRepr n n'

/-- **Cores with the same canonical bytes have the same members.** -/
lemma fields_perm (h : c.toCanonicalBytes = c'.toCanonicalBytes) : c.fields.Perm c'.fields := by
  have hperm : ∀ d : ReceiptCore,
      (d.fields.insertionSort fun f g => f.1 ≤ g.1).Perm d.fields := fun d =>
    List.perm_insertionSort _ _
  have hsorted := renderObject_inj (f := c.fields.insertionSort fun f g => f.1 ≤ g.1)
    (g := c'.fields.insertionSort fun f g => f.1 ≤ g.1)
    (fun k x y hx hy =>
      unmistakable_fields ((hperm c).mem_iff.mp hx) ((hperm c').mem_iff.mp hy)) h
  exact (hperm c).symm.trans (hsorted ▸ hperm c')

lemma mem_texts {k t : String} :
    (k, t) ∈ c.texts ↔
      (k = "direction" ∧ t = directionText c.direction) ∨ (k = "cid" ∧ t = c.cid) ∨
        (k = "account_mode" ∧ t = "drawdown" ∧ c.accountMode = .drawdown) ∨
          (k = "receiver_id" ∧ t = c.receiverId) ∨ (k = "sender_id" ∧ t = c.senderId) := by
  unfold texts
  cases c.accountMode <;> simp

/-- Cores whose fields are the same up to order have the same members. -/
lemma texts_subset_of_perm (h : c.fields.Perm c'.fields) {k t : String} (ht : (k, t) ∈ c.texts) :
    (k, t) ∈ c'.texts := by
  have hfield : (k, renderString t) ∈ c'.fields := h.subset (mem_fields.mpr (Or.inl ⟨t, ht, rfl⟩))
  obtain ⟨t', ht', heq⟩ | ⟨n, hn, -⟩ := mem_fields.mp hfield
  · rwa [← renderString_injective heq]
  · exact absurd (mem_countNames hn) (not_mem_countNames (mem_textNames ht))

lemma counts_subset_of_perm (h : c.fields.Perm c'.fields) {k : String} {n : Nat}
    (hn : (k, n) ∈ c.counts) : (k, n) ∈ c'.counts := by
  have hfield : (k, asBytes n.repr) ∈ c'.fields := h.subset (mem_fields.mpr (Or.inr ⟨n, hn, rfl⟩))
  obtain ⟨t, ht, -⟩ | ⟨n', hn', heq⟩ := mem_fields.mp hfield
  · exact absurd (mem_countNames hn) (not_mem_countNames (mem_textNames ht))
  · rwa [← Nat.repr_inj.mp (asBytes_injective heq)]

/-- **The canonical bytes of a core determine the core.**  Each member is read back under its name;
the account mode is the default one exactly when its name is missing. -/
theorem toCanonicalBytes_injective : Function.Injective toCanonicalBytes := by
  intro c c' h
  have hperm := fields_perm h
  have htext : ∀ {k t}, (k, t) ∈ c.texts → (k, t) ∈ c'.texts := texts_subset_of_perm hperm
  have hcount : ∀ {k n}, (k, n) ∈ c.counts → (k, n) ∈ c'.counts := counts_subset_of_perm hperm
  have hdirection : c.direction = c'.direction := by
    have := htext (k := "direction") (mem_texts.mpr (Or.inl ⟨rfl, rfl⟩))
    exact directionText_injective (by simpa [mem_texts] using this)
  have hmode : c.accountMode = c'.accountMode := by
    have hiff : c.accountMode = .drawdown ↔ c'.accountMode = .drawdown := by
      have hto := htext (k := "account_mode") (t := "drawdown")
      have hfrom := texts_subset_of_perm hperm.symm (k := "account_mode") (t := "drawdown")
      simp only [mem_texts] at hto hfrom
      exact ⟨by simpa using hto, by simpa using hfrom⟩
    revert hiff
    cases c.accountMode <;> cases c'.accountMode <;> simp
  have hcid := htext (k := "cid") (t := c.cid) (by simp [mem_texts])
  have hreceiver := htext (k := "receiver_id") (t := c.receiverId) (by simp [mem_texts])
  have hsender := htext (k := "sender_id") (t := c.senderId) (by simp [mem_texts])
  have hstart := hcount (k := "byte_start") (n := c.byteStart) (by simp [counts])
  have hend := hcount (k := "byte_end") (n := c.byteEnd) (by simp [counts])
  have hbytes := hcount (k := "bytes") (n := c.bytes) (by simp [counts])
  have htotal := hcount (k := "running_total") (n := c.runningTotal) (by simp [counts])
  have hday := hcount (k := "day") (n := c.day) (by simp [counts])
  simp [mem_texts] at hcid hreceiver hsender
  simp [counts] at hstart hend hbytes htotal hday
  cases c
  cases c'
  simp_all

end ReceiptCore

/-! ## Stored receipts -/

section

variable {S : ObjectServer} {w : ObjectWorld} {s : MeterStore} {P : ReceiptRow → Prop}

/-- **What a countersign request can do**, with the check that its signature passed. -/
lemma countersign_signed (fault : Fault) (did contentHash payload : String) :
    (S.countersign s fault did contentHash payload).1 = s ∨
      ∃ key sig, deriveId S.crypto key = did ∧
        verifyMessage S.crypto key contentHash sig = true ∧
        (S.countersign s fault did contentHash payload).1 =
          (s.countersignReceipt did contentHash did sig).1 := by
  unfold ObjectServer.countersign
  split
  · exact Or.inl rfl
  · rename_i signer sig _
    split
    · exact Or.inl rfl
    · rename_i key _
      split_ifs with hid hsig
      · exact Or.inl rfl
      · exact Or.inl rfl
      · exact Or.inl rfl
      · refine Or.inr ⟨key, sig, not_not.mp hid, by simpa using hsig, ?_⟩
        split
        · rename_i h
          rw [h]
        · rename_i h
          rw [h]

/-- A property of receipts that a new boundary receipt has, and that a checked countersignature
keeps. -/
structure ReceiptProperty (S : ObjectServer) (P : ReceiptRow → Prop) : Prop where
  new : ∀ s direction did cid boundary, P ⟨did, S.receiptFor s direction did cid boundary⟩
  countersigned : ∀ row key sig, P row → deriveId S.crypto key = row.did →
    verifyMessage S.crypto key row.receipt.contentHash sig = true →
      P (row.countersigned row.did sig)

lemma ReceiptProperty.countersignReceipt (hP : ReceiptProperty S P)
    (h : ∀ row ∈ s.receipts, P row) {did contentHash sig : String} {key : VerifyingKey}
    (hkey : deriveId S.crypto key = did)
    (hsig : verifyMessage S.crypto key contentHash sig = true) :
    ∀ row ∈ (s.countersignReceipt did contentHash did sig).1.receipts, P row := by
  obtain ⟨-, heq⟩ | ⟨older, row, newer, hrows, hdid, -, -, ⟨-, heq⟩ | ⟨hhash, heq⟩⟩ :=
    s.countersignReceipt_cases did contentHash did sig
  · rwa [heq]
  · rwa [heq]
  · rw [heq]
    rw [hrows] at h
    have hrow : P (row.countersigned did sig) := by
      subst hdid hhash
      exact hP.countersigned row key sig (h row (by simp)) hkey hsig
    intro x hx
    obtain hx | hx := List.mem_append.mp hx
    · exact h x (List.mem_append_left _ hx)
    obtain rfl | hx := List.mem_cons.mp hx
    · exact hrow
    · exact h x (List.mem_append_right _ (List.mem_cons_of_mem _ hx))

lemma receipts_appendReceipt (did : String) (r : Receipt) :
    (s.appendReceipt did r).receipts = s.receipts ++ [⟨did, r⟩] := by
  simp [MeterStore.appendReceipt, MeterStore.updateTotalRow]

lemma receipts_addStoredBytes (did : String) (size : Nat) :
    (s.addStoredBytes did size).receipts = s.receipts := by
  simp [MeterStore.addStoredBytes, MeterStore.updateTotalRow]

lemma ReceiptProperty.runSection (hP : ReceiptProperty S P) (h : ∀ row ∈ s.receipts, P row)
    (blobs : Blobs) (fault : Fault) (req : InFlight) :
    ∀ row ∈ (S.runSection s blobs fault req).1.receipts, P row := by
  obtain heq | ⟨did, key, bytes, read, -, heq⟩ | ⟨did, key, bytes, read, cid, -, heq⟩ |
    ⟨did, cid, data, -, heq⟩ | ⟨did, contentHash, payload, sig, rfl, -⟩ :=
    runSection_store S s blobs fault req
  · rwa [heq]
  · rwa [heq, receipts_addStoredBytes]
  · rw [heq, receipts_appendReceipt]
    have hkept : (if read.isSome then s.addStoredBytes did bytes.bytes.length else s).receipts =
        s.receipts := by
      split
      · exact receipts_addStoredBytes did _
      · rfl
    rw [hkept]
    intro row hrow
    obtain hrow | hrow := List.mem_append.mp hrow
    · exact h row hrow
    · rw [List.mem_singleton.mp hrow]
      exact hP.new s .upload did cid _
  · rw [heq, receipts_appendReceipt]
    intro row hrow
    obtain hrow | hrow := List.mem_append.mp hrow
    · exact h row hrow
    · rw [List.mem_singleton.mp hrow]
      exact hP.new s .download did cid _
  · show ∀ row ∈ (S.countersign s fault did contentHash payload).1.receipts, P row
    obtain heq | ⟨key, sig, hkey, hsig, heq⟩ := countersign_signed fault did contentHash payload
    · rwa [heq]
    · rw [heq]
      exact hP.countersignReceipt h hkey hsig

/-- **The rule for stored receipts**: the property holds of every receipt of a reachable store. -/
theorem ReceiptProperty.of_reachable (hP : ReceiptProperty S P) (acts : List ObjectAction) :
    ∀ row ∈ (run S.step ObjectWorld.init acts).store.receipts, P row := by
  refine run_invariant' (I := fun w : ObjectWorld => ∀ row ∈ w.store.receipts, P row) ?_ ?_
  · intro w a h
    cases a with
    | start id request =>
        rw [step_start_store]
        exact h
    | advance id fault =>
        obtain heq | ⟨req, -, heq⟩ := step_advance_store S w id fault
        · rwa [heq]
        · rw [heq]
          exact hP.runSection h w.blobs fault req
    | dial did dials => exact h
    | dropCache did => exact h
  · intro row hrow
    cases hrow

end

/-- What is in a stored receipt: the hash of its core, the provider and the DID at its two ends, and
signatures of these two only, the provider's among them. -/
structure ReceiptRow.BetweenParties (S : ObjectServer) (row : ReceiptRow) : Prop where
  hashed : row.receipt.contentHash = row.receipt.core.contentHash S.crypto.sha256Hex
  parties : (row.receipt.core.receiverId = S.provider.id ∧ row.receipt.core.senderId = row.did) ∨
    (row.receipt.core.receiverId = row.did ∧ row.receipt.core.senderId = S.provider.id)
  provided : S.provider.id ∈ row.receipt.sigs
  signers : ∀ id ∈ row.receipt.sigs, id = S.provider.id ∨ id = row.did

/-- Each signature is over the content hash, by a key that its signer's id derives from. -/
def ReceiptRow.Signed (S : ObjectServer) (row : ReceiptRow) : Prop :=
  ∀ id sig, row.receipt.sigs[id]? = some sig → ∃ key, deriveId S.crypto key = id ∧
    verifyMessage S.crypto key row.receipt.contentHash sig = true

section

variable {S : ObjectServer} {row : ReceiptRow} {keyring : Keyring}

lemma sigs_receiptFor (s : MeterStore) (direction : Direction) (did cid : String) (boundary : Nat) :
    (S.receiptFor s direction did cid boundary).sigs =
      (∅ : Std.ExtTreeMap String String compare).insert S.provider.id
        (S.provider.keypair.signMessage (S.receiptFor s direction did cid boundary).contentHash) := by
  cases direction <;> rfl

lemma receiptProperty_betweenParties (S : ObjectServer) :
    ReceiptProperty S (ReceiptRow.BetweenParties S) where
  new s direction did cid boundary := by
    refine ⟨receiptFor_contentHash direction cid boundary, ?_, ?_, ?_⟩
    · cases direction
      · exact Or.inl ⟨rfl, rfl⟩
      · exact Or.inr ⟨rfl, rfl⟩
    · show S.provider.id ∈ (S.receiptFor s direction did cid boundary).sigs
      rw [sigs_receiptFor]
      exact Std.ExtTreeMap.mem_insert_self
    · intro id hid
      have hinsert : id ∈ (S.receiptFor s direction did cid boundary).sigs := hid
      rw [sigs_receiptFor, Std.ExtTreeMap.mem_insert, Std.LawfulEqCmp.compare_eq_iff_eq] at hinsert
      obtain rfl | hempty := hinsert
      · exact Or.inl rfl
      · exact absurd hempty Std.ExtTreeMap.not_mem_empty
  countersigned row key sig h _ _ := by
    refine ⟨h.hashed, h.parties, Std.ExtTreeMap.mem_insert.mpr (Or.inr h.provided), ?_⟩
    intro id hid
    have hinsert : id ∈ row.receipt.sigs.insert row.did sig := hid
    rw [Std.ExtTreeMap.mem_insert, Std.LawfulEqCmp.compare_eq_iff_eq] at hinsert
    obtain rfl | hold := hinsert
    · exact Or.inr rfl
    · exact h.signers id hold

lemma receiptProperty_signed
    (hid : S.provider.id = deriveId S.crypto S.provider.keypair.verifyingKey)
    (hworks : S.provider.keypair.Works S.crypto) : ReceiptProperty S (ReceiptRow.Signed S) where
  new s direction did cid boundary := by
    intro id sig hsig
    have hinsert : (S.receiptFor s direction did cid boundary).sigs[id]? = some sig := hsig
    rw [sigs_receiptFor, Std.ExtTreeMap.getElem?_insert] at hinsert
    split_ifs at hinsert with heq
    · obtain rfl := Std.LawfulEqCmp.compare_eq_iff_eq.mp heq
      refine ⟨S.provider.keypair.verifyingKey, hid.symm, ?_⟩
      rw [← Option.some.inj hinsert]
      exact hworks.verifyMessage _
    · simp at hinsert
  countersigned row key sig h hkey hsig := by
    intro id sig' hsig'
    have hinsert : (row.receipt.sigs.insert row.did sig)[id]? = some sig' := hsig'
    rw [Std.ExtTreeMap.getElem?_insert] at hinsert
    split_ifs at hinsert with heq
    · obtain rfl := Std.LawfulEqCmp.compare_eq_iff_eq.mp heq
      refine ⟨key, hkey, ?_⟩
      rw [← Option.some.inj hinsert]
      exact hsig
    · exact h id sig' hinsert

/-- The receipts of a DID in a reachable store. -/
lemma ReceiptProperty.of_mem_loadReceipts {P : ReceiptRow → Prop} (hP : ReceiptProperty S P)
    {acts : List ObjectAction} {did : String} {r : Receipt}
    (hr : r ∈ (run S.step ObjectWorld.init acts).store.loadReceipts did) : P ⟨did, r⟩ := by
  obtain ⟨row, hrow, rfl⟩ := List.mem_map.mp hr
  obtain ⟨hmem, hdid⟩ := List.mem_filter.mp hrow
  obtain rfl : row.did = did := by simpa using hdid
  exact hP.of_reachable acts row hmem

/-! ## Under a ring of pinned keys -/

/-- Every pinned key is the one its id derives from. -/
def Keyring.Sound (C : Crypto) (keyring : Keyring) : Prop :=
  ∀ id key, keyring[id]? = some key → deriveId C key = id

lemma deriveId_injective {C : Crypto} (hsha : Function.Injective C.sha256Hex)
    {key key' : VerifyingKey} (h : deriveId C key = deriveId C key') : key = key' := by
  have hdigest : C.sha256Hex key.toBytes = C.sha256Hex key'.toBytes := by
    simpa [deriveId, String.join] using h
  cases key
  cases key'
  exact congrArg VerifyingKey.mk (hsha hdigest)

/-- A signature of a stored receipt verifies under the key pinned for its signer. -/
lemma ReceiptRow.Signed.verifies (h : row.Signed S) (hsha : Function.Injective S.crypto.sha256Hex)
    (hring : keyring.Sound S.crypto) {id sig : String} {key : VerifyingKey}
    (hsig : row.receipt.sigs[id]? = some sig) (hkey : keyring[id]? = some key) :
    verifyMessage S.crypto key row.receipt.contentHash sig = true := by
  obtain ⟨key', hid, hverify⟩ := h id sig hsig
  rwa [deriveId_injective hsha ((hring id key hkey).trans hid.symm)]

/-- A signer of a stored receipt has its signature there and, if it is pinned, a key that verifies
it. -/
lemma ReceiptRow.Signed.get (h : row.Signed S) (hsha : Function.Injective S.crypto.sha256Hex)
    (hring : keyring.Sound S.crypto) (hpinned : ∀ id ∈ row.receipt.sigs, id ∈ keyring) {id : String}
    (hid : id ∈ row.receipt.sigs) :
    ∃ sig key, row.receipt.sigs[id]? = some sig ∧ keyring[id]? = some key ∧
      verifyMessage S.crypto key row.receipt.contentHash sig = true := by
  obtain ⟨sig, hsig⟩ := Option.isSome_iff_exists.mp
    (Std.ExtTreeMap.isSome_getElem?_iff_mem.mpr hid)
  obtain ⟨key, hkey⟩ := Option.isSome_iff_exists.mp
    (Std.ExtTreeMap.isSome_getElem?_iff_mem.mpr (hpinned id hid))
  exact ⟨sig, key, hsig, hkey, h.verifies hsha hring hsig hkey⟩

lemma ReceiptRow.BetweenParties.coreMatches (h : row.BetweenParties S) :
    row.receipt.coreMatches S.crypto = true := by
  simp [Receipt.coreMatches, h.hashed]

lemma ReceiptRow.BetweenParties.verifyUnilateral_iff (h : row.BetweenParties S)
    (hsigned : row.Signed S) (hsha : Function.Injective S.crypto.sha256Hex)
    (hring : keyring.Sound S.crypto) (hpinned : ∀ id ∈ row.receipt.sigs, id ∈ keyring) :
    row.receipt.verifyUnilateral S.crypto keyring = true ↔ row.receipt.mode = .unilateral := by
  have hsome : row.receipt.sigs.isEmpty = false := by
    rw [Std.ExtTreeMap.isEmpty_eq_false_iff]
    intro hempty
    have hprovided := h.provided
    rw [hempty] at hprovided
    exact Std.ExtTreeMap.not_mem_empty hprovided
  rw [Receipt.verifyUnilateral, h.coreMatches, hsome]
  by_cases hmode : row.receipt.mode = .unilateral
  · simp only [hmode, ne_eq, not_true_eq_false, Bool.true_eq_false, Bool.false_eq_true, or_self,
      if_false, iff_true, List.all_eq_true]
    rintro ⟨id, sig⟩ hmem
    have hsig := Std.ExtTreeMap.mem_toList_iff_getElem?_eq_some.mp hmem
    have hid : id ∈ row.receipt.sigs :=
      Std.ExtTreeMap.mem_iff_isSome_getElem?.mpr (by rw [hsig]; rfl)
    obtain ⟨sig', key, hsig', hkey, hverify⟩ := hsigned.get hsha hring hpinned hid
    obtain rfl : sig = sig' := Option.some.inj (hsig.symm.trans hsig')
    rw [hkey]
    exact hverify
  · simp [hmode]

lemma ReceiptRow.BetweenParties.verifyBilateral_iff (h : row.BetweenParties S)
    (hsigned : row.Signed S) (hsha : Function.Injective S.crypto.sha256Hex)
    (hring : keyring.Sound S.crypto) (hpinned : ∀ id ∈ row.receipt.sigs, id ∈ keyring) :
    row.receipt.verifyBilateral S.crypto keyring = true ↔ row.receipt.isCoAttested = true := by
  rw [Receipt.verifyBilateral, Receipt.isCoAttested, Receipt.isAcknowledged, h.coreMatches]
  by_cases hmode : row.receipt.mode = .bilateral
  · by_cases hreceiver : row.receipt.core.receiverId ∈ row.receipt.sigs
    · by_cases hsender : row.receipt.core.senderId ∈ row.receipt.sigs
      · obtain ⟨_, _, hrsig, hrkey, hrverify⟩ := hsigned.get hsha hring hpinned hreceiver
        obtain ⟨_, _, hssig, hskey, hsverify⟩ := hsigned.get hsha hring hpinned hsender
        rw [if_neg (by simp [hmode]), hrsig, hssig]
        dsimp only
        rw [hrkey, hskey]
        simp [hmode, hreceiver, hsender, hrverify, hsverify]
      · simp [hmode, hsender]
    · simp [hmode, hreceiver]
  · simp [hmode]

end

/-- **A stored receipt passes the check of its mode.**  Take any run of the server, a stored receipt
and a ring of pinned keys with a key for each signer of the receipt.  The receipt is accepted as a
unilateral measurement exactly when it is one, and as a bilateral receipt exactly when it reads as
co-attested. -/
theorem stored_receipts_verify (S : ObjectServer) (hsha : Function.Injective S.crypto.sha256Hex)
    (hid : S.provider.id = deriveId S.crypto S.provider.keypair.verifyingKey)
    (hworks : S.provider.keypair.Works S.crypto) (acts : List ObjectAction) (did : String)
    (r : Receipt) (hr : r ∈ (run S.step ObjectWorld.init acts).store.loadReceipts did)
    (keyring : Keyring) (hring : keyring.Sound S.crypto) (hpinned : ∀ id ∈ r.sigs, id ∈ keyring) :
    (r.verifyUnilateral S.crypto keyring = true ↔ r.mode = .unilateral) ∧
      (r.verifyBilateral S.crypto keyring = true ↔ r.isCoAttested = true) := by
  have hparties := (receiptProperty_betweenParties S).of_mem_loadReceipts hr
  have hsigned := (receiptProperty_signed hid hworks).of_mem_loadReceipts hr
  exact ⟨hparties.verifyUnilateral_iff hsigned hsha hring hpinned,
    hparties.verifyBilateral_iff hsigned hsha hring hpinned⟩

/-! ## Altered copies -/

namespace Receipt

variable {C : Crypto} {keyring : Keyring} {r r' : Receipt}

/-- The receipt passes one of the two checks. -/
def Verifies (C : Crypto) (keyring : Keyring) (r : Receipt) : Prop :=
  r.verifyUnilateral C keyring = true ∨ r.verifyBilateral C keyring = true

instance : Decidable (r.Verifies C keyring) := inferInstanceAs (Decidable (_ ∨ _))

/-- A signature that verifies over the content hash under the signer's pinned key. -/
def SigVerifies (C : Crypto) (keyring : Keyring) (r : Receipt) (id sig : String) : Prop :=
  ∃ key, keyring[id]? = some key ∧ verifyMessage C key r.contentHash sig = true

lemma of_verifyUnilateral (h : r.verifyUnilateral C keyring = true) :
    r.coreMatches C = true ∧ (∃ id sig : String, r.sigs[id]? = some sig) ∧
      ∀ id sig : String, r.sigs[id]? = some sig → r.SigVerifies C keyring id sig := by
  unfold verifyUnilateral at h
  split_ifs at h with hcond
  simp only [not_or, Bool.not_eq_false, Bool.not_eq_true] at hcond
  refine ⟨hcond.2.1, ?_, ?_⟩
  · have hlist : r.sigs.toList ≠ [] := by
      rw [← List.isEmpty_eq_false_iff, Std.ExtTreeMap.isEmpty_toList]
      exact hcond.2.2
    obtain ⟨⟨id, sig⟩, hmem⟩ := List.exists_mem_of_ne_nil _ hlist
    exact ⟨id, sig, Std.ExtTreeMap.mem_toList_iff_getElem?_eq_some.mp hmem⟩
  · intro id sig hsig
    have hone := List.all_eq_true.mp h (id, sig)
      (Std.ExtTreeMap.mem_toList_iff_getElem?_eq_some.mpr hsig)
    exact (Option.any_eq_true _ _).mp hone

lemma of_verifyBilateral (h : r.verifyBilateral C keyring = true) :
    r.coreMatches C = true ∧
      (∃ sig, r.sigs[r.core.receiverId]? = some sig ∧
        r.SigVerifies C keyring r.core.receiverId sig) ∧
      ∃ sig, r.sigs[r.core.senderId]? = some sig ∧ r.SigVerifies C keyring r.core.senderId sig := by
  unfold verifyBilateral at h
  split_ifs at h with hcond
  simp only [not_or, Bool.not_eq_false] at hcond
  split at h
  · rename_i receiverSig senderSig hreceiver hsender
    split at h
    · rename_i receiverKey senderKey hrkey hskey
      simp only [Bool.and_eq_true] at h
      exact ⟨hcond.2, ⟨_, hreceiver, _, hrkey, h.1⟩, _, hsender, _, hskey, h.2⟩
    · cases h
  · cases h

end Receipt

/-- A signature is over one message only. -/
def MessageBound (C : Crypto) : Prop :=
  ∀ key message message' sig, C.verifyStrict key message sig = true →
    C.verifyStrict key message' sig = true → message = message'

lemma MessageBound.verifyMessage {C : Crypto} (h : MessageBound C) {key : VerifyingKey}
    {message message' sig : String} (hsig : verifyMessage C key message sig = true)
    (hsig' : verifyMessage C key message' sig = true) : message = message' := by
  unfold Ciss.verifyMessage at hsig hsig'
  cases hbytes : hexDecode sig with
  | none =>
      rw [hbytes] at hsig
      cases hsig
  | some bytes =>
      rw [hbytes] at hsig hsig'
      simp only [Bool.and_eq_true] at hsig hsig'
      exact asBytes_injective (h key _ _ _ hsig.2 hsig'.2)

/-- **The signatures of a stored receipt vouch for one core.**  A receipt that is put together from
signatures of a stored receipt that verifies is accepted under no other core: an altered byte count,
range, total, day, mode of the account or party breaks it, whatever content hash it carries. -/
theorem signatures_vouch_for_one_core (S : ObjectServer)
    (hsha : Function.Injective S.crypto.sha256Hex) (hbound : MessageBound S.crypto)
    (acts : List ObjectAction) (did : String) (r : Receipt)
    (hr : r ∈ (run S.step ObjectWorld.init acts).store.loadReceipts did) (keyring : Keyring)
    (hverifies : r.Verifies S.crypto keyring) (r' : Receipt)
    (hsigs : ∀ id sig : String, r'.sigs[id]? = some sig → r.sigs[id]? = some sig)
    (hverifies' : r'.Verifies S.crypto keyring) : r'.core = r.core := by
  have hparties := (receiptProperty_betweenParties S).of_mem_loadReceipts hr
  -- every signature of the stored receipt verifies, also in the bilateral mode: both are checked
  have hall : ∀ id sig : String, r.sigs[id]? = some sig → r.SigVerifies S.crypto keyring id sig := by
    obtain h | h := hverifies
    · exact (Receipt.of_verifyUnilateral h).2.2
    · obtain ⟨-, ⟨rsig, hrsig, hrecv⟩, ssig, hssig, hsend⟩ := Receipt.of_verifyBilateral h
      intro id sig hsig
      have hid : id = r.core.receiverId ∨ id = r.core.senderId := by
        have hsigner : id = S.provider.id ∨ id = did := hparties.signers id
          (Std.ExtTreeMap.mem_iff_isSome_getElem?.mpr (by rw [hsig]; rfl))
        obtain ⟨h₁, h₂⟩ | ⟨h₁, h₂⟩ := hparties.parties
        · exact hsigner.imp (·.trans h₁.symm) (·.trans h₂.symm)
        · exact hsigner.symm.imp (·.trans h₁.symm) (·.trans h₂.symm)
      obtain rfl | rfl := hid
      · rwa [← Option.some.inj (hrsig.symm.trans hsig)]
      · rwa [← Option.some.inj (hssig.symm.trans hsig)]
  obtain ⟨hcore, id, sig, hsig, hverify⟩ : r'.coreMatches S.crypto = true ∧ ∃ id sig : String,
      r'.sigs[id]? = some sig ∧ r'.SigVerifies S.crypto keyring id sig := by
    obtain h | h := hverifies'
    · obtain ⟨hcore, ⟨id, sig, hsig⟩, hsigned⟩ := Receipt.of_verifyUnilateral h
      exact ⟨hcore, id, sig, hsig, hsigned id sig hsig⟩
    · obtain ⟨hcore, ⟨sig, hsig, hverify⟩, -⟩ := Receipt.of_verifyBilateral h
      exact ⟨hcore, _, sig, hsig, hverify⟩
  obtain ⟨key, hkey, hmessage'⟩ := hverify
  obtain ⟨key', hkey', hmessage⟩ := hall id sig (hsigs id sig hsig)
  obtain rfl : key = key' := Option.some.inj (hkey.symm.trans hkey')
  have hhash : r'.contentHash = r.contentHash := hbound.verifyMessage hmessage' hmessage
  have hcore' : r'.core.contentHash S.crypto.sha256Hex = r'.contentHash := by
    simpa [Receipt.coreMatches] using hcore
  exact ReceiptCore.toCanonicalBytes_injective
    (hsha ((hcore'.trans hhash).trans hparties.hashed))

/-! ### A receipt that is countersigned

The customer of `Echo` asks for bilateral receipts, uploads three bytes and countersigns. -/

namespace Cosigned

/-- What SHA-256 is applied to, the provider's key included. -/
def digests : List (Bytes × String) :=
  (Echo.providerKey.toBytes, "dbc298251c51321b7266e78d1c151c2b62aff8cb95b293096d3463018544face") ::
    Echo.digests

/-- The provider's signatures, and the customer's one, as far as `signs` allows. -/
def crypto (signs : Bytes → Bool) : Crypto where
  sha256Hex := tabulatedHex digests
  isPublicKey bytes := bytes = Echo.customerKey.toBytes || bytes = Echo.providerKey.toBytes
  verifyStrict key message sig :=
    key = Echo.providerKey && signs message && Echo.providerSign message = sig ||
      key = Echo.customerKey && message = asBytes Echo.coreHash &&
        some sig = hexDecode Echo.customerSig

def server (signs : Bytes → Bool) : ObjectServer := { Echo.server with crypto := crypto signs }

def acts : List ObjectAction :=
  .dial Echo.did ⟨.active, none, none, .bilateral, 0⟩ :: Echo.firstUpload ++
    [.start 2 (.countersign Echo.did Echo.coreHash "countersign"), .advance 2 .none]

/-- The receipts of the customer after the run. -/
def receipts (signs : Bytes → Bool) : List Receipt :=
  (run (server signs).step ObjectWorld.init acts).store.loadReceipts Echo.did

/-- Both keys, pinned. -/
def keyring : Keyring :=
  ((∅ : Keyring).insert Echo.providerId Echo.providerKey).insert Echo.did Echo.customerKey

/-- The provider's signature alone, as a unilateral receipt. -/
def measurement : Receipt :=
  buildBoundaryReceipt (tabulatedHex digests) Echo.server.provider Echo.core .unilateral

/-- What is seen: one receipt, co-attested, that verifies and has the provider's signature. -/
lemma observed : ((receipts fun _ => true).map fun r =>
      (r.isCoAttested, r.sigs.toList.all fun s => keyring.contains s.1)) = [(true, true)] ∧
    ((receipts (· = asBytes Echo.coreHash)).map fun r =>
      (r.verifyBilateral (crypto (· = asBytes Echo.coreHash)) keyring,
        r.sigs[Echo.providerId]?)) =
      [(true, some (Echo.server.provider.keypair.signMessage Echo.coreHash))] ∧
    Echo.providerId = deriveId (crypto fun _ => true) Echo.providerKey ∧
    Echo.did = deriveId (crypto fun _ => true) Echo.customerKey ∧
    HexDigests digests ∧
    (∀ message ∈ [asBytes Echo.coreHash, []], (Echo.providerSign message).length = 64) ∧
    Echo.providerKey.toBytes.length = 32 ∧
    ReceiptCore.contentHash (tabulatedHex digests) Echo.core = Echo.coreHash ∧
    measurement.verifyUnilateral (crypto (· = asBytes Echo.coreHash)) keyring = true := by
  decide +kernel

lemma works : (server fun _ => true).provider.keypair.Works (crypto fun _ => true) where
  isPublicKey := by simp [crypto, server, Echo.server]
  length_key := observed.2.2.2.2.2.2.1
  length_sign message := by
    obtain ⟨-, -, -, -, -, hlength, -⟩ := observed
    show (Echo.providerSign message).length = 64
    by_cases h : message = asBytes Echo.coreHash
    · rw [h]
      exact hlength _ (by simp)
    · have hother : Echo.providerSign message = Echo.providerSign [] := by
        have hnil : ([] : Bytes) ≠ asBytes Echo.coreHash := by
          intro hnil
          have := congrArg List.length hnil
          have hlong := length_toList_le_asBytes Echo.coreHash
          simp [Echo.coreHash] at this hlong
          omega
        rw [Echo.providerSign, Echo.providerSign, if_neg h, if_neg hnil]
      rw [hother]
      exact hlength _ (by simp)
  verify_sign message := by simp [crypto, server, Echo.server]

lemma hexHash : HexHash (tabulatedHex digests) := hexHash_tabulatedHex observed.2.2.2.2.1

lemma keyring_sound : keyring.Sound (crypto fun _ => true) := by
  obtain ⟨-, -, hprovider, hcustomer, -⟩ := observed
  intro id key h
  rw [keyring, Std.ExtTreeMap.getElem?_insert, Std.ExtTreeMap.getElem?_insert] at h
  split_ifs at h with h₁ h₂
  · rw [← Option.some.inj h, ← hcustomer]
    exact Std.LawfulEqCmp.compare_eq_iff_eq.mp h₁
  · rw [← Option.some.inj h, ← hprovider]
    exact Std.LawfulEqCmp.compare_eq_iff_eq.mp h₂
  · simp at h

lemma messageBound : MessageBound (crypto (· = asBytes Echo.coreHash)) := by
  intro key message message' sig h h'
  have hone : ∀ m, (crypto (· = asBytes Echo.coreHash)).verifyStrict key m sig = true →
      m = asBytes Echo.coreHash := by
    intro m hm
    simp only [crypto, Bool.or_eq_true, Bool.and_eq_true, decide_eq_true_eq] at hm
    obtain hm | hm := hm
    · exact hm.1.2
    · exact hm.1.2
  rw [hone message h, hone message' h']

end Cosigned

/-- The countersigned receipt verifies as a bilateral one. -/
theorem stored_receipts_verify_countersigned : ∃ r, Cosigned.receipts (fun _ => true) = [r] ∧
    r.verifyBilateral (Cosigned.crypto fun _ => true) Cosigned.keyring = true := by
  obtain ⟨hone, -, hprovider, -⟩ := Cosigned.observed
  obtain ⟨r, hload, hpair⟩ := List.map_eq_singleton_iff.mp hone
  obtain ⟨hcosigned, hpinned⟩ := Prod.mk.inj hpair
  have hmem : r ∈ (run (Cosigned.server fun _ => true).step ObjectWorld.init
      Cosigned.acts).store.loadReceipts Echo.did := by
    rw [← Cosigned.receipts, hload]
    exact List.mem_singleton_self r
  refine ⟨r, hload, ((stored_receipts_verify (Cosigned.server fun _ => true)
    Cosigned.hexHash.injective hprovider Cosigned.works Cosigned.acts Echo.did r hmem
    Cosigned.keyring Cosigned.keyring_sound ?_).2).mpr hcosigned⟩
  intro id hid
  obtain ⟨sig, hsig⟩ := Option.isSome_iff_exists.mp
    (Std.ExtTreeMap.isSome_getElem?_iff_mem.mpr hid)
  have hentry := List.all_eq_true.mp hpinned (id, sig)
    (Std.ExtTreeMap.mem_toList_iff_getElem?_eq_some.mpr hsig)
  exact Std.ExtTreeMap.contains_iff_mem.mp hentry

/-- The provider's signature of the countersigned receipt is also accepted as a measurement, of the
same core. -/
theorem signatures_vouch_for_one_core_measured : ∃ r,
    Cosigned.receipts (· = asBytes Echo.coreHash) = [r] ∧ Echo.core = r.core := by
  obtain ⟨-, hone, -, -, -, -, -, hhash, hmeasured⟩ := Cosigned.observed
  obtain ⟨r, hload, hpair⟩ := List.map_eq_singleton_iff.mp hone
  obtain ⟨hverifies, hsig⟩ := Prod.mk.inj hpair
  have hmem : r ∈ (run (Cosigned.server (· = asBytes Echo.coreHash)).step ObjectWorld.init
      Cosigned.acts).store.loadReceipts Echo.did := by
    rw [← Cosigned.receipts, hload]
    exact List.mem_singleton_self r
  refine ⟨r, hload, signatures_vouch_for_one_core (Cosigned.server (· = asBytes Echo.coreHash))
    Cosigned.hexHash.injective Cosigned.messageBound Cosigned.acts Echo.did r hmem Cosigned.keyring
    (Or.inr hverifies) Cosigned.measurement ?_ (Or.inl hmeasured)⟩
  intro id sig h
  have hinsert : ((∅ : Std.ExtTreeMap String String compare).insert Echo.providerId
      (Echo.server.provider.keypair.signMessage
        (ReceiptCore.contentHash (tabulatedHex Cosigned.digests) Echo.core)))[id]? = some sig := h
  rw [hhash, Std.ExtTreeMap.getElem?_insert] at hinsert
  split_ifs at hinsert with hid
  · obtain rfl := Std.LawfulEqCmp.compare_eq_iff_eq.mp hid
    rw [hsig, hinsert]
  · simp at hinsert

end Ciss
