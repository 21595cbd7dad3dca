import Std.Data.ExtTreeMap
import Ciss.Framework.HashTable
import Ciss.Framework.Linked
import Ciss.Framework.Machine
import Ciss.Server.Canonical
import Ciss.Server.Identity

/-!
# The signed ledger

An actor's append-only ledger.  Each entry links to the one before it by sequence number and hash,
carries a payload and its signers' signatures over the entry's hash.  `verifyEntries` re-reads a
list of entries, recomputes every hash and checks links and signatures against pinned keys; it
returns the problems it finds.

It finds none exactly when the list is linked from genesis and every entry is sound
(`verifyEntries_eq_nil_iff`).  Appending keeps both, provided every signer's key is pinned: one
signer whose key is not makes an issue of its own.  Since the canonical JSON of what is hashed
determines it, an accepted list is determined by its last hash.

A position in a list is a `usize`, here a natural number.
-/

namespace Ciss

/-! ## The program -/

/-- The `prev_hash` of the first entry in any ledger. -/
def genesisPrev : String := "0000000000000000000000000000000000000000000000000000000000000000"

/-- A party whose signature an appended entry will carry. -/
structure Signer where
  actorId : String
  keypair : Keypair

/-- A single append-only ledger entry. -/
structure LedgerEntry where
  seq : Nat
  prevHash : String
  ts : String
  kind : String
  body : Value
  hash : String
  sigs : Std.ExtTreeMap String String compare

/-- The members of the payload the entry hash is taken over, in field order. -/
def preimageFields (seq : Nat) (prevHash ts kind : String) (body : Value) :
    List (String × Bytes) :=
  [("seq", asBytes seq.repr), ("prev_hash", renderString prevHash), ("ts", renderString ts),
    ("kind", renderString kind), ("body", canonicalString body)]

def Ledger.entryHash (C : Crypto) (seq : Nat) (prevHash ts kind : String) (body : Value) : String :=
  C.sha256Hex (canonicalObject (preimageFields seq prevHash ts kind body))

/-- An actor's append-only ledger. -/
structure Ledger where
  ownerId : String
  entries : List LedgerEntry

/-- The signatures of an entry, by signer id; of two under one id the later is kept. -/
def collectSigs (hash : String) (signers : List Signer) :
    Std.ExtTreeMap String String compare :=
  signers.foldl (fun sigs s => sigs.insert s.actorId (s.keypair.signMessage hash)) ∅

namespace Ledger

/-- A new, empty ledger owned by `ownerId`. -/
def new (ownerId : String) : Ledger where
  ownerId := ownerId
  entries := []

def lastHash (l : Ledger) : String :=
  match l.entries.getLast? with
  | some e => e.hash
  | none => genesisPrev

/-- Append a signed entry. -/
def append (C : Crypto) (l : Ledger) (kind ts : String) (body : Value) (signers : List Signer) :
    Ledger :=
  let seq := l.entries.length
  let hash := Ledger.entryHash C seq l.lastHash ts kind body
  { l with
    entries := l.entries ++
      [{ seq := seq
         prevHash := l.lastHash
         ts := ts
         kind := kind
         body := body
         hash := hash
         sigs := collectSigs hash signers }] }

end Ledger

/-- The arguments of one call of `append`. -/
structure AppendCall where
  kind : String
  ts : String
  body : Value
  signers : List Signer

/-- The ledger after one more call. -/
def Ledger.call (C : Crypto) (l : Ledger) (a : AppendCall) : Ledger :=
  l.append C a.kind a.ts a.body a.signers

/-- A problem found while verifying a ledger. -/
structure VerifyIssue where
  seq : Nat
  problem : String
  deriving DecidableEq, Repr

/-- The public keys pinned for actors. -/
abbrev Keyring := Std.ExtTreeMap String VerifyingKey compare

section

variable (C : Crypto) (keyring : Keyring)

/-- What is wrong with one signature. -/
def sigIssues (entry : LedgerEntry) (signerId signature : String) : List VerifyIssue :=
  match keyring[signerId]? with
  | none => [⟨entry.seq, "no pinned key for signer " ++ signerId⟩]
  | some publicKey =>
      if verifyMessage C publicKey entry.hash signature then []
      else [⟨entry.seq, "bad signature from " ++ signerId⟩]

/-- What is wrong with the entry at position `idx`. -/
def entryIssues (expectedPrev : String) (idx : Nat) (entry : LedgerEntry) : List VerifyIssue :=
  (if entry.seq ≠ idx then [⟨entry.seq, "seq out of order: expected " ++ idx.repr⟩] else []) ++
  (if entry.prevHash ≠ expectedPrev then [⟨entry.seq, "prev_hash breaks the chain link"⟩]
    else []) ++
  (if Ledger.entryHash C entry.seq entry.prevHash entry.ts entry.kind entry.body ≠
      entry.hash then [⟨entry.seq, "hash does not match body (entry edited)"⟩]
    else []) ++
  (if entry.sigs.isEmpty then [⟨entry.seq, "entry carries no signature"⟩] else []) ++
  entry.sigs.toList.flatMap fun s => sigIssues C keyring entry s.1 s.2

/-- The loop of `verify_entries`, from position `idx` on. -/
def verifyEntriesFrom : String → Nat → List LedgerEntry → List VerifyIssue
  | _, _, [] => []
  | expectedPrev, idx, entry :: entries =>
      entryIssues C keyring expectedPrev idx entry ++
        verifyEntriesFrom entry.hash (idx + 1) entries

/-- Verify a list of entries against a keyring; returns every problem found. -/
def verifyEntries (entries : List LedgerEntry) : List VerifyIssue :=
  verifyEntriesFrom C keyring genesisPrev 0 entries

end

/-! ## What an accepted list is -/

section

variable {C : Crypto} {keyring : Keyring}

/-- An entry whose hash is that of its payload and whose signatures, of which there is one, verify
under the keys pinned for their signers. -/
structure LedgerEntry.Sound (C : Crypto) (keyring : Keyring) (entry : LedgerEntry) : Prop where
  hash : Ledger.entryHash C entry.seq entry.prevHash entry.ts entry.kind entry.body = entry.hash
  signed : entry.sigs ≠ ∅
  sigs : ∀ signerId signature : String, entry.sigs[signerId]? = some signature →
    ∃ publicKey, keyring[signerId]? = some publicKey ∧
      verifyMessage C publicKey entry.hash signature = true

lemma sigIssues_eq_nil {entry : LedgerEntry} {signerId signature : String} :
    sigIssues C keyring entry signerId signature = [] ↔
      ∃ publicKey, keyring[signerId]? = some publicKey ∧
        verifyMessage C publicKey entry.hash signature = true := by
  unfold sigIssues
  cases hkey : keyring[signerId]? with
  | none => simp
  | some publicKey => simp

lemma entryIssues_eq_nil {entry : LedgerEntry} {expectedPrev : String} {idx : Nat} :
    entryIssues C keyring expectedPrev idx entry = [] ↔
      entry.prevHash = expectedPrev ∧ entry.seq = idx ∧ entry.Sound C keyring := by
  have hsigs : (∀ s ∈ entry.sigs.toList, sigIssues C keyring entry s.1 s.2 = []) ↔
      ∀ signerId signature : String, entry.sigs[signerId]? = some signature →
        ∃ publicKey, keyring[signerId]? = some publicKey ∧
          verifyMessage C publicKey entry.hash signature = true := by
    simp only [sigIssues_eq_nil, Prod.forall, Std.ExtTreeMap.mem_toList_iff_getElem?_eq_some]
  unfold entryIssues
  simp only [List.append_eq_nil_iff, List.flatMap_eq_nil_iff, hsigs, ite_eq_right_iff,
    List.cons_ne_nil, imp_false, not_not, Std.ExtTreeMap.isEmpty_iff]
  constructor
  · rintro ⟨⟨⟨⟨hseq, hprev⟩, hhash⟩, hsigned⟩, hverify⟩
    exact ⟨hprev, hseq, ⟨hhash, hsigned, hverify⟩⟩
  · rintro ⟨hprev, hseq, hsound⟩
    exact ⟨⟨⟨⟨hseq, hprev⟩, hsound.hash⟩, hsound.signed⟩, hsound.sigs⟩

lemma verifyEntriesFrom_eq_nil {expectedPrev : String} {idx : Nat} {entries : List LedgerEntry} :
    verifyEntriesFrom C keyring expectedPrev idx entries = [] ↔
      LinkedFrom LedgerEntry.hash LedgerEntry.prevHash LedgerEntry.seq expectedPrev idx entries ∧
        ∀ e ∈ entries, e.Sound C keyring := by
  induction entries generalizing expectedPrev idx with
  | nil => simp [verifyEntriesFrom, LinkedFrom]
  | cons e entries ih =>
      rw [verifyEntriesFrom, List.append_eq_nil_iff, entryIssues_eq_nil, ih, linkedFrom_cons,
        List.forall_mem_cons]
      constructor
      · rintro ⟨⟨hprev, hseq, hsound⟩, hlinked, hrest⟩
        exact ⟨⟨hprev, hseq, hlinked⟩, hsound, hrest⟩
      · rintro ⟨⟨hprev, hseq, hlinked⟩, hsound, hrest⟩
        exact ⟨⟨hprev, hseq, hsound⟩, hlinked, hrest⟩

/-- **Verification finds nothing exactly in linked lists of sound entries.** -/
theorem verifyEntries_eq_nil_iff {entries : List LedgerEntry} :
    verifyEntries C keyring entries = [] ↔
      LinkedFrom LedgerEntry.hash LedgerEntry.prevHash LedgerEntry.seq genesisPrev 0 entries ∧
        ∀ e ∈ entries, e.Sound C keyring :=
  verifyEntriesFrom_eq_nil

/-! ## Appending -/

/-- The id of every signer of the call is pinned to the signer's key, and there is a signer. -/
structure AppendCall.Pinned (keyring : Keyring) (a : AppendCall) : Prop where
  signed : a.signers ≠ []
  pinned : ∀ s ∈ a.signers, keyring[s.actorId]? = some s.keypair.verifyingKey

lemma collectSigs_concat (hash : String) (signers : List Signer) (s : Signer) :
    collectSigs hash (signers ++ [s]) =
      (collectSigs hash signers).insert s.actorId (s.keypair.signMessage hash) := by
  simp [collectSigs]

/-- Every collected signature is one a signer made. -/
lemma exists_signer_of_collectSigs {hash signerId signature : String} {signers : List Signer}
    (h : (collectSigs hash signers)[signerId]? = some signature) :
    ∃ s ∈ signers, s.actorId = signerId ∧ s.keypair.signMessage hash = signature := by
  induction signers using List.reverseRecOn with
  | nil => simp [collectSigs] at h
  | append_singleton signers s ih =>
      rw [collectSigs_concat, Std.ExtTreeMap.getElem?_insert] at h
      split_ifs at h with hid
      · exact ⟨s, by simp, by simpa using hid, by simpa using h⟩
      · obtain ⟨t, ht, hrest⟩ := ih h
        exact ⟨t, by simp [ht], hrest⟩

lemma collectSigs_ne_empty {hash : String} {signers : List Signer} (h : signers ≠ []) :
    collectSigs hash signers ≠ ∅ := by
  cases signers using List.reverseRecOn with
  | nil => exact absurd rfl h
  | append_singleton signers s =>
      rw [collectSigs_concat]
      exact Std.ExtTreeMap.insert_ne_empty

lemma Ledger.lastHash_eq (l : Ledger) :
    l.lastHash = nextHash LedgerEntry.hash genesisPrev l.entries := by
  unfold Ledger.lastHash nextHash
  cases l.entries.getLast? <;> rfl

/-- **Appending with pinned signers keeps the ledger accepted.** -/
lemma verifyEntries_call {l : Ledger} {a : AppendCall}
    (h : verifyEntries C keyring l.entries = []) (ha : a.Pinned keyring)
    (hworks : ∀ s ∈ a.signers, s.keypair.Works C) :
    verifyEntries C keyring (l.call C a).entries = [] := by
  obtain ⟨hlinked, hsound⟩ := verifyEntries_eq_nil_iff.mp h
  refine verifyEntries_eq_nil_iff.mpr ⟨?_, ?_⟩
  · exact linkedFrom_concat.mpr ⟨hlinked, l.lastHash_eq, (Nat.zero_add _).symm⟩
  · intro e he
    obtain he | he := List.mem_append.mp he
    · exact hsound e he
    · obtain rfl := List.mem_singleton.mp he
      refine ⟨rfl, collectSigs_ne_empty ha.signed, ?_⟩
      intro signerId signature hsig
      obtain ⟨s, hs, hid, hsignature⟩ := exists_signer_of_collectSigs hsig
      refine ⟨s.keypair.verifyingKey, hid ▸ ha.pinned s hs, ?_⟩
      rw [← hsignature]
      exact (hworks s hs).verifyMessage _

/-! ## The last hash -/

/-- Two entries that agree in everything that is hashed, and in the hash. -/
structure LedgerEntry.Agrees (e e' : LedgerEntry) : Prop where
  seq : e.seq = e'.seq
  prevHash : e.prevHash = e'.prevHash
  ts : e.ts = e'.ts
  kind : e.kind = e'.kind
  hash : e.hash = e'.hash
  body : e.body.Same e'.body

/-- Members of two payloads under one key are both numerals, both strings or both bodies. -/
lemma unmistakable_preimageFields {seq seq' : Nat} {prevHash prevHash' ts ts' kind kind' : String}
    {body body' : Value} (hbody : body.Integral) (hbody' : body'.Integral) {k : String}
    {x y : Bytes} (hx : (k, x) ∈ preimageFields seq prevHash ts kind body)
    (hy : (k, y) ∈ preimageFields seq' prevHash' ts' kind' body') :
    Unmistakable EndsValue x y := by
  simp only [preimageFields, List.mem_cons, Prod.mk.injEq, List.not_mem_nil, or_false] at hx
  obtain ⟨rfl, rfl⟩ | ⟨rfl, rfl⟩ | ⟨rfl, rfl⟩ | ⟨rfl, rfl⟩ | ⟨rfl, rfl⟩ := hx
  · obtain rfl : y = asBytes seq'.repr := by simpa [preimageFields] using hy
    exact unmistakable_natRepr seq seq'
  · obtain rfl : y = renderString prevHash' := by simpa [preimageFields] using hy
    exact unmistakable_renderString prevHash prevHash'
  · obtain rfl : y = renderString ts' := by simpa [preimageFields] using hy
    exact unmistakable_renderString ts ts'
  · obtain rfl : y = renderString kind' := by simpa [preimageFields] using hy
    exact unmistakable_renderString kind kind'
  · obtain rfl : y = canonicalString body' := by simpa [preimageFields] using hy
    exact unmistakable_canonicalString hbody hbody'

lemma renderString_injective : Function.Injective renderString := by
  intro a b h
  exact (renderString_append_inj (congrArg (· ++ []) h)).1

/-- **The hash of an entry determines what it is taken over.** -/
lemma Ledger.entryHash_inj (hsha : Function.Injective C.sha256Hex) {seq seq' : Nat}
    {prevHash prevHash' ts ts' kind kind' : String} {body body' : Value} (hbody : body.Integral)
    (hbody' : body'.Integral)
    (h : Ledger.entryHash C seq prevHash ts kind body =
      Ledger.entryHash C seq' prevHash' ts' kind' body') :
    seq = seq' ∧ prevHash = prevHash' ∧ ts = ts' ∧ kind = kind' ∧ body.Same body' := by
  have hperm := perm_of_canonicalObject_eq
    (fun k x y => unmistakable_preimageFields (k := k) (x := x) (y := y) hbody hbody') (hsha h)
  have hkeys : ((preimageFields seq prevHash ts kind body).map Prod.fst).Nodup := by
    show ["seq", "prev_hash", "ts", "kind", "body"].Nodup
    decide
  have hvalue : ∀ k x y, (k, x) ∈ preimageFields seq prevHash ts kind body →
      (k, y) ∈ preimageFields seq' prevHash' ts' kind' body' → x = y :=
    fun k x y hx hy => value_eq_of_perm hkeys hperm hx hy
  have hseq : asBytes seq.repr = asBytes seq'.repr :=
    hvalue "seq" _ _ (by simp [preimageFields]) (by simp [preimageFields])
  have hprev : renderString prevHash = renderString prevHash' :=
    hvalue "prev_hash" _ _ (by simp [preimageFields]) (by simp [preimageFields])
  have hts : renderString ts = renderString ts' :=
    hvalue "ts" _ _ (by simp [preimageFields]) (by simp [preimageFields])
  have hkind : renderString kind = renderString kind' :=
    hvalue "kind" _ _ (by simp [preimageFields]) (by simp [preimageFields])
  have htext : canonicalString body = canonicalString body' :=
    hvalue "body" _ _ (by simp [preimageFields]) (by simp [preimageFields])
  exact ⟨Nat.repr_inj.mp (asBytes_injective hseq), renderString_injective hprev,
    renderString_injective hts, renderString_injective hkind,
    (canonicalString_eq_iff hbody hbody').mp htext⟩

/-- Entries whose hashes are their payloads' agree when the hashes do. -/
lemma LedgerEntry.agrees_of_hash_eq (hsha : Function.Injective C.sha256Hex) {keyring' : Keyring}
    {e e' : LedgerEntry} (he : e.Sound C keyring) (he' : e'.Sound C keyring')
    (hbody : e.body.Integral) (hbody' : e'.body.Integral) (h : e.hash = e'.hash) :
    e.Agrees e' := by
  have hpayload := he.hash.trans (h.trans he'.hash.symm)
  obtain ⟨hseq, hprev, hts, hkind, hsame⟩ := Ledger.entryHash_inj hsha hbody hbody' hpayload
  exact ⟨hseq, hprev, hts, hkind, h, hsame⟩

/-- **The signed ledger verifies and is tamper evident.**  After any appends, each with a signer
and with every signer's key pinned under its id, verification finds no issue; and two lists in
which it finds none and whose last entries hash alike agree entry by entry. -/
theorem ledger_verifies_and_commits (hsha : Function.Injective C.sha256Hex) :
    (∀ (ownerId : String) (keyring : Keyring) (calls : List AppendCall),
      (∀ a ∈ calls, a.Pinned keyring) → (∀ a ∈ calls, ∀ s ∈ a.signers, s.keypair.Works C) →
        verifyEntries C keyring (run (Ledger.call C) (Ledger.new ownerId) calls).entries = []) ∧
    (∀ (keyring keyring' : Keyring) (entries entries' : List LedgerEntry),
      (∀ e ∈ entries, e.body.Integral) → (∀ e ∈ entries', e.body.Integral) →
      verifyEntries C keyring entries = [] → verifyEntries C keyring' entries' = [] →
      entries.getLast?.map LedgerEntry.hash = entries'.getLast?.map LedgerEntry.hash →
        List.Forall₂ LedgerEntry.Agrees entries entries') := by
  refine ⟨?_, ?_⟩
  · intro ownerId keyring calls hpinned hworks
    refine run_invariant (I := fun l : Ledger => verifyEntries C keyring l.entries = [])
      (P := fun _ (a : AppendCall) => a.Pinned keyring ∧ ∀ s ∈ a.signers, s.keypair.Works C)
      ?_ rfl ?_
    · intro l a hl ha
      exact verifyEntries_call hl ha.1 ha.2
    · refine along_of_take fun k a hk => ?_
      have hmem := List.mem_of_getElem? hk
      exact ⟨hpinned a hmem, hworks a hmem⟩
  · intro keyring keyring' entries entries' hbody hbody' h h' hlast
    obtain ⟨hlinked, hsound⟩ := verifyEntries_eq_nil_iff.mp h
    obtain ⟨hlinked', hsound'⟩ := verifyEntries_eq_nil_iff.mp h'
    refine forall₂_of_getLast?_hash_eq ?_ hlinked hlinked' hlast
    intro e he e' he' hhash
    have hagrees := LedgerEntry.agrees_of_hash_eq hsha (hsound e he) (hsound' e' he') (hbody e he)
      (hbody' e' he') hhash
    exact ⟨hagrees.prevHash, hagrees.seq, hagrees⟩

end

/-! ## Two entries of one actor -/

namespace TwoEntries

def actorId : String := "id:fe812c12f3ab4ce6ac5db69ac352f906cb1b11ef43fb33e252ef7ff552263889"

def actorKey : VerifyingKey :=
  ⟨(hexDecode "ea4a6c63e29c520abef5507b132ec5f9954776aebebe7b92421eea691446d22c").getD []⟩

def firstHash : String := "fc03d36869e148abd55275938d46b437409d1b4d6914e579da2807ff1867eb8f"

def secondHash : String := "62da3b4ad303f96a70147dfbcc3720d98f66cc26288f3ba8df5e5e0dc5ef666a"

/-- The actor's signatures over the two hashes. -/
def signatures : List (Bytes × Bytes) :=
  [(asBytes firstHash, (hexDecode (String.join [
        "516337020ac0e7823071a0f0ea1f70b3a9442267f7bf6aba19669e5129fabdd8",
        "01065970e9218684ce383661cd55c9c51d8632ce5b93b4159b9fc3db0499750f"])).getD []),
    (asBytes secondHash, (hexDecode (String.join [
        "2fb5346b1150df509ccfbc9fd41e70eb14e8dbcdd635b54e7b92789532ca48bd",
        "ddd5f9da70598cf9776c422111e7fc8c2b631669fefa15b8cf3f63ed09ef68a0"])).getD [])]

def actor : Keypair where
  verifyingKey := actorKey
  sign message := (signatures.lookup message).getD (List.replicate 64 0)

/-- SHA-256 on the two payloads, and Ed25519 on what the actor signs. -/
def ledgerCrypto : Crypto where
  sha256Hex := tabulatedHash
    [(canonicalObject (preimageFields 0 genesisPrev "t" "a" (.object [("n", .posInt 1)])),
        firstHash),
      (canonicalObject (preimageFields 1 firstHash "t" "b" (.object [("n", .posInt 2)])),
        secondHash)]
  isPublicKey b := b = actorKey.toBytes
  verifyStrict key message sig := key = actorKey && actor.sign message = sig

lemma injective_ledgerCrypto : Function.Injective ledgerCrypto.sha256Hex :=
  tabulatedHash_injective (distinctDigests_of_take 2 (by decide +kernel) (by decide +kernel))

lemma actor_works : actor.Works ledgerCrypto where
  isPublicKey := by simp [ledgerCrypto, actor]
  length_key := by decide +kernel
  length_sign message := by
    have hall : ∀ x ∈ signatures, x.2.length = 64 := by decide +kernel
    rw [actor]
    dsimp only
    cases hsig : signatures.lookup message with
    | none => simp
    | some sig => exact hall (message, sig) (mem_of_lookup_eq_some hsig)
  verify_sign message := by simp [ledgerCrypto, actor]

/-- The actor's key, pinned under the actor's id. -/
def keyring : Keyring := (∅ : Keyring).insert actorId actorKey

def calls : List AppendCall :=
  [⟨"a", "t", .object [("n", .posInt 1)], [⟨actorId, actor⟩]⟩,
    ⟨"b", "t", .object [("n", .posInt 2)], [⟨actorId, actor⟩]⟩]

lemma keyring_actorId : keyring[actorId]? = some actorKey := by simp [keyring]

lemma pinned_calls {a : AppendCall} (ha : a ∈ calls) : a.Pinned keyring := by
  have hsigners : a.signers = [⟨actorId, actor⟩] := by
    simp only [calls, List.mem_cons, List.not_mem_nil, or_false] at ha
    obtain rfl | rfl := ha
    · rfl
    · rfl
  refine ⟨by rw [hsigners]; exact List.cons_ne_nil _ _, ?_⟩
  intro s hs
  rw [hsigners] at hs
  obtain rfl := List.mem_singleton.mp hs
  exact keyring_actorId

lemma works_calls {a : AppendCall} (ha : a ∈ calls) {s : Signer} (hs : s ∈ a.signers) :
    s.keypair.Works ledgerCrypto := by
  simp only [calls, List.mem_cons, List.not_mem_nil, or_false] at ha
  obtain rfl | rfl := ha
  · obtain rfl := List.mem_singleton.mp hs
    exact actor_works
  · obtain rfl := List.mem_singleton.mp hs
    exact actor_works

/-- The two appended entries verify. -/
theorem ledger_verifies_and_commits_two :
    verifyEntries ledgerCrypto keyring
      (run (Ledger.call ledgerCrypto) (Ledger.new actorId) calls).entries = [] :=
  (ledger_verifies_and_commits injective_ledgerCrypto).1 actorId keyring calls
    (fun _ => pinned_calls) fun _ ha _ => works_calls ha

/-- One entry that a visitor signs beside the actor. -/
def visited : AppendCall :=
  ⟨"a", "t", .object [("n", .posInt 1)], [⟨actorId, actor⟩, ⟨"id:visitor", actor⟩]⟩

/-- One signer with a pinned key is not enough: a signer beside it whose key is not pinned is an
issue. -/
theorem unpinned_signer_is_an_issue :
    ¬ ∀ (C : Crypto) (ownerId : String) (keyring : Keyring) (calls : List AppendCall),
      Function.Injective C.sha256Hex →
      (∀ a ∈ calls, ∀ s ∈ a.signers, s.keypair.Works C) →
      (∀ a ∈ calls, ∃ s ∈ a.signers, keyring[s.actorId]? = some s.keypair.verifyingKey) →
        verifyEntries C keyring (run (Ledger.call C) (Ledger.new ownerId) calls).entries = [] := by
  intro hall
  have hworks : ∀ a ∈ [visited], ∀ s ∈ a.signers, s.keypair.Works ledgerCrypto := by
    intro a ha s hs
    obtain rfl := List.mem_singleton.mp ha
    simp only [visited, List.mem_cons, List.not_mem_nil, or_false] at hs
    obtain rfl | rfl := hs
    · exact actor_works
    · exact actor_works
  have hheld : ∀ a ∈ [visited], ∃ s ∈ a.signers,
      keyring[s.actorId]? = some s.keypair.verifyingKey := by
    intro a ha
    obtain rfl := List.mem_singleton.mp ha
    exact ⟨⟨actorId, actor⟩, by simp [visited], keyring_actorId⟩
  have hnil := hall ledgerCrypto actorId keyring [visited] injective_ledgerCrypto hworks hheld
  obtain ⟨-, hsound⟩ := verifyEntries_eq_nil_iff.mp hnil
  obtain ⟨publicKey, hkey, -⟩ := (hsound _ (List.mem_singleton.mpr rfl)).sigs "id:visitor"
    (actor.signMessage (Ledger.entryHash ledgerCrypto 0 genesisPrev "t" "a" visited.body))
    (Std.ExtTreeMap.getElem?_insert_self)
  have hnone : keyring["id:visitor"]? = none := by
    rw [keyring, Std.ExtTreeMap.getElem?_insert, if_neg (by decide)]
    rfl
  rw [hnone] at hkey
  cases hkey

end TwoEntries

end Ciss
