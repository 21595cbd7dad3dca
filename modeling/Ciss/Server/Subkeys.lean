import Ciss.Server.Quota
import Ciss.Server.Settings

/-!
# Two validators of one subkey

A record's subkey is validated twice.  The kind asks for its own shape: a policy's is a content
address, a dial has none, and a flag or a chain takes any text of the identifier charset, which has
the colon of a `did:`.  The envelope asks for a text that fits into a colon-joined preimage: without
a colon, and not the tag of an absent subkey.

`admitted_verifies_iff` says what is between them: a record that its kind admits, built and signed
by the owner, verifies exactly when its subkey is preimage-safe.
-/

namespace Ciss

/-! ## An identifier of an owner's key -/

/-- What SHA-256 prints: 64 lowercase hexadecimal digits. -/
def PrintsAddresses (C : Crypto) : Prop := ∀ b, isContentAddr (C.sha256Hex b) = true

section

variable {C : Crypto}

/-- A lowercase hexadecimal text has a byte for each character. -/
lemma length_of_isContentAddr {s : String} (h : isContentAddr s = true) : s.toList.length = 64 := by
  simp only [isContentAddr, Bool.and_eq_true, decide_eq_true_eq] at h
  obtain ⟨hsize, hhex⟩ := h
  have hone : ∀ c ∈ s.toList, c.utf8Size = 1 := by
    intro c hc
    have hdigit := List.all_eq_true.mp hhex c hc
    simp only [Char.isDigit, Bool.or_eq_true, Bool.and_eq_true, decide_eq_true_eq, Char.le_def,
      UInt32.le_iff_toNat_le] at hdigit
    rw [Char.utf8Size_eq_one_iff, UInt32.le_iff_toNat_le]
    simp at hdigit ⊢
    omega
  have hlen : (asBytes s).length = s.toList.length := by
    rw [asBytes_eq_flatMap, List.length_flatMap]
    simp only [String.length_utf8EncodeChar]
    rw [List.map_congr_left hone]
    simp
  rw [← hlen, ← contentAddrHexLen, ← hsize]
  rfl

/-- The identifier of a key is one of the accepted identifiers, in the `id:` space. -/
lemma parse_deriveId (hC : PrintsAddresses C) (key : VerifyingKey) :
    ∃ did, Did.parse (deriveId C key) = .ok did ∧ did.space = .id := by
  have haddr := hC key.toBytes
  have hlen := length_of_isContentAddr haddr
  have hlist : (deriveId C key).toList = "id:".toList ++ (C.sha256Hex key.toBytes).toList := by
    simp [deriveId, String.join]
  have hprefix : List.isPrefixOf? "id:".toList (deriveId C key).toList =
      some (C.sha256Hex key.toBytes).toList := by
    rw [hlist]
    rfl
  have hsize : (deriveId C key).utf8ByteSize = 67 := by
    simp only [isContentAddr, Bool.and_eq_true, decide_eq_true_eq] at haddr
    have hid : "id:".utf8ByteSize = 3 := rfl
    simp [deriveId, String.join, haddr.1, contentAddrHexLen, hid]
  have hvalid : isValidDid (deriveId C key).toList = true := by
    simp only [isContentAddr, Bool.and_eq_true] at haddr
    rw [isValidDid, hprefix]
    simp [hlen, haddr.2]
  refine ⟨⟨deriveId C key, hvalid⟩, ?_, ?_⟩
  · rw [Did.parse, if_neg, if_neg, dif_pos hvalid]
    · rw [hsize]
      decide
    · intro hempty
      rw [String.isEmpty_iff.1 hempty] at hsize
      cases hsize
  · rw [Did.space, if_pos]
    show "id:".toList.isPrefixOf (deriveId C key).toList = true
    rw [hlist]
    rfl

/-! ## What the kinds admit and the envelope takes -/

lemma subkeyWellFormed_iff {subkey : Option String} : subkeyWellFormed subkey = true ↔
    ∀ s, subkey = some s → s ≠ "" ∧ s ≠ "-" ∧ ':' ∉ s.toList := by
  cases subkey with
  | none => simp [subkeyWellFormed]
  | some s => simp [subkeyWellFormed, and_assoc]

variable {key : Keypair} {kind : String} {subkey : Option String} {seq : Nat} {body : Value}
  {fold : String} {provider : VerifyingKey}

/-- A record its owner has built and signed verifies when its kind and its subkey fit into the
preimage. -/
lemma verify_signOwner (hC : PrintsAddresses C) (hkey : key.Works C) (hkind : kind.isEmpty = false)
    (hcolon : kind.toList.contains ':' = false) :
    (SignedAssertion.signOwner kind (deriveId C key.verifyingKey) subkey seq body fold key).verify C
      fold none provider = subkeyWellFormed subkey := by
  obtain ⟨did, hdid, hspace⟩ := parse_deriveId hC key.verifyingKey
  rw [SignedAssertion.verify, SignedAssertion.signOwner]
  dsimp only
  rw [hdid]
  dsimp only
  rw [hkind, hcolon, hspace, hkey.publicKeyFromHex, Option.any_none]
  dsimp only
  rw [hkey.verifyMessage]
  cases subkeyWellFormed subkey with
  | false => simp
  | true => simp

/-- The registered kinds fit into the preimage. -/
lemma Kind.tag_fits (k : Kind) : k.tag.isEmpty = false ∧ k.tag.toList.contains ':' = false := by
  cases k
  all_goals decide

/-- No kind admits an empty subkey. -/
lemma kindBody_subkey_ne_empty {k : Kind} {parsed : KindBody}
    (h : kindBody k subkey body = .ok parsed) : subkey ≠ some "" := by
  have hempty : subkeyValid (some "") = false := by decide
  rintro rfl
  have hok := (kindBody_ok h).2
  cases parsed with
  | policy p => exact absurd hok.1 (by decide)
  | flag b => exact absurd (hempty.symm.trans hok) (by decide)
  | chainCounter b => exact absurd (hempty.symm.trans hok) (by decide)
  | ceilingDial b => cases hok
  | periodDial => cases hok
  | accountModeDial b => cases hok
  | receiptModeDial b => cases hok

/-- **What a kind admits, verifies exactly when its subkey is preimage-safe.**  For every kind,
subkey and body that `kind_fold` takes, the record the owner of an `id:` builds and signs with the
fold verifies if and only if the subkey is absent, or has no colon and is not the absent tag. -/
theorem admitted_verifies_iff (hC : PrintsAddresses C) (hkey : key.Works C)
    (h : kindFold kind subkey body = .ok fold) :
    (SignedAssertion.signOwner kind (deriveId C key.verifyingKey) subkey seq body fold key).verify C
        fold none provider = true ↔
      ∀ s, subkey = some s → s ≠ "-" ∧ ':' ∉ s.toList := by
  obtain ⟨k, hk, parsed, hparsed⟩ :
      ∃ k, Kind.ofTag? kind = some k ∧ ∃ parsed, kindBody k subkey body = .ok parsed := by
    rw [kindFold] at h
    cases hk : Kind.ofTag? kind with
    | none =>
        rw [hk] at h
        cases h
    | some k =>
        rw [hk] at h
        cases hbody : kindBody k subkey body with
        | error e =>
            simp only [hbody] at h
            cases h
        | ok parsed => exact ⟨k, rfl, parsed, hbody⟩
  obtain rfl := Kind.tag_of_ofTag? hk
  rw [verify_signOwner hC hkey k.tag_fits.1 k.tag_fits.2, subkeyWellFormed_iff]
  have hne := kindBody_subkey_ne_empty hparsed
  constructor
  · intro hsafe s hs
    exact (hsafe s hs).2
  · intro hsafe s hs
    exact ⟨fun hempty => hne (hs.trans (by rw [hempty])), hsafe s hs⟩

end

/-! ### Two flags of one owner

A flag under a label and a flag under a `did:`, with the owner's real signatures. -/

/-- The owner's signatures over the two records. -/
def ownerSignatures : List (Bytes × Bytes) :=
  [(asBytes (recordPreimage "kv.flag"
        "id:fe812c12f3ab4ce6ac5db69ac352f906cb1b11ef43fb33e252ef7ff552263889" (some "roster") 1
        "set=true"),
      (hexDecode (String.join [
        "5ea5f1d374482f09574bd01fd48c18401bcfdb3eceb69bdd1438d826427e00ee",
        "b7ac0872c42c25a1a1b708928a036b1c78c19e9342739731689f53836b073c0a"])).getD []),
    (asBytes (recordPreimage "kv.flag"
        "id:fe812c12f3ab4ce6ac5db69ac352f906cb1b11ef43fb33e252ef7ff552263889"
        (some "did:plc:ewvi7nxzyoun6zhxrhs64oiz") 1 "set=true"),
      (hexDecode (String.join [
        "b533461138337c4b7151b17b0abf8ec8495e31403a0df37648d319a202591232",
        "a3227578b98c703900aa7598573aa541492ca055c0a2e53a3ba28505ed74fa0e"])).getD [])]

def flagOwner : Keypair where
  verifyingKey := raceKey
  sign message := (ownerSignatures.lookup message).getD (List.replicate 64 0)

/-- SHA-256 on the owner's key, and Ed25519 on what the owner signs. -/
def ownerCrypto : Crypto where
  sha256Hex b :=
    if b = raceKey.toBytes then "fe812c12f3ab4ce6ac5db69ac352f906cb1b11ef43fb33e252ef7ff552263889"
    else "e3b0c44298fc1c149afbf4c8996fb92427ae41e4649b934ca495991b7852b855"
  isPublicKey b := b = raceKey.toBytes
  verifyStrict key message sig := key = raceKey && flagOwner.sign message = sig

lemma printsAddresses_ownerCrypto : PrintsAddresses ownerCrypto := by
  intro b
  rw [ownerCrypto]
  dsimp only
  split
  · decide +kernel
  · decide +kernel

lemma flagOwner_works : flagOwner.Works ownerCrypto where
  isPublicKey := by simp [ownerCrypto, flagOwner]
  length_key := by decide +kernel
  length_sign message := by
    have hall : ∀ x ∈ ownerSignatures, x.2.length = 64 := by decide +kernel
    rw [flagOwner]
    dsimp only
    cases hsig : ownerSignatures.lookup message with
    | none => simp
    | some sig => exact hall (message, sig) (mem_of_lookup_eq_some hsig)
  verify_sign message := by simp [ownerCrypto, flagOwner]

/-- The flag under a label verifies. -/
theorem admitted_verifies_iff_label :
    (SignedAssertion.signOwner "kv.flag" (deriveId ownerCrypto raceKey) (some "roster") 1
      (.object [("set", .bool true)]) "set=true" flagOwner).verify ownerCrypto "set=true" none
        raceKey = true := by
  refine (admitted_verifies_iff printsAddresses_ownerCrypto flagOwner_works ?_).2 ?_
  · decide +kernel
  · intro s hs
    obtain rfl : "roster" = s := Option.some.inj hs
    decide

/-- The flag under a `did:` is admitted by its kind and refused by the envelope. -/
theorem did_subkey_refused :
    ¬ ∀ (C : Crypto) (key : Keypair), PrintsAddresses C → key.Works C →
      ∀ (kind : String) (subkey : Option String) (seq : Nat) (body : Value) (fold : String)
        (provider : VerifyingKey), kindFold kind subkey body = .ok fold →
        (SignedAssertion.signOwner kind (deriveId C key.verifyingKey) subkey seq body fold
          key).verify C fold none provider = true := by
  intro h
  have hverified := h ownerCrypto flagOwner printsAddresses_ownerCrypto flagOwner_works "kv.flag"
    (some "did:plc:ewvi7nxzyoun6zhxrhs64oiz") 1 (.object [("set", .bool true)]) "set=true" raceKey
    (by decide +kernel)
  rw [verify_signOwner printsAddresses_ownerCrypto flagOwner_works (by decide) (by decide)]
    at hverified
  exact absurd hverified (by decide)

end Ciss
