import Ciss.Framework.Delimited

/-!
# Keys, signatures and identifiers

What the server's signed records rest on: hex, Ed25519 keys and signatures, the identifier a
key derives, and the two accepted identifier shapes `id:<64 hex>` and `did:<method>:<msid>`.

SHA-256 and Ed25519 come from libraries and are the fields of `Crypto`: the digest of bytes,
whether 32 bytes are a usable (canonical, not weak) public key, and strict verification of a
64-byte signature.  Everything around them is the repository's own: which encodings are
rejected, and with which error.
-/

namespace Ciss

/-! ## Hex -/

/-- One lowercase hex digit. -/
def hexDigit (n : Nat) : Char :=
  if n < 10 then Char.ofNat ('0'.toNat + n) else Char.ofNat ('a'.toNat + (n - 10))

/-- `hex::encode`: two lowercase digits per byte. -/
def hexEncode (bytes : Bytes) : String :=
  String.ofList (bytes.flatMap fun b => [hexDigit (b.toNat / 16), hexDigit (b.toNat % 16)])

/-- The value of an ASCII hex digit of either case. -/
def hexValue (b : UInt8) : Option Nat :=
  let n := b.toNat
  if 48 ≤ n ∧ n ≤ 57 then some (n - 48)
  else if 97 ≤ n ∧ n ≤ 102 then some (n - 87)
  else if 65 ≤ n ∧ n ≤ 70 then some (n - 55)
  else none

/-- `hex::decode` on the bytes of a text: pairs of digits, nothing left over. -/
def hexDecodeBytes : Bytes → Option Bytes
  | [] => some []
  | [_] => none
  | h :: l :: rest => do
      let hi ← hexValue h
      let lo ← hexValue l
      let tail ← hexDecodeBytes rest
      return UInt8.ofNat (16 * hi + lo) :: tail

/-- `hex::decode`. -/
def hexDecode (s : String) : Option Bytes := hexDecodeBytes (asBytes s)

/-- A digit is one byte, and its value is read back. -/
lemma asBytes_hexDigit : ∀ i : Fin 16, asBytes (String.ofList [hexDigit i]) =
      [UInt8.ofNat (hexDigit i).toNat] ∧
    hexValue (UInt8.ofNat (hexDigit i).toNat) = some i.val := by
  decide

lemma hexDecode_hexEncode (bytes : Bytes) : hexDecode (hexEncode bytes) = some bytes := by
  induction bytes with
  | nil => rfl
  | cons b bytes ih =>
      have hlt : b.toNat < 256 := b.toNat_lt
      obtain ⟨hhigh, hhigh'⟩ := asBytes_hexDigit ⟨b.toNat / 16, by omega⟩
      obtain ⟨hlow, hlow'⟩ := asBytes_hexDigit ⟨b.toNat % 16, by omega⟩
      have hsplit : hexEncode (b :: bytes) = String.ofList [hexDigit (b.toNat / 16)] ++
          (String.ofList [hexDigit (b.toNat % 16)] ++ hexEncode bytes) := by
        simp [hexEncode]
      have hbyte : UInt8.ofNat (16 * (b.toNat / 16) + b.toNat % 16) = b := by
        rw [Nat.div_add_mod, UInt8.ofNat_toNat]
      unfold hexDecode at ih ⊢
      rw [hsplit, asBytes_append, asBytes_append, hhigh, hlow]
      simp only [List.cons_append, List.nil_append, hexDecodeBytes, hhigh', hlow', ih, hbyte,
        Option.bind_eq_bind, Option.bind_some, Option.pure_def]

/-! ## Keys and signatures -/

/-- An Ed25519 verifying key, by its bytes. -/
structure VerifyingKey where
  toBytes : Bytes
  deriving DecidableEq, Repr

/-- What the server takes from its cryptographic libraries. -/
structure Crypto where
  /-- SHA-256 of raw bytes, hex-encoded. -/
  sha256Hex : Bytes → String
  /-- The bytes are the canonical encoding of a curve point that is not weak. -/
  isPublicKey : Bytes → Bool
  /-- `verify_strict` of a 64-byte signature over a message. -/
  verifyStrict : VerifyingKey → Bytes → Bytes → Bool

/-- A keypair: the verifying key and the (deterministic) signing function. -/
structure Keypair where
  verifyingKey : VerifyingKey
  sign : Bytes → Bytes

namespace Keypair

/-- The public key, hex-encoded. -/
def publicKeyHex (k : Keypair) : String := hexEncode k.verifyingKey.toBytes

/-- Sign a message, returning the hex-encoded signature. -/
def signMessage (k : Keypair) (message : String) : String := hexEncode (k.sign (asBytes message))

end Keypair

/-- Why a public key could not be reconstructed from its hex form. -/
inductive CryptoError where
  | invalidHex
  | invalidKeyLength (got : Nat)
  | invalidPublicKey
  deriving DecidableEq, Repr

/-- Reconstruct a verify-only public key from its raw hex form. -/
def publicKeyFromHex (C : Crypto) (publicKeyHex : String) : Except CryptoError VerifyingKey :=
  match hexDecode publicKeyHex with
  | none => .error .invalidHex
  | some bytes =>
      if bytes.length ≠ 32 then .error (.invalidKeyLength bytes.length)
      else if C.isPublicKey bytes then .ok ⟨bytes⟩
      else .error .invalidPublicKey

/-- Verify a hex signature over a message: a malformed encoding is a plain `false`. -/
def verifyMessage (C : Crypto) (key : VerifyingKey) (message signatureHex : String) : Bool :=
  match hexDecode signatureHex with
  | none => false
  | some bytes => bytes.length = 64 && C.verifyStrict key (asBytes message) bytes

/-- What statements about genuine signatures take from Ed25519: the key is usable, and what it signs
verifies under it. -/
structure Keypair.Works (C : Crypto) (k : Keypair) : Prop where
  isPublicKey : C.isPublicKey k.verifyingKey.toBytes = true
  length_key : k.verifyingKey.toBytes.length = 32
  length_sign : ∀ message, (k.sign message).length = 64
  verify_sign : ∀ message, C.verifyStrict k.verifyingKey message (k.sign message) = true

lemma Keypair.Works.verifyMessage {C : Crypto} {k : Keypair} (h : k.Works C) (message : String) :
    verifyMessage C k.verifyingKey message (k.signMessage message) = true := by
  rw [Ciss.verifyMessage, Keypair.signMessage, hexDecode_hexEncode]
  simp [h.length_sign, h.verify_sign]

lemma Keypair.Works.publicKeyFromHex {C : Crypto} {k : Keypair} (h : k.Works C) :
    publicKeyFromHex C k.publicKeyHex = .ok k.verifyingKey := by
  rw [Ciss.publicKeyFromHex, Keypair.publicKeyHex, hexDecode_hexEncode]
  simp [h.length_key, h.isPublicKey]

/-- Derive an actor's stable identifier from its public key.  The source slices the first 64
digits of the digest, which is all of it. -/
def deriveId (C : Crypto) (key : VerifyingKey) : String :=
  String.join ["id:", C.sha256Hex key.toBytes]

/-! ## Identifiers -/

/-- Why an identifier was rejected at the boundary. -/
inductive IdentifierError where
  | empty
  | tooLong (len max : Nat)
  | malformed
  deriving DecidableEq, Repr

/-- The identity space an identifier belongs to. -/
inductive IdentitySpace where
  | id
  | atproto
  deriving DecidableEq, Repr

/-- The maximum length of a `did`, in bytes. -/
def maxDidLen : Nat := 256

/-- Whether every character is a lowercase hex digit. -/
def isLowerHex (s : List Char) : Bool := s.all fun c => c.isDigit || ('a' ≤ c && c ≤ 'f')

/-- The characters allowed in a method-specific identifier. -/
def isMsidChar (c : Char) : Bool :=
  c.isAlphanum || c = '.' || c = '_' || c = '-' || c = ':' || c = '%'

/-- Whether `raw` is an accepted `did` shape. -/
def isValidDid (raw : List Char) : Bool :=
  match List.isPrefixOf? "id:".toList raw with
  | some rest => rest.length = 64 && isLowerHex rest
  | none =>
      match List.isPrefixOf? "did:".toList raw with
      | none => false
      | some rest =>
          -- `split_once(':')`: everything up to the first colon, and everything behind it
          match rest.span (· ≠ ':') with
          | (_, []) => false
          | (method, _ :: msid) =>
              !method.isEmpty && method.all (fun c => c.isLower || c.isDigit) &&
                (!msid.isEmpty && msid.all isMsidChar)

/-- A validated request identifier; holding one is proof the text has an accepted shape. -/
structure Did where
  asStr : String
  valid : isValidDid asStr.toList = true

/-- Parse and validate a `did` from an untrusted request string. -/
def Did.parse (raw : String) : Except IdentifierError Did :=
  if raw.isEmpty then .error .empty
  else if raw.utf8ByteSize > maxDidLen then .error (.tooLong raw.utf8ByteSize maxDidLen)
  else if h : isValidDid raw.toList then .ok ⟨raw, h⟩
  else .error .malformed

/-- Which identity space the identifier belongs to; the `id:` prefix alone decides. -/
def Did.space (d : Did) : IdentitySpace :=
  if "id:".toList.isPrefixOf d.asStr.toList then .id else .atproto

end Ciss
