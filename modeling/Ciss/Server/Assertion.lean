import Ciss.Server.Identity

/-!
# Self-assertions

The mechanism behind every customer-signed setting: a record over a domain-separated preimage
that binds the kind, the target, a strictly increasing `seq` and the kind's canonical fold of
the body, with one of two proofs of authority.  Under model A an `id:` owner signs the record;
under model C the server attests a record it built from an intent whose JWT it verified.  A
stored record carries the server's acknowledgment, a signature over the record's digest.

A record's body is JSON (`Value`).  `Value.render` is `serde_json`'s compact text, as bytes,
which the digest and the body ceiling read; an object lists its members in key order, as the map
behind `serde_json::Value` keeps them.  Parsing a request body is left to the caller.
-/

namespace Ciss

/-! ## Errors -/

/-- `i64::MAX`, the largest value of an SQLite integer column and of a slice length. -/
def i64Max : Nat := 2 ^ 63 - 1

/-- A failure of the SQLite store. -/
inductive PersistError where
  /-- A row with this primary key exists. -/
  | constraintViolation
  /-- `SUM` over an integer column left the 64-bit range. -/
  | integerOverflow
  /-- The write does not supersede the stored record. -/
  | staleAssertionSeq (target : String) (seq : Nat)
  /-- A stored text does not parse. -/
  | json
  /-- Any other failure of the database. -/
  | sqlite
  deriving DecidableEq, Repr

/-- The refusals of the modelled operations, each with the values it quotes. -/
inductive ServerError where
  | persist (e : PersistError)
  | blob
  | notFound
  | tampered (cid actual : String)
  | badManifest (reason : String)
  | badPubkey
  | didKeyMismatch
  | unauthorized
  | forbidden
  | byteCountMismatch (boundary written : Nat)
  | storeFull
  | didQuotaExceeded
  | objectTooLarge (size max : Nat)
  | badAssertion (reason : String)
  | assertionUnauthorized
  | bodyAboveCeiling (kind : String) (bytes ceiling : Nat)
  | chainBroken (reason : String)
  | spendCeiling (neededCents spentCents ceilingCents : Nat)
  | drawdownActive
  | assertionStale (kind : String) (attempted : Nat)
  | assertionAboveBound (asserted bound : Nat)
  | erasureNotAllowed (kind : String)
  deriving DecidableEq, Repr

/-! ## JSON values -/

/-- A `serde_json::Value`.  Integers are `u64` or negative `i64`; a float is kept as its text. -/
inductive Value where
  | null
  | bool (b : Bool)
  | posInt (n : UInt64)
  | negInt (n : Int64)
  | float (text : String)
  | string (s : String)
  | array (items : List Value)
  | object (fields : List (String × Value))

/-- An ASCII hex digit. -/
def hexDigitByte (n : Nat) : UInt8 := UInt8.ofNat (if n < 10 then 48 + n else 87 + n)

/-- What `serde_json` writes for one byte of a string: quotes, backslashes and control
characters are escaped, everything else is copied. -/
def escapeByte (b : UInt8) : Bytes :=
  let n := b.toNat
  if n < 32 then
    if n = 8 then asBytes "\\b"
    else if n = 9 then asBytes "\\t"
    else if n = 10 then asBytes "\\n"
    else if n = 12 then asBytes "\\f"
    else if n = 13 then asBytes "\\r"
    else asBytes "\\u00" ++ [hexDigitByte (n / 16), hexDigitByte (n % 16)]
  else if n = 34 then asBytes "\\\""
  else if n = 92 then asBytes "\\\\"
  else [b]

/-- A JSON string literal. -/
def renderString (s : String) : Bytes :=
  asBytes "\"" ++ (asBytes s).flatMap escapeByte ++ asBytes "\""

/-- A member of a JSON object, its value already rendered. -/
def renderField (name : String) (rendered : Bytes) : Bytes :=
  renderString name ++ asBytes ":" ++ rendered

/-- A JSON object, its members already rendered. -/
def renderObject (fields : List Bytes) : Bytes :=
  asBytes "\x7b" ++ (asBytes ",").intercalate fields ++ asBytes "\x7d"

/-- `serde_json::to_vec`. -/
def Value.render : Value → Bytes
  | .null => asBytes "null"
  | .bool b => asBytes (if b then "true" else "false")
  | .posInt n => asBytes n.toNat.repr
  | .negInt n => asBytes n.toInt.repr
  | .float text => asBytes text
  | .string s => renderString s
  | .array items => asBytes "[" ++ (asBytes ",").intercalate (renderItems items) ++ asBytes "]"
  | .object fields => renderObject (renderFields fields)
where
  /-- The rendered items of an array. -/
  renderItems : List Value → List Bytes
    | [] => []
    | v :: vs => v.render :: renderItems vs
  /-- The rendered members of an object. -/
  renderFields : List (String × Value) → List Bytes
    | [] => []
    | (name, v) :: fs => renderField name v.render :: renderFields fs

namespace Value

/-- The value as a `u64`. -/
def asU64 : Value → Option Nat
  | .posInt n => some n.toNat
  | _ => none

/-- The value as an `i64`. -/
def asI64 : Value → Option Int
  | .posInt n => if n.toNat < 2 ^ 63 then some n.toNat else none
  | .negInt n => some n.toInt
  | _ => none

/-- The value as a string. -/
def asString : Value → Option String
  | .string s => some s
  | _ => none

/-- The fields of a `deny_unknown_fields` struct, in declaration order: from an object with
exactly these members, or from an array of as many items. -/
def structFields (names : List String) : Value → Option (List Value)
  | .array items => if items.length = names.length then some items else none
  | .object fields =>
      if fields.all (fun f => names.contains f.1) then names.mapM (fields.lookup ·) else none
  | _ => none

end Value

/-! ## Records and acknowledgments -/

/-- How an assertion's authority is proven. -/
inductive Authorization where
  /-- Model A: the `id:` owner signed the record. -/
  | ownerSigned (signer sig : String)
  /-- Model C: the server attested the record after verifying the owner's JWT. -/
  | providerAttested (ownerDid authorizingJti providerSig : String)
  deriving DecidableEq, Repr

/-- One customer-signed setting: the envelope every kind shares. -/
structure SignedAssertion where
  did : String
  kind : String
  subkey : Option String
  seq : Nat
  body : Value
  authorization : Authorization

/-- The server's acknowledgment of a stored record. -/
structure Ack where
  signer : String
  sig : String
  deriving DecidableEq, Repr

/-- The JSON of an authorization. -/
def Authorization.toJson : Authorization → Bytes
  | .ownerSigned signer sig =>
      renderObject [renderField "OwnerSigned" (renderObject
        [renderField "signer" (renderString signer), renderField "sig" (renderString sig)])]
  | .providerAttested ownerDid jti sig =>
      renderObject [renderField "ProviderAttested" (renderObject
        [renderField "owner_did" (renderString ownerDid),
          renderField "authorizing_jti" (renderString jti),
          renderField "provider_sig" (renderString sig)])]

/-- The JSON of a record, its fields in the order of the definition. -/
def SignedAssertion.toJson (a : SignedAssertion) : Bytes :=
  renderObject
    [renderField "did" (renderString a.did), renderField "kind" (renderString a.kind),
      renderField "subkey" (a.subkey.elim (asBytes "null") renderString),
      renderField "seq" (asBytes a.seq.repr), renderField "body" a.body.render,
      renderField "authorization" a.authorization.toJson]

/-- The JSON of an acknowledgment. -/
def Ack.toJson (k : Ack) : Bytes :=
  renderObject [renderField "signer" (renderString k.signer), renderField "sig" (renderString k.sig)]

/-! ## Preimages -/

/-- The preimage tag for an absent or present subkey. -/
def subkeyTag (subkey : Option String) : String := subkey.getD "-"

/-- A subkey is preimage-safe: non-empty, without `:`, and not the absent tag. -/
def subkeyWellFormed : Option String → Bool
  | none => true
  | some s => !s.isEmpty && s ≠ "-" && !s.toList.contains ':'

/-- The record preimage a model-A owner signs. -/
def recordPreimage (kind did : String) (subkey : Option String) (seq : Nat) (bodyFold : String) :
    String :=
  String.join ["ciss/v1/assertion", ":", kind, ":", did, ":", subkeyTag subkey, ":", seq.repr,
    ":", bodyFold]

/-- The attestation preimage the server signs for a model-C record. -/
def attestPreimage (kind ownerDid did : String) (subkey : Option String) (seq : Nat)
    (bodyFold : String) : String :=
  String.join ["ciss/v1/assertion-attest", ":", kind, ":", ownerDid, ":", did, ":",
    subkeyTag subkey, ":", seq.repr, ":", bodyFold]

/-- The acknowledgment preimage. -/
def ackPreimage (kind did : String) (subkey : Option String) (seq : Nat)
    (recordDigestHex : String) : String :=
  String.join ["ciss/v1/assertion-ack", ":", kind, ":", did, ":", subkeyTag subkey, ":", seq.repr,
    ":", recordDigestHex]

/-! ## Attesting, verifying and acknowledging -/

namespace SignedAssertion

/-- Build a model-A assertion: the owner signs the kind's fold of the body. -/
def signOwner (kind did : String) (subkey : Option String) (seq : Nat) (body : Value)
    (bodyFold : String) (keypair : Keypair) : SignedAssertion where
  did := did
  kind := kind
  subkey := subkey
  seq := seq
  body := body
  authorization := .ownerSigned keypair.publicKeyHex
    (keypair.signMessage (recordPreimage kind did subkey seq bodyFold))

/-- Build a model-C assertion: the server attests, having verified the owner's JWT. -/
def attestProvider (kind ownerDid : String) (subkey : Option String) (seq : Nat) (body : Value)
    (bodyFold jti : String) (attestKeypair : Keypair) : SignedAssertion where
  did := ownerDid
  kind := kind
  subkey := subkey
  seq := seq
  body := body
  authorization := .providerAttested ownerDid jti
    (attestKeypair.signMessage (attestPreimage kind ownerDid ownerDid subkey seq bodyFold))

/-- Verify an assertion: structure, seq advancement, and its authorization proof. -/
def verify (C : Crypto) (a : SignedAssertion) (bodyFold : String) (priorSeq : Option Nat)
    (providerAttestPubkey : VerifyingKey) : Bool :=
  match Did.parse a.did with
  | .error _ => false
  | .ok targetDid =>
      if a.kind.isEmpty || a.kind.toList.contains ':' then false
      else if !subkeyWellFormed a.subkey then false
      else if priorSeq.any (a.seq ≤ ·) then false
      else
        match a.authorization with
        | .ownerSigned signer sig =>
            if targetDid.space ≠ .id then false
            else
              match publicKeyFromHex C signer with
              | .error _ => false
              | .ok signerKey =>
                  if deriveId C signerKey ≠ a.did then false
                  else
                    verifyMessage C signerKey
                      (recordPreimage a.kind a.did a.subkey a.seq bodyFold) sig
        | .providerAttested ownerDid _ providerSig =>
            if ownerDid ≠ a.did then false
            else
              verifyMessage C providerAttestPubkey
                (attestPreimage a.kind ownerDid a.did a.subkey a.seq bodyFold) providerSig

/-- The record digest the acknowledgment binds. -/
def digest (C : Crypto) (a : SignedAssertion) : String := C.sha256Hex a.toJson

end SignedAssertion

/-- Produce the server's acknowledgment for a stored assertion. -/
def makeAck (C : Crypto) (a : SignedAssertion) (attestKeypair : Keypair) : Ack where
  signer := attestKeypair.publicKeyHex
  sig := attestKeypair.signMessage (ackPreimage a.kind a.did a.subkey a.seq (a.digest C))

end Ciss
