import Mathlib.Data.List.AList
import Ciss.Server.Kinds
import Ciss.Server.Objects

/-!
# The settings table

The latest-wins kinds (policies, dials and flags) keep one row per `(did, kind, subkey)` in the
`assertion` table, with the record's `seq` in a signed 64-bit column and the record and its
acknowledgment as JSON text.  This module has the table, `save_assertion`, `assertion_seq`,
`delete_assertion` and `load_assertion`, and the operations that change it: `op_put_assertion` on
these kinds and `op_delete_assertion`.

A write is checked before it is saved (`checkWrite`), and its seq is compared twice: by the
operation, with the stored column read back as a `u64`, and by the upsert, column with column.

The JSON readers are parameters of `SettingsServer`, as are the libraries behind `Crypto`.  Accepting
a period dial notes the DID's running total as the new period's baseline; the total is the meter's,
and a write is handed what the meter says.
-/

namespace Ciss

/-! ## Tables -/

/-- The `assertion` table. -/
abbrev AssertionTable := AList fun _ : RowKey => AssertionRow

/-- The tables the settings live in. -/
structure SettingsStore where
  assertion : AssertionTable
  /-- The rows `period_baseline:<did>` of `meta`. -/
  periodBaseline : String → Option Nat

/-- The store before any write. -/
def SettingsStore.empty : SettingsStore := ⟨∅, fun _ => none⟩

/-- The kinds of which the latest write wins. -/
abbrev SettingKind := { k : Kind // k.spec.retention = .setting }

/-- The part of the server's state that no write changes. -/
structure SettingsServer where
  crypto : Crypto
  attestKeypair : Keypair
  limits : Limits
  /-- A JSON text as a full signed record. -/
  parseRecord : Bytes → Option SignedAssertion
  /-- A request body as an intent `{seq, body}`. -/
  parseIntent : Bytes → Option (Nat × Value)
  /-- A JSON text as an acknowledgment. -/
  parseAck : Bytes → Option Ack

/-- The text of a target in a refusal. -/
def assertionTarget (record : SignedAssertion) : String :=
  match record.subkey with
  | none => String.join [record.did, "/", record.kind]
  | some sk => String.join [record.did, "/", record.kind, "/", sk]

namespace SettingsStore

variable (s : SettingsStore)

/-- Upsert a verified record and its acknowledgment: an existing row is replaced by a higher `seq`
only, and a write that replaces nothing is refused. -/
def saveAssertion (record : SignedAssertion) (ack : Ack) :
    SettingsStore × Except PersistError Unit :=
  let key := rowKey record.did record.kind record.subkey
  let row : AssertionRow := ⟨toColumn record.seq, record.toJson, ack.toJson⟩
  match s.assertion.lookup key with
  | none => ({ s with assertion := s.assertion.insert key row }, .ok ())
  | some old =>
      if row.seq > old.seq then ({ s with assertion := s.assertion.insert key row }, .ok ())
      else (s, .error (.staleAssertionSeq (assertionTarget record) record.seq))

/-- The stored `seq` of a target, if a record exists. -/
def assertionSeq (did kind : String) (subkey : Option String) : Option Nat :=
  (s.assertion.lookup (rowKey did kind subkey)).map fun row => ofColumn row.seq

/-- Erase a row; returns whether there was one. -/
def deleteAssertion (did kind : String) (subkey : Option String) : SettingsStore × Bool :=
  let key := rowKey did kind subkey
  ({ s with assertion := s.assertion.erase key }, (s.assertion.lookup key).isSome)

end SettingsStore

/-- Load a stored record and its acknowledgment, if present. -/
def loadAssertion (parseRecord : Bytes → Option SignedAssertion) (parseAck : Bytes → Option Ack)
    (table : AssertionTable) (did kind : String) (subkey : Option String) :
    Except PersistError (Option (SignedAssertion × Ack)) :=
  match table.lookup (rowKey did kind subkey) with
  | none => .ok none
  | some row =>
      match parseRecord row.json with
      | none => .error .json
      | some record =>
          match parseAck row.ack with
          | none => .error .json
          | some ack => .ok (some (record, ack))

/-! ## Operations -/

/-- The provider bound an at-rest dial may not exceed. -/
def providerAtRestBound (limits : Limits) : Nat :=
  limits.didCap.elim limits.storeCeiling fun cap => min cap limits.storeCeiling

/-- A request to write a setting: the route, the body, the `did:` owner a JWT authenticated, and
what the meter says the DID has transferred. -/
structure WriteRequest where
  did : String
  kind : SettingKind
  subkey : Option String
  body : Bytes
  authed : Option AuthedWrite
  runningTotal : Nat

/-- The slot a request writes to. -/
def WriteRequest.slot (req : WriteRequest) : RowKey := rowKey req.did req.kind.1.tag req.subkey

namespace SettingsServer

variable (S : SettingsServer)

/-- The record a request submits: built and attested here (model C), or signed by the owner and
addressed to this route (model A). -/
def submittedRecord (req : WriteRequest) : Except ServerError SignedAssertion :=
  match req.authed with
  | some auth =>
      if auth.did ≠ req.did then .error .assertionUnauthorized
      else
        match S.parseIntent req.body with
        | none => .error (.badAssertion "body is not a valid assertion intent")
        | some (seq, intentBody) =>
            match kindFold req.kind.1.tag req.subkey intentBody with
            | .error e => .error e
            | .ok fold =>
                .ok (SignedAssertion.attestProvider req.kind.1.tag req.did req.subkey seq intentBody
                  fold (auth.jti.getD "") S.attestKeypair)
  | none =>
      match S.parseRecord req.body with
      | none => .error (.badAssertion "body is not a valid signed assertion")
      | some record =>
          if record.did ≠ req.did ∨ record.kind ≠ req.kind.1.tag ∨ record.subkey ≠ req.subkey then
            .error (.badAssertion "assertion target does not match the route")
          else .ok record

/-- An at-rest dial above the provider's bound, with the bound. -/
def aboveBound (kind : SettingKind) (body : Value) : Option (Nat × Nat) :=
  if kind.1 = .ceilingDial then do
    let dial ← CeilingDialBody.fromValue body
    let asserted ← dial.atRestBytes
    let bound := providerAtRestBound S.limits
    if asserted > bound then some (asserted, bound) else none
  else none

/-- The checks of a write, in their order: the record, its fold, the body ceiling, the provider's
bound, the seq, and the authorization. -/
def checkWrite (s : SettingsStore) (req : WriteRequest) : Except ServerError SignedAssertion :=
  match S.submittedRecord req with
  | .error e => .error e
  | .ok record =>
      match kindFold req.kind.1.tag req.subkey record.body with
      | .error e => .error e
      | .ok fold =>
          let bytes := record.body.render.length
          let ceiling := req.kind.1.spec.bodyCeiling
          if bytes > ceiling then .error (.bodyAboveCeiling req.kind.1.tag bytes ceiling)
          else
            match S.aboveBound req.kind record.body with
            | some (asserted, bound) => .error (.assertionAboveBound asserted bound)
            | none =>
                if (s.assertionSeq req.did req.kind.1.tag req.subkey).any (record.seq ≤ ·) then
                  .error (.assertionStale req.kind.1.tag record.seq)
                else if !record.verify S.crypto fold none S.attestKeypair.verifyingKey then
                  .error .assertionUnauthorized
                else .ok record

/-- `op_put_assertion` on a latest-wins kind. -/
def opPutAssertion (s : SettingsStore) (req : WriteRequest) :
    SettingsStore × Except ServerError AssertionSaved :=
  match S.checkWrite s req with
  | .error e => (s, .error e)
  | .ok record =>
      let ack := makeAck S.crypto record S.attestKeypair
      match s.saveAssertion record ack with
      | (s', .error e) => (s', .error (.persist e))
      | (s', .ok ()) =>
          let s'' : SettingsStore :=
            if req.kind.1 = .periodDial then
              { s' with
                periodBaseline := Function.update s'.periodBaseline req.did (some req.runningTotal) }
            else s'
          (s'', .ok ⟨record.seq, ack.toJson⟩)

end SettingsServer

/-- `op_delete_assertion`, once the caller is known to be the owner. -/
def opDeleteAssertion (s : SettingsStore) (did : String) (kind : SettingKind)
    (subkey : Option String) : SettingsStore × Except ServerError Unit :=
  if kind.1.spec.erasure = .permanent then (s, .error (.erasureNotAllowed kind.1.tag))
  else
    match s.deleteAssertion did kind.1.tag subkey with
    | (s', true) => (s', .ok ())
    | (s', false) => (s', .error .notFound)

end Ciss
