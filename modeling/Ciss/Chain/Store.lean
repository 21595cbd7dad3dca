import Mathlib.Data.List.Sort
import Mathlib.Logic.Function.Basic
import Ciss.Chain.Entry
import Ciss.Framework.Machine
import Ciss.Server.Assertion

/-!
# The chain store

The stateful half of the `chain.counter` kind: the two SQLite tables a chain write touches, the
queries over them, and the two operations that change them, `op_put_assertion` on the
`chain.counter` route and `op_compact_chain`.

`chain_entry` is the append-only history, `assertion` the latest-record row a point read
returns.  A table is a function from its key, and the rows of one chain are a list in the order
of the primary key's last column `seq`; `insertRow` is SQLite's `INSERT`, which refuses a
duplicate `seq`.  Integer columns are 64-bit: a `u64` is written with
`i64::try_from(n).unwrap_or(i64::MAX)` (`toColumn`) and read with
`u64::try_from(i).unwrap_or(0)` (`ofColumn`).  A transaction that fails leaves both tables
alone, so an operation that errs returns no store.

The JSON parser of request bodies is a parameter (`ChainServer.parseRecord`, `parseIntent`), as
are the libraries behind `Crypto`; the chain body itself is parsed here (`ChainStep.fromValue`).
-/

namespace Ciss

/-! ## Bodies on the wire -/

/-- A step body from JSON. -/
def ChainCounterBody.fromValue (v : Value) : Option ChainCounterBody := do
  match ← v.structFields ["delta", "total", "prev_entry_hash"] with
  | [delta, total, prev] => return ⟨← delta.asI64, ← total.asU64, ← prev.asString⟩
  | _ => none

/-- A checkpoint body from JSON. -/
def CheckpointBody.fromValue (v : Value) : Option CheckpointBody := do
  match ← v.structFields ["closing_total", "chain_head_hash", "prev_checkpoint"] with
  | [closing, head, prev] => return ⟨← closing.asU64, ← head.asString, ← prev.asString⟩
  | _ => none

/-- A chain write from JSON: the enum is untagged, so the first variant that fits is taken. -/
def ChainStep.fromValue (v : Value) : Option ChainStep :=
  match CheckpointBody.fromValue v with
  | some b => some (.checkpoint b)
  | none => (ChainCounterBody.fromValue v).map .step

/-- The longest accepted subkey, in bytes. -/
def maxSubkeyLen : Nat := 256

/-- Structural validation of a subkey: required, bounded, and of the identifier charset. -/
def subkeyValid : Option String → Bool
  | none => false
  | some sk => !sk.isEmpty && sk.utf8ByteSize ≤ maxSubkeyLen && sk.toList.all isMsidChar

/-- The `chain.counter` arm of `kind_fold`: validate the subkey and the body, and fold it. -/
def chainCounterFold (subkey : Option String) (body : Value) : Except ServerError String :=
  if !subkeyValid subkey then .error (.badAssertion "chain.counter requires a valid subkey")
  else
    match ChainStep.fromValue body with
    | none => .error (.badAssertion "body is not a valid chain.counter entry")
    | some step => .ok step.fold

/-- The body ceiling `chain.counter` declares, in bytes. -/
def smallBodyCeilingBytes : Nat := 1024

/-! ## Tables -/

/-- `i64::try_from(n).unwrap_or(i64::MAX)`, for a `u64`. -/
def toColumn (n : Nat) : Int := if n ≤ i64Max then n else i64Max

/-- `u64::try_from(i).unwrap_or(0)`, for an `i64`. -/
def ofColumn (i : Int) : Nat := if 0 ≤ i then i.toNat else 0

/-- A row of `assertion`, without its key. -/
structure AssertionRow where
  seq : Int
  json : Bytes
  ack : Bytes
  deriving DecidableEq, Repr

/-- A row of `chain_entry`, without the chain's key.  A checkpoint keeps its `closing_total` in
`total` and its `chain_head_hash` in `prevEntryHash`. -/
structure ChainRow where
  seq : Int
  delta : Int
  total : Int
  prevEntryHash : String
  entryHash : String
  isCheckpoint : Bool
  prevCheckpoint : String
  json : Bytes
  ack : Bytes
  deriving DecidableEq, Repr

/-- The key columns `(did, kind, subkey)`; an absent subkey is stored as the empty text. -/
abbrev RowKey := String × String × String

/-- The key of a route. -/
def rowKey (did kind : String) (subkey : Option String) : RowKey := (did, kind, subkey.getD "")

/-- The two tables a chain write touches. -/
structure ChainStore where
  assertion : RowKey → Option AssertionRow
  chainEntry : RowKey → List ChainRow

/-- The store before any write. -/
def ChainStore.empty : ChainStore := ⟨fun _ => none, fun _ => []⟩

/-- `INSERT` into the rows of one chain: refused when the `seq` exists. -/
def insertRow (rows : List ChainRow) (row : ChainRow) : Except PersistError (List ChainRow) :=
  if rows.any (fun r => r.seq = row.seq) then .error .constraintViolation
  else .ok (rows.orderedInsert (fun r r' => r.seq ≤ r'.seq) row)

/-- The upsert of the latest-record row: an existing row is replaced by a higher `seq` only. -/
def upsertRow (old : Option AssertionRow) (row : AssertionRow) : AssertionRow :=
  match old with
  | none => row
  | some o => if row.seq > o.seq then row else o

namespace ChainStore

variable (s : ChainStore) (did kind : String) (subkey : Option String)

/-- The stored `seq` of the latest record, if one exists. -/
def assertionSeq : Option Nat :=
  (s.assertion (rowKey did kind subkey)).map fun row => ofColumn row.seq

/-- The head of a chain: the highest-seq entry's seq, total and hash. -/
def latestChainEntry : Option PrevEntry :=
  (s.chainEntry (rowKey did kind subkey)).getLast?.map fun row =>
    ⟨ofColumn row.seq, ofColumn row.total, row.entryHash⟩

/-- The entry a row stores. -/
def entryOfRow (row : ChainRow) : ChainEntry where
  did := did
  kind := kind
  subkey := subkey
  seq := ofColumn row.seq
  step :=
    if row.isCheckpoint then .checkpoint ⟨ofColumn row.total, row.prevEntryHash, row.prevCheckpoint⟩
    else .step ⟨row.delta, ofColumn row.total, row.prevEntryHash⟩

/-- Every entry of a chain, in seq order, each with its signed JSON. -/
def chainEntries : List (ChainEntry × Bytes) :=
  (s.chainEntry (rowKey did kind subkey)).map fun row =>
    (entryOfRow did kind subkey row, row.json)

/-- The hash of the chain's latest checkpoint, if any. -/
def latestCheckpointHash : Option String :=
  ((s.chainEntry (rowKey did kind subkey)).filter ChainRow.isCheckpoint).getLast?.map
    ChainRow.entryHash

/-- The transaction both appends run: insert into the history, upsert the latest record. -/
def appendRow (key : RowKey) (row : ChainRow) : Except PersistError ChainStore :=
  match insertRow (s.chainEntry key) row with
  | .error e => .error e
  | .ok rows =>
      .ok ⟨Function.update s.assertion key
          (some (upsertRow (s.assertion key) ⟨row.seq, row.json, row.ack⟩)),
        Function.update s.chainEntry key rows⟩

/-- Append a verified step entry. -/
def appendChainEntry (record : SignedAssertion) (ack : Ack) (body : ChainCounterBody)
    (entryHash : String) : Except PersistError ChainStore :=
  s.appendRow (rowKey record.did record.kind record.subkey)
    ⟨toColumn record.seq, body.delta, toColumn body.total, body.prevEntryHash, entryHash, false, "",
      record.toJson, ack.toJson⟩

/-- Append a verified checkpoint entry. -/
def appendCheckpointEntry (record : SignedAssertion) (ack : Ack) (body : CheckpointBody)
    (checkpointHash : String) : Except PersistError ChainStore :=
  s.appendRow (rowKey record.did record.kind record.subkey)
    ⟨toColumn record.seq, 0, toColumn body.closingTotal, body.chainHeadHash, checkpointHash, true,
      body.prevCheckpoint, record.toJson, ack.toJson⟩

/-- Compact a chain behind its latest checkpoint: delete every entry before it.  Returns the
checkpoint's seq, or `none` when there is no checkpoint. -/
def compactBehindLatestCheckpoint : ChainStore × Option Nat :=
  let key := rowKey did kind subkey
  match ((s.chainEntry key).filter ChainRow.isCheckpoint).getLast? with
  | none => (s, none)
  | some row =>
      ({ s with
          chainEntry := Function.update s.chainEntry key
            ((s.chainEntry key).filter fun r => !decide (r.seq < row.seq)) },
        some (ofColumn row.seq))

end ChainStore

/-! ## Operations -/

/-- When chain compaction fires. -/
inductive CompactionPolicy where
  | onAck
  | deferred
  deriving DecidableEq, Repr

/-- The part of the server's state that no chain operation changes. -/
structure ChainServer where
  crypto : Crypto
  attestKeypair : Keypair
  compaction : CompactionPolicy
  /-- A request body as a full signed record (model A). -/
  parseRecord : Bytes → Option SignedAssertion
  /-- A request body as an intent `{seq, body}` (model C). -/
  parseIntent : Bytes → Option (Nat × Value)

/-- The `did:` owner a verified JWT named, with the JWT's id. -/
structure AuthedWrite where
  did : String
  jti : Option String
  deriving DecidableEq, Repr

/-- The answer to an accepted write. -/
structure AssertionSaved where
  seq : Nat
  ackJson : Bytes
  deriving DecidableEq, Repr

namespace ChainServer

variable (S : ChainServer)

/-- The record a request submits: built and attested here (model C), or signed by the owner and
addressed to this route (model A). -/
def submittedRecord (did : String) (subkey : Option String) (body : Bytes)
    (authed : Option AuthedWrite) : Except ServerError SignedAssertion :=
  match authed with
  | some auth =>
      if auth.did ≠ did then .error .assertionUnauthorized
      else
        match S.parseIntent body with
        | none => .error (.badAssertion "body is not a valid assertion intent")
        | some (seq, intentBody) => do
            let fold ← chainCounterFold subkey intentBody
            return SignedAssertion.attestProvider chainCounterKind did subkey seq intentBody fold
              (auth.jti.getD "") S.attestKeypair
  | none =>
      match S.parseRecord body with
      | none => .error (.badAssertion "body is not a valid signed assertion")
      | some record =>
          if record.did ≠ did ∨ record.kind ≠ chainCounterKind ∨ record.subkey ≠ subkey then
            .error (.badAssertion "assertion target does not match the route")
          else .ok record

/-- Append a verified `chain.counter` entry: it must continue the stored chain, or it is refused
with the real values quoted. -/
def appendVerifiedChainEntry (s : ChainStore) (did kind : String) (subkey : Option String)
    (record : SignedAssertion) (ack : Ack) : Except ServerError (ChainStore × AssertionSaved) :=
  match ChainStep.fromValue record.body with
  | none => .error (.badAssertion "body is not a valid chain.counter entry")
  | some (.step body) =>
      match verifyStep (s.latestChainEntry did kind subkey) body record.seq with
      | .error brk => .error (.chainBroken brk.reason)
      | .ok () =>
          let hash := entryHash S.crypto.sha256Hex did kind subkey record.seq body
          match s.appendChainEntry record ack body hash with
          | .error e => .error (.persist e)
          | .ok s' => .ok (s', ⟨record.seq, ack.toJson⟩)
  | some (.checkpoint body) =>
      match s.latestChainEntry did kind subkey with
      | none => .error (.chainBroken "a checkpoint needs a chain to close (none exists)")
      | some prev =>
          let expectedPrev := (s.latestCheckpointHash did kind subkey).getD genesisPrevHash
          match verifyCheckpoint prev expectedPrev body record.seq with
          | .error brk => .error (.chainBroken brk.reason)
          | .ok () =>
              let hash := checkpointHash S.crypto.sha256Hex did kind subkey record.seq body
              match s.appendCheckpointEntry record ack body hash with
              | .error e => .error (.persist e)
              | .ok s' =>
                  -- the checkpoint's acknowledgment is the agreement to shred what is behind it
                  let s'' := match S.compaction with
                    | .onAck => (s'.compactBehindLatestCheckpoint did kind subkey).1
                    | .deferred => s'
                  .ok (s'', ⟨record.seq, ack.toJson⟩)

/-- The part of `op_put_assertion` behind the record: the fold, the body ceiling, anti-rollback,
the authorization, the acknowledgment and the append. -/
def putRecord (s : ChainStore) (did : String) (subkey : Option String)
    (record : SignedAssertion) : Except ServerError (ChainStore × AssertionSaved) := do
  let fold ← chainCounterFold subkey record.body
  let bytes := record.body.render.length
  if bytes > smallBodyCeilingBytes then
    throw (.bodyAboveCeiling chainCounterKind bytes smallBodyCeilingBytes)
  if (s.assertionSeq did chainCounterKind subkey).any (record.seq ≤ ·) then
    throw (.assertionStale chainCounterKind record.seq)
  if !record.verify S.crypto fold none S.attestKeypair.verifyingKey then
    throw .assertionUnauthorized
  let ack := makeAck S.crypto record S.attestKeypair
  S.appendVerifiedChainEntry s did chainCounterKind subkey record ack

/-- `op_put_assertion` on the `chain.counter` route. -/
def opPutAssertion (s : ChainStore) (did : String) (subkey : Option String) (body : Bytes)
    (authed : Option AuthedWrite) : Except ServerError (ChainStore × AssertionSaved) := do
  let record ← S.submittedRecord did subkey body authed
  S.putRecord s did subkey record

end ChainServer

/-- `op_compact_chain` on the `chain.counter` route: the seq compacted behind. -/
def opCompactChain (s : ChainStore) (did : String) (subkey : Option String) :
    Except ServerError (ChainStore × Nat) :=
  match s.compactBehindLatestCheckpoint did chainCounterKind subkey with
  | (s', some behind) => .ok (s', behind)
  | (_, none) => .error (.chainBroken "no acknowledged checkpoint to compact behind")

end Ciss
