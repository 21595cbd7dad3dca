import Mathlib.Logic.Function.Basic
import Ciss.Framework.Machine
import Ciss.Server.Ledger

/-!
# Object requests and their interleavings

`op_put_object`, `op_get_object` and `op_countersign_receipt`, each cut into the sections that run
without interruption: a section under the store lock, or one call of the blob store.  Between two
sections of a request any section of any other request may run.

An upload has up to six sections: the dial gates; `blobs.has`; for a new blob the reading of the
store's usage with the store ceiling, and of the at-rest dial with the per-DID cap; the write of
the blob; and the commit, which signs and appends the receipt and counts the stored bytes.  What a
request has learned so far is in its `InFlight` state.  A download has two sections, a
countersign one.

`ObjectServer.step` is the machine: requests arrive (`start`), run one section (`advance`), and
leave with an answer.  A section may fail for outside reasons (`Fault`); a failed section of the
store has no effect, except that a commit can fail between its two transactions.  Dials change by
requests of another kind, which the machine only sees as `dial`; `dropCache` deletes a DID's
cached totals.
-/

namespace Ciss

/-- A byte slice; its length fits `isize`. -/
structure Slice where
  bytes : Bytes
  len_le : bytes.length ≤ i64Max

/-- The storage-quota limits. -/
structure Limits where
  /-- The whole-store distinct-bytes ceiling. -/
  storeCeiling : Nat
  /-- The optional per-DID distinct-bytes cap. -/
  didCap : Option Nat
  deriving DecidableEq, Repr

/-- The part of the server's state that no object request changes. -/
structure ObjectServer where
  crypto : Crypto
  provider : Provider
  limits : Limits
  day : Nat
  /-- The `{signer, sig}` of a countersign body. -/
  parseCountersign : String → Option (String × String)

/-- The largest object a read serves. -/
def maxObjectBytes : Nat := 2097152

/-- `u64::saturating_add`. -/
def saturatingAdd (a b : Nat) : Nat := min (a + b) (2 ^ 64 - 1)

/-- Postage in cents for a byte total. -/
def postageCents (bytes : Nat) : Nat := bytes / 1000

/-- The blob backend: bytes by `(DID, CID)`. -/
abbrev Blobs := String × String → Option Bytes

/-- The answer to a successful request. -/
inductive OpOutcome where
  | stored (cid : String) (bytes : Nat) (mode : ReceiptMode) (receiptHash : String)
  | bytes (cid : String) (data : Bytes)
  | completed (json : Bytes)
  | meter (receiptCount uploadBytes downloadBytes runningTotalBytes postageCents
      drawdownDownloadBytes : Nat)
  | blobList (cids : List String)
  | policyBody (json : Bytes)
  deriving DecidableEq

/-! ## Sections of an upload -/

/-- The dial gates: no upload in drawdown, and none that would take the period's postage past the
customer's ceiling.  A transfer that costs nothing more is never blocked. -/
def dialGates (s : MeterStore) (did : String) (boundary : Nat) : Except ServerError Unit :=
  let dials := s.dials did
  if dials.accountMode = .drawdown then .error .drawdownActive
  else
    match dials.spendCents with
    | none => .ok ()
    | some ceilingCents =>
        let periodBytes := (s.runningTotals did).totalBytes - dials.periodBaseline
        let spentCents := postageCents periodBytes
        let neededCents := postageCents (saturatingAdd periodBytes boundary)
        if neededCents > ceilingCents ∧ neededCents > spentCents then
          .error (.spendCeiling neededCents spentCents ceilingCents)
        else .ok ()

/-- The usage an upload read before it was admitted. -/
structure Usage where
  storeUsed : Nat
  didStored : Nat
  deriving DecidableEq, Repr

/-- Read the usage of the store and of the DID, and enforce the whole-store ceiling. -/
def readUsage (limits : Limits) (s : MeterStore) (did : String) (size : Nat) :
    Except ServerError Usage :=
  match s.storeUsage with
  | .error e => .error (.persist e)
  | .ok storeUsed =>
      if saturatingAdd storeUsed size > limits.storeCeiling then .error .storeFull
      else .ok ⟨storeUsed, s.didStoredBytes did⟩

/-- The effective per-DID cap: neither the provider's nor the customer's loosens the other. -/
def effectiveCap : Option Nat → Option Nat → Option Nat
  | some p, some d => some (min p d)
  | some p, none => some p
  | none, some d => some d
  | none, none => none

/-- Enforce the per-DID cap. -/
def checkDidQuota (limits : Limits) (s : MeterStore) (did : String) (usage : Usage)
    (size : Nat) : Except ServerError Unit :=
  match effectiveCap limits.didCap (s.dials did).atRestBytes with
  | none => .ok ()
  | some cap =>
      if saturatingAdd usage.didStored size > cap then .error .didQuotaExceeded else .ok ()

/-- What may fail in a section for outside reasons: nothing, its first store operation, or its
last. -/
inductive Fault where
  | none
  | early
  | late
  deriving DecidableEq, Repr

namespace ObjectServer

variable (S : ObjectServer)

/-- The receipt a commit signs: its running total is the DID's total so far plus this transfer. -/
def receiptFor (s : MeterStore) (direction : Direction) (did cid : String) (boundary : Nat) :
    Receipt :=
  let total := (s.runningTotals did).totalBytes + boundary
  let (receiver, sender) := match direction with
    | .upload => (S.provider.id, did)
    | .download => (did, S.provider.id)
  let core := ReceiptCore.new direction cid (0, boundary) total S.day (s.dials did).accountMode
    receiver sender
  buildBoundaryReceipt S.crypto.sha256Hex S.provider core (s.dials did).receiptMode

/-- The commit of an upload.  Counting a new blob's bytes and appending the receipt are two
transactions. -/
def commitPut (s : MeterStore) (fault : Fault) (did cid : String) (boundary : Nat)
    (isNewStore : Bool) : MeterStore × Except ServerError OpOutcome :=
  let receipt := S.receiptFor s .upload did cid boundary
  let s' := if isNewStore then s.addStoredBytes did boundary else s
  match fault with
  | .early => (s, .error (.persist .sqlite))
  | .late => (s', .error (.persist .sqlite))
  | .none =>
      (s'.appendReceipt did receipt,
        .ok (.stored cid boundary receipt.mode receipt.contentHash))

/-- The commit of a download. -/
def commitGet (s : MeterStore) (fault : Fault) (did cid : String) (data : Bytes) :
    MeterStore × Except ServerError OpOutcome :=
  match fault with
  | .none =>
      (s.appendReceipt did (S.receiptFor s .download did cid data.length), .ok (.bytes cid data))
  | _ => (s, .error (.persist .sqlite))

/-- The customer's countersignature: verified, then added to the stored receipt. -/
def countersign (s : MeterStore) (fault : Fault) (did contentHash payload : String) :
    MeterStore × Except ServerError OpOutcome :=
  match S.parseCountersign payload with
  | none => (s, .error (.badAssertion "body is not a valid countersign"))
  | some (signer, sig) =>
      match publicKeyFromHex S.crypto signer with
      | .error _ => (s, .error .badPubkey)
      | .ok key =>
          if deriveId S.crypto key ≠ did then (s, .error .assertionUnauthorized)
          else if !verifyMessage S.crypto key contentHash sig then
            (s, .error .assertionUnauthorized)
          else if fault ≠ .none then (s, .error (.persist .sqlite))
          else
            match s.countersignReceipt did contentHash did sig with
            | (s', some completed) => (s', .ok (.completed completed.toJson))
            | (s', none) => (s', .error .notFound)

end ObjectServer

/-! ## Requests in flight -/

/-- Where an upload stands; from the write on, the usage it read says the blob is new. -/
inductive PutStage where
  | gates
  | has
  | usage
  | quota (read : Usage)
  | write (read : Option Usage)
  | commit (read : Option Usage)

/-- A request that has been started, at its next section. -/
inductive InFlight where
  | put (did key : String) (bytes : Slice) (stage : PutStage)
  | fetch (did cid : String)
  | serve (did cid : String) (data : Bytes)
  | countersign (did contentHash payload : String)

/-- What a section leaves to do. -/
inductive Next where
  | continue (req : InFlight)
  | answer (result : Except ServerError OpOutcome)

namespace ObjectServer

variable (S : ObjectServer)

/-- One section of a request. -/
def runSection (s : MeterStore) (blobs : Blobs) (fault : Fault) :
    InFlight → MeterStore × Blobs × Next
  | .put did key bytes stage =>
      let boundary := bytes.bytes.length
      let cid := S.crypto.sha256Hex bytes.bytes
      let resume (stage : PutStage) : Next := .continue (.put did key bytes stage)
      match stage with
      | .gates =>
          if fault ≠ .none then (s, blobs, .answer (.error (.persist .sqlite)))
          else
            match dialGates s did boundary with
            | .error e => (s, blobs, .answer (.error e))
            | .ok () => (s, blobs, resume .has)
      | .has =>
          (s, blobs, resume (if (blobs (did, cid)).isNone then .usage else .write none))
      | .usage =>
          if fault ≠ .none then (s, blobs, .answer (.error (.persist .sqlite)))
          else
            match readUsage S.limits s did boundary with
            | .error e => (s, blobs, .answer (.error e))
            | .ok read => (s, blobs, resume (.quota read))
      | .quota read =>
          if fault ≠ .none then (s, blobs, .answer (.error (.persist .sqlite)))
          else
            match checkDidQuota S.limits s did read boundary with
            | .error e => (s, blobs, .answer (.error e))
            | .ok () => (s, blobs, resume (.write (some read)))
      | .write read =>
          if fault ≠ .none then (s, blobs, .answer (.error .blob))
          else
            -- the backend reports the bytes it wrote; the in-memory one always writes them all
            let written := bytes.bytes.length
            let blobs' := Function.update blobs (did, cid) (some bytes.bytes)
            if written ≠ boundary then
              (s, blobs', .answer (.error (.byteCountMismatch boundary written)))
            else (s, blobs', resume (.commit read))
      | .commit read =>
          let (s', result) := S.commitPut s fault did cid boundary read.isSome
          (s', blobs, .answer result)
  | .fetch did cid =>
      if fault ≠ .none then (s, blobs, .answer (.error .blob))
      else
        match blobs (did, cid) with
        | none => (s, blobs, .answer (.error .notFound))
        | some data =>
            if data.length > maxObjectBytes then
              (s, blobs, .answer (.error (.objectTooLarge data.length maxObjectBytes)))
            else
              let actual := S.crypto.sha256Hex data
              if actual ≠ cid then (s, blobs, .answer (.error (.tampered cid actual)))
              else (s, blobs, .continue (.serve did cid data))
  | .serve did cid data =>
      let (s', result) := S.commitGet s fault did cid data
      (s', blobs, .answer result)
  | .countersign did contentHash payload =>
      let (s', result) := S.countersign s fault did contentHash payload
      (s', blobs, .answer result)

end ObjectServer

/-! ## The machine -/

/-- A request as it arrives. -/
inductive ObjectRequest where
  | put (did key : String) (bytes : Slice)
  | get (did cid : String)
  | countersign (did contentHash payload : String)

/-- The first section of a request. -/
def ObjectRequest.start : ObjectRequest → InFlight
  | .put did key bytes => .put did key bytes .gates
  | .get did cid => .fetch did cid
  | .countersign did contentHash payload => .countersign did contentHash payload

/-- The server between two sections. -/
structure ObjectWorld where
  store : MeterStore
  blobs : Blobs
  inFlight : Nat → Option InFlight
  answers : List (Nat × Except ServerError OpOutcome)

/-- An empty server without requests. -/
def ObjectWorld.init : ObjectWorld := ⟨MeterStore.empty, fun _ => none, fun _ => none, []⟩

/-- Delete a DID's cached row. -/
def MeterStore.dropTotalRow (s : MeterStore) (did : String) : MeterStore :=
  { s with didTotal := s.didTotal.filter fun row => row.did ≠ did }

/-- One move of the server or its clients. -/
inductive ObjectAction where
  | start (id : Nat) (request : ObjectRequest)
  | advance (id : Nat) (fault : Fault)
  | dial (did : String) (dials : Dials)
  | dropCache (did : String)

/-- One atomic step. -/
def ObjectServer.step (S : ObjectServer) (w : ObjectWorld) : ObjectAction → ObjectWorld
  | .start id request =>
      match w.inFlight id with
      | some _ => w
      | none => { w with inFlight := Function.update w.inFlight id (some request.start) }
  | .advance id fault =>
      match w.inFlight id with
      | none => w
      | some req =>
          match S.runSection w.store w.blobs fault req with
          | (store, blobs, .continue req') =>
              { w with
                store := store
                blobs := blobs
                inFlight := Function.update w.inFlight id (some req') }
          | (store, blobs, .answer result) =>
              { store := store
                blobs := blobs
                inFlight := Function.update w.inFlight id none
                answers := w.answers ++ [(id, result)] }
  | .dial did dials =>
      { w with store := { w.store with dials := Function.update w.store.dials did dials } }
  | .dropCache did =>
      { w with store := w.store.dropTotalRow did }

/-! ## What a section does to the store -/

section

variable {S : ObjectServer} {s : MeterStore} {fault : Fault}

lemma receiptFor_core (S : ObjectServer) (s : MeterStore) (direction : Direction)
    (did cid : String) (boundary : Nat) :
    (S.receiptFor s direction did cid boundary).core.bytes = boundary ∧
      (S.receiptFor s direction did cid boundary).core.runningTotal =
        (s.runningTotals did).totalBytes + boundary := by
  rcases direction with _ | _
  · exact ⟨rfl, rfl⟩
  · exact ⟨rfl, rfl⟩

/-- The receipt of a transfer depends on the store through the DID's totals and dials. -/
lemma receiptFor_congr {s' : MeterStore} {did cid : String} {boundary : Nat}
    (htotals : s'.runningTotals did = s.runningTotals did) (hdials : s'.dials = s.dials)
    (direction : Direction) :
    S.receiptFor s' direction did cid boundary = S.receiptFor s direction did cid boundary := by
  unfold ObjectServer.receiptFor
  rw [htotals, hdials]

lemma countersign_store (did contentHash payload : String) :
    (S.countersign s fault did contentHash payload).1 = s ∨
      ∃ sig, (S.countersign s fault did contentHash payload).1 =
        (s.countersignReceipt did contentHash did sig).1 := by
  unfold ObjectServer.countersign
  split
  · exact Or.inl rfl
  · rename_i signer sig _
    split
    · exact Or.inl rfl
    · split_ifs
      · exact Or.inl rfl
      · exact Or.inl rfl
      · exact Or.inl rfl
      · refine Or.inr ⟨sig, ?_⟩
        split
        · rename_i h
          rw [h]
        · rename_i h
          rw [h]

/-- **What one section can do.**  A section leaves the store alone, unless it is a commit, which
counts the bytes of a new blob and appends a receipt (or fails in between), or a countersign. -/
lemma runSection_store (S : ObjectServer) (s : MeterStore) (blobs : Blobs) (fault : Fault)
    (req : InFlight) :
    (S.runSection s blobs fault req).1 = s ∨
      (∃ did key bytes read, req = .put did key bytes (.commit (some read)) ∧
        (S.runSection s blobs fault req).1 = s.addStoredBytes did bytes.bytes.length) ∨
      (∃ did key bytes read cid, req = .put did key bytes (.commit read) ∧
        (S.runSection s blobs fault req).1 =
          (if read.isSome then s.addStoredBytes did bytes.bytes.length else s).appendReceipt did
            (S.receiptFor s .upload did cid bytes.bytes.length)) ∨
      (∃ did cid data, req = .serve did cid data ∧
        (S.runSection s blobs fault req).1 =
          s.appendReceipt did (S.receiptFor s .download did cid data.length)) ∨
      (∃ did contentHash payload sig, req = .countersign did contentHash payload ∧
        (S.runSection s blobs fault req).1 =
          (s.countersignReceipt did contentHash did sig).1) := by
  rcases req with ⟨did, key, bytes, stage⟩ | ⟨did, cid⟩ | ⟨did, cid, data⟩ |
    ⟨did, contentHash, payload⟩
  · rcases stage with _ | _ | _ | read | read | read
    · left
      simp only [ObjectServer.runSection]
      split_ifs
      · rfl
      · split <;> rfl
    · exact Or.inl rfl
    · left
      simp only [ObjectServer.runSection]
      split_ifs
      · rfl
      · split <;> rfl
    · left
      simp only [ObjectServer.runSection]
      split_ifs
      · rfl
      · split <;> rfl
    · left
      simp only [ObjectServer.runSection]
      split_ifs <;> rfl
    · rcases fault with _ | _ | _
      · exact Or.inr (Or.inr (Or.inl ⟨did, key, bytes, read, _, rfl, rfl⟩))
      · exact Or.inl rfl
      · rcases read with _ | read
        · exact Or.inl rfl
        · exact Or.inr (Or.inl ⟨did, key, bytes, read, rfl, rfl⟩)
  · left
    simp only [ObjectServer.runSection]
    split_ifs
    · rfl
    · split
      · rfl
      · split_ifs <;> rfl
  · rcases fault with _ | _ | _
    · exact Or.inr (Or.inr (Or.inr (Or.inl ⟨did, cid, data, rfl, rfl⟩)))
    · exact Or.inl rfl
    · exact Or.inl rfl
  · rcases countersign_store did contentHash payload with h | ⟨sig, h⟩
    · exact Or.inl h
    · exact Or.inr (Or.inr (Or.inr (Or.inr ⟨did, contentHash, payload, sig, rfl, h⟩)))

/-- How an upload gets from one section to the next, and what it then knows. -/
inductive PutMoves (S : ObjectServer) (s : MeterStore) (blobs : Blobs) (did : String)
    (bytes : Slice) : PutStage → PutStage → Blobs → Prop
  | gates (h : dialGates s did bytes.bytes.length = .ok ()) :
      PutMoves S s blobs did bytes .gates .has blobs
  | new (h : (blobs (did, S.crypto.sha256Hex bytes.bytes)).isNone = true) :
      PutMoves S s blobs did bytes .has .usage blobs
  | known (h : (blobs (did, S.crypto.sha256Hex bytes.bytes)).isSome = true) :
      PutMoves S s blobs did bytes .has (.write none) blobs
  | usage {read : Usage} (h : readUsage S.limits s did bytes.bytes.length = .ok read) :
      PutMoves S s blobs did bytes .usage (.quota read) blobs
  | quota {read : Usage} (h : checkDidQuota S.limits s did read bytes.bytes.length = .ok ()) :
      PutMoves S s blobs did bytes (.quota read) (.write (some read)) blobs
  | write (read : Option Usage) :
      PutMoves S s blobs did bytes (.write read) (.commit read)
        (Function.update blobs (did, S.crypto.sha256Hex bytes.bytes) (some bytes.bytes))

/-- **How an upload goes on.**  A section that does not end an upload has left the store alone. -/
lemma runSection_put_continue {s' : MeterStore} {blobs blobs' : Blobs} {did key : String}
    {bytes : Slice} {stage : PutStage} {req : InFlight}
    (h : S.runSection s blobs fault (.put did key bytes stage) = (s', blobs', .continue req)) :
    s' = s ∧ ∃ stage', req = .put did key bytes stage' ∧
      PutMoves S s blobs did bytes stage stage' blobs' := by
  rcases stage with _ | _ | _ | read | read | read
  · simp only [ObjectServer.runSection] at h
    split_ifs at h
    · cases h
    · split at h
      · cases h
      · rename_i hgates
        cases h
        exact ⟨rfl, _, rfl, .gates hgates⟩
  · simp only [ObjectServer.runSection] at h
    cases h
    refine ⟨rfl, _, rfl, ?_⟩
    split
    · rename_i hnone
      exact .new hnone
    · rename_i hsome
      exact .known (by simpa [Option.isSome_iff_ne_none] using hsome)
  · simp only [ObjectServer.runSection] at h
    split_ifs at h
    · cases h
    · split at h
      · cases h
      · rename_i hread
        cases h
        exact ⟨rfl, _, rfl, .usage hread⟩
  · simp only [ObjectServer.runSection] at h
    split_ifs at h
    · cases h
    · split at h
      · cases h
      · rename_i hquota
        cases h
        exact ⟨rfl, _, rfl, .quota hquota⟩
  · simp only [ObjectServer.runSection] at h
    split_ifs at h
    · cases h
    · cases h
    · cases h
      exact ⟨rfl, _, rfl, .write read⟩
  · simp only [ObjectServer.runSection] at h
    cases h

/-- Only a commit moves the store among the sections of an upload. -/
lemma runSection_put_store {blobs : Blobs} {did key : String} {bytes : Slice} {stage : PutStage}
    (hstage : ∀ read, stage ≠ .commit read) :
    (S.runSection s blobs fault (.put did key bytes stage)).1 = s := by
  rcases runSection_store S s blobs fault (.put did key bytes stage) with
    heq | ⟨_, _, _, read, hput, -⟩ | ⟨_, _, _, read, _, hput, -⟩ | ⟨_, _, _, hput, -⟩ |
    ⟨_, _, _, _, hput, -⟩
  · exact heq
  · cases hput
    exact absurd rfl (hstage _)
  · cases hput
    exact absurd rfl (hstage _)
  · cases hput
  · cases hput

/-- Only a write moves the blobs among the sections of an upload. -/
lemma runSection_put_blobs {blobs : Blobs} {did key : String} {bytes : Slice} {stage : PutStage}
    (hstage : ∀ read, stage ≠ .write read) :
    (S.runSection s blobs fault (.put did key bytes stage)).2.1 = blobs := by
  rcases stage with _ | _ | _ | read | read | read
  · simp only [ObjectServer.runSection]
    split_ifs
    · rfl
    · split <;> rfl
  · rfl
  · simp only [ObjectServer.runSection]
    split_ifs
    · rfl
    · split <;> rfl
  · simp only [ObjectServer.runSection]
    split_ifs
    · rfl
    · split <;> rfl
  · exact absurd rfl (hstage read)
  · rfl

/-- The store after a move: changed by a section, a dial, or a dropped cache row. -/
lemma step_advance_store (S : ObjectServer) (w : ObjectWorld) (id : Nat) (fault : Fault) :
    (S.step w (.advance id fault)).store = w.store ∨
      ∃ req, w.inFlight id = some req ∧
        (S.step w (.advance id fault)).store = (S.runSection w.store w.blobs fault req).1 := by
  simp only [ObjectServer.step]
  rcases hreq : w.inFlight id with _ | req
  · exact Or.inl rfl
  · refine Or.inr ⟨req, rfl, ?_⟩
    dsimp only
    rcases S.runSection w.store w.blobs fault req with ⟨store, blobs, req' | result⟩
    · rfl
    · rfl

lemma step_start_store {w : ObjectWorld} {id : Nat} {request : ObjectRequest} :
    (S.step w (.start id request)).store = w.store := by
  simp only [ObjectServer.step]
  split <;> rfl

end

end Ciss
