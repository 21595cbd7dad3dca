import Ciss.Framework.Firsts
import Ciss.Framework.HashTable
import Ciss.Server.Settings
import Ciss.Server.StoredBytes

/-!
# Gated reads

Who may read an object is a setting of its owner: a policy of the object, or else of the whole
namespace, or else the world may.  `resolve_policy` finds the policy of one object; a row that does
not parse resolves to the owner alone.  Reads go through `dispatch`, which authorizes them twice:
`authorize` by the kind of operation, and `authorize_read`, for `GetObject`, by the policy of its
object.

`ListBlobs` decides about many objects at once.  It resolves the namespace a single time, looks for
an object policy per object, and skips all of that for a DID without any policy.
`listed_iff_readable` says that this is the same decision.

A read that is refused is answered like one of an object that does not exist.
`hidden_objects_unobservable` says so of two servers: what a caller may not read has no influence on
the answers.

An answer is computed without failures of the database or the disk.  The compute accounting of
`dispatch` is left out: it is not part of an answer.
-/

namespace Ciss

/-! ## Policies -/

/-- The effective read policy of a target. -/
structure ResolvedPolicy where
  readClass : ReadClass
  readers : List String
  deriving DecidableEq, Repr

namespace ResolvedPolicy

/-- The world-readable default. -/
def world : ResolvedPolicy := ⟨.world, []⟩

/-- What a row that does not parse resolves to. -/
def deny : ResolvedPolicy := ⟨.owner, []⟩

/-- The policy of a stored body. -/
def fromBody (body : PolicyBody) : ResolvedPolicy := ⟨body.readClass, body.readers⟩

/-- May `caller` read the target owned by `ownerDid`? -/
def allows (p : ResolvedPolicy) (caller : Option String) (ownerDid : String) : Bool :=
  if caller = some ownerDid then true
  else
    match p.readClass with
    | .world => true
    | .owner => false
    | .grantees => caller.any fun c => p.readers.any fun r => r = c

/-- The owner always may. -/
lemma allows_owner (p : ResolvedPolicy) (did : String) : p.allows (some did) did = true := by
  unfold allows
  rw [if_pos rfl]

/-- The world class admits everyone. -/
lemma allows_of_world {p : ResolvedPolicy} (h : p.readClass = .world) (caller : Option String)
    (did : String) : p.allows caller did = true := by
  unfold allows
  rw [h]
  simp

/-- A row that does not parse admits the owner only. -/
lemma deny_allows {caller : Option String} {did : String} :
    deny.allows caller did = true ↔ caller = some did := by
  unfold allows deny
  simp

end ResolvedPolicy

/-! ## The server -/

/-- The server's stores, as far as reads look at them. -/
structure AppState where
  assertion : AssertionTable
  meter : MeterStore
  blobs : Blobs

/-- The part of the server's state that no read changes. -/
structure ReadServer where
  objects : ObjectServer
  /-- A JSON text as a full signed record. -/
  parseRecord : Bytes → Option SignedAssertion
  /-- A JSON text as an acknowledgment. -/
  parseAck : Bytes → Option Ack

/-- The reads. -/
inductive ReadOp where
  | getObject (did cid : String)
  | getMeter (did : String)
  | listBlobs (did : String)
  | getAssertion (did kind : String) (subkey : Option String)
  deriving DecidableEq, Repr

/-- The stored text of a row and of its acknowledgment. -/
def assertionJson (table : AssertionTable) (did kind : String) (subkey : Option String) :
    Option (Bytes × Bytes) :=
  (table.lookup (rowKey did kind subkey)).map fun row => (row.json, row.ack)

/-- Whether a DID has any per-object policy row. -/
def hasObjectPolicies (table : AssertionTable) (did : String) : Bool :=
  table.keys.any fun key => key.1 = did ∧ key.2.1 = Kind.policy.tag ∧ key.2.2 ≠ ""

/-- The content addresses of a ledger's upload receipts. -/
def uploadCids (receipts : List Receipt) : List String :=
  (receipts.filter fun r => r.core.direction = .upload).map fun r => r.core.cid

/-- The content addresses a DID has uploaded, in first-upload order. -/
def AppState.distinctUploads (st : AppState) (did : String) : List String :=
  distinct (uploadCids (st.meter.loadReceipts did))

/-! ## Records as JSON values -/

/-- An authorization as a JSON value. -/
def Authorization.toValue : Authorization → Value
  | .ownerSigned signer sig =>
      .object [("OwnerSigned", .object [("sig", .string sig), ("signer", .string signer)])]
  | .providerAttested ownerDid jti sig =>
      .object [("ProviderAttested", .object [("authorizing_jti", .string jti),
        ("owner_did", .string ownerDid), ("provider_sig", .string sig)])]

/-- A record as a JSON value. -/
def SignedAssertion.toValue (a : SignedAssertion) : Value :=
  .object [("authorization", a.authorization.toValue), ("body", a.body), ("did", .string a.did),
    ("kind", .string a.kind), ("seq", .posInt (UInt64.ofNat a.seq)),
    ("subkey", a.subkey.elim .null .string)]

/-- An acknowledgment as a JSON value. -/
def Ack.toValue (k : Ack) : Value :=
  .object [("sig", .string k.sig), ("signer", .string k.signer)]

/-! ## Operations -/

/-- Owner-gated authorization. -/
def requireOwner (caller : Option String) (did : String) : Except ServerError Unit :=
  match caller with
  | none => .error .unauthorized
  | some owner => if owner = did then .ok () else .error .forbidden

/-- Authorize a read by its kind. -/
def authorize (caller : Option String) : ReadOp → Except ServerError Unit
  | .getMeter did => requireOwner caller did
  | .getObject .. | .listBlobs .. | .getAssertion .. => .ok ()

namespace ReadServer

variable (S : ReadServer)

/-- The policy of a stored row; a row that does not parse is closed to all but the owner. -/
def resolvedFromJson (json : Bytes) : ResolvedPolicy :=
  match (S.parseRecord json).bind fun a => PolicyBody.fromValue a.body with
  | some body => .fromBody body
  | none => .deny

/-- The effective policy of a target: the object's own, else the namespace's, else the world's. -/
def resolvePolicy (table : AssertionTable) (did : String) (cid : Option String) :
    ResolvedPolicy :=
  match cid.bind fun cid => assertionJson table did Kind.policy.tag (some cid) with
  | some (json, _) => S.resolvedFromJson json
  | none =>
      match assertionJson table did Kind.policy.tag none with
      | some (json, _) => S.resolvedFromJson json
      | none => .world

/-- The object's own policy, if it has one. -/
def resolveObjectPolicy (table : AssertionTable) (did cid : String) : Option ResolvedPolicy :=
  (assertionJson table did Kind.policy.tag (some cid)).map fun row => S.resolvedFromJson row.1

/-- Gate a read by its target's policy.  A refusal is the answer to a read of nothing. -/
def authorizeRead (st : AppState) (caller : Option String) : ReadOp → Except ServerError Unit
  | .getObject did cid =>
      let resolved := S.resolvePolicy st.assertion did (some cid)
      if resolved.readClass = .world then .ok ()
      else if resolved.allows caller did then .ok ()
      else .error .notFound
  | _ => .ok ()

/-- Serve an object, and record the download. -/
def opGetObject (st : AppState) (did cid : String) : AppState × Except ServerError OpOutcome :=
  match st.blobs (did, cid) with
  | none => (st, .error .notFound)
  | some data =>
      if data.length > maxObjectBytes then
        (st, .error (.objectTooLarge data.length maxObjectBytes))
      else
        let actual := S.objects.crypto.sha256Hex data
        if actual ≠ cid then (st, .error (.tampered cid actual))
        else
          let (meter, result) := S.objects.commitGet st.meter .none did cid data
          ({ st with meter := meter }, result)

/-- A DID's meter. -/
def opGetMeter (st : AppState) (did : String) : OpOutcome :=
  let totals := st.meter.runningTotals did
  .meter totals.receiptCount totals.uploadBytes totals.downloadBytes totals.totalBytes
    (postageCents totals.totalBytes) totals.drawdownDownloadBytes

/-- The loop of a gated listing: each object's own policy, or else the namespace's. -/
def gatedCids (st : AppState) (caller : Option String) (did : String) : List String :=
  let nspace := S.resolvePolicy st.assertion did none
  (st.distinctUploads did).filter fun cid =>
    ((S.resolveObjectPolicy st.assertion did cid).getD nspace).allows caller did

/-- Nothing of the DID is gated. -/
def Ungated (st : AppState) (did : String) : Prop :=
  (S.resolvePolicy st.assertion did none).readClass = .world ∧
    hasObjectPolicies st.assertion did = false

instance (st : AppState) (did : String) : Decidable (S.Ungated st did) :=
  inferInstanceAs (Decidable (_ ∧ _))

/-- The content addresses a DID has uploaded and the caller may read. -/
def opListBlobs (st : AppState) (caller : Option String) (did : String) : OpOutcome :=
  if S.Ungated st did then .blobList (st.distinctUploads did)
  else .blobList (S.gatedCids st caller did)

/-- Read back a stored setting and its acknowledgment.  A reader of a policy that is not its owner
learns its own access only. -/
def opGetAssertion (st : AppState) (caller : Option String) (did kind : String)
    (subkey : Option String) : Except ServerError OpOutcome :=
  match loadAssertion S.parseRecord S.parseAck st.assertion did kind subkey with
  | .error e => .error (.persist e)
  | .ok none => .error .notFound
  | .ok (some (record, ack)) =>
      if caller = some did then
        .ok (.policyBody
          (Value.object [("ack", ack.toValue), ("assertion", record.toValue)]).render)
      else if kind = Kind.policy.tag then
        match PolicyBody.fromValue record.body with
        | some body =>
            if (ResolvedPolicy.fromBody body).allows caller did then
              .ok (.policyBody (Value.object
                [("may_read", .bool true), ("read_class", .string body.readClass.tag)]).render)
            else .error .notFound
        | none => .error .notFound
      else .error .notFound

/-- The operations behind the dispatch boundary. -/
def dispatchOp (st : AppState) (caller : Option String) :
    ReadOp → AppState × Except ServerError OpOutcome
  | .getObject did cid => S.opGetObject st did cid
  | .getMeter did => (st, .ok (opGetMeter st did))
  | .listBlobs did => (st, .ok (S.opListBlobs st caller did))
  | .getAssertion did kind subkey => (st, S.opGetAssertion st caller did kind subkey)

/-- The dispatch boundary: authorize, then do. -/
def dispatch (st : AppState) (caller : Option String) (op : ReadOp) :
    AppState × Except ServerError OpOutcome :=
  match authorize caller op with
  | .error e => (st, .error e)
  | .ok () =>
      match S.authorizeRead st caller op with
      | .error e => (st, .error e)
      | .ok () => S.dispatchOp st caller op

end ReadServer

/-- A download that is handled alone does, section by section, what `op_get_object` does. -/
theorem getObject_alone (S : ReadServer) (st : AppState) (did cid : String) (id : Nat) :
    (run S.objects.step ⟨st.meter, st.blobs, fun _ => none, []⟩
        [.start id (.get did cid), .advance id .none, .advance id .none]).store =
      (S.opGetObject st did cid).1.meter ∧
    (run S.objects.step ⟨st.meter, st.blobs, fun _ => none, []⟩
        [.start id (.get did cid), .advance id .none, .advance id .none]).answers =
      [(id, (S.opGetObject st did cid).2)] := by
  have hstart : run S.objects.step ⟨st.meter, st.blobs, fun _ => none, []⟩
      [.start id (.get did cid), .advance id .none, .advance id .none] = run S.objects.step
        ⟨st.meter, st.blobs, Function.update (fun _ => none) id (some (.fetch did cid)), []⟩
        [.advance id .none, .advance id .none] := rfl
  rw [hstart]
  unfold ReadServer.opGetObject
  rcases hblob : st.blobs (did, cid) with _ | data
  · simp [ObjectServer.step, ObjectServer.runSection, hblob]
  · dsimp only
    by_cases hlen : data.length > maxObjectBytes
    · simp [ObjectServer.step, ObjectServer.runSection, hblob, hlen]
    · by_cases hhash : S.objects.crypto.sha256Hex data ≠ cid
      · simp [ObjectServer.step, ObjectServer.runSection, hblob, hlen, hhash]
      · simp [ObjectServer.step, ObjectServer.runSection, hblob, hlen, hhash,
          ObjectServer.commitGet]

/-! ## One decision, made twice -/

section

variable {S : ReadServer} {st : AppState} {table : AssertionTable} {caller : Option String}
variable {did cid : String}

/-- An object without a policy of its own has the namespace's. -/
lemma resolvePolicy_some :
    S.resolvePolicy table did (some cid) =
      (S.resolveObjectPolicy table did cid).getD (S.resolvePolicy table did none) := by
  unfold ReadServer.resolvePolicy ReadServer.resolveObjectPolicy
  simp only [Option.bind_some, Option.bind_none]
  rcases assertionJson table did Kind.policy.tag (some cid) with _ | ⟨json, ack⟩
  · rfl
  · rfl

/-- The gate before a read is the policy of its object. -/
lemma authorizeRead_getObject :
    S.authorizeRead st caller (.getObject did cid) =
      if (S.resolvePolicy st.assertion did (some cid)).allows caller did then .ok ()
      else .error .notFound := by
  simp only [ReadServer.authorizeRead]
  by_cases hworld : (S.resolvePolicy st.assertion did (some cid)).readClass = .world
  · rw [if_pos hworld, if_pos (ResolvedPolicy.allows_of_world hworld caller did)]
  · rw [if_neg hworld]

lemma authorizeRead_getObject_ok :
    S.authorizeRead st caller (.getObject did cid) = .ok () ↔
      (S.resolvePolicy st.assertion did (some cid)).allows caller did = true := by
  rw [authorizeRead_getObject]
  split
  · rename_i h
    simp [h]
  · rename_i h
    simp [h]

/-- A policy row of a DID without object policies is the namespace's. -/
lemma subkey_of_no_objectPolicies (h : hasObjectPolicies table did = false) {subkey : Option String}
    {row : Bytes × Bytes} (hrow : assertionJson table did Kind.policy.tag subkey = some row) :
    rowKey did Kind.policy.tag subkey = rowKey did Kind.policy.tag none := by
  unfold assertionJson at hrow
  obtain ⟨r, hr, -⟩ := Option.map_eq_some_iff.mp hrow
  have hmem : rowKey did Kind.policy.tag subkey ∈ table.keys := by
    rw [← AList.mem_keys, ← AList.lookup_isSome, hr]
    rfl
  have hkey := List.any_eq_false.mp h _ hmem
  have hempty : subkey.getD "" = "" := by
    by_contra hne
    exact hkey (by simp [rowKey, hne])
  unfold rowKey
  rw [hempty]
  rfl

/-- Without object policies every object has the namespace's policy. -/
lemma resolvePolicy_of_no_objectPolicies (h : hasObjectPolicies table did = false) :
    S.resolvePolicy table did (some cid) = S.resolvePolicy table did none := by
  rw [resolvePolicy_some]
  unfold ReadServer.resolveObjectPolicy
  rcases hrow : assertionJson table did Kind.policy.tag (some cid) with _ | row
  · rfl
  · -- the row of an object whose address is empty is the namespace's own
    have hsame : assertionJson table did Kind.policy.tag none = some row := by
      rw [← hrow]
      unfold assertionJson
      rw [subkey_of_no_objectPolicies h hrow]
    unfold ReadServer.resolvePolicy
    simp only [Option.bind_none, hsame]
    rfl

/-- The loop of a listing asks what the gate of a read asks. -/
lemma gatedCids_eq :
    S.gatedCids st caller did = (st.distinctUploads did).filter fun cid =>
      (S.resolvePolicy st.assertion did (some cid)).allows caller did := by
  unfold ReadServer.gatedCids
  simp only [resolvePolicy_some]

/-- The short cut of a listing leaves out nothing but the questions. -/
lemma gatedCids_of_ungated (h : S.Ungated st did) :
    S.gatedCids st caller did = st.distinctUploads did := by
  rw [gatedCids_eq, List.filter_eq_self]
  intro cid _
  rw [resolvePolicy_of_no_objectPolicies h.2]
  exact ResolvedPolicy.allows_of_world h.1 caller did

/-- The owner's listing is complete. -/
lemma gatedCids_owner : S.gatedCids st (some did) did = st.distinctUploads did := by
  rw [gatedCids_eq, List.filter_eq_self]
  intro cid _
  exact ResolvedPolicy.allows_owner _ did

/-- A policy that does not parse closes its object to everyone but the owner. -/
lemma allows_of_unparseable {json ack : Bytes}
    (hrow : assertionJson table did Kind.policy.tag (some cid) = some (json, ack))
    (hparse : (S.parseRecord json).bind (fun a => PolicyBody.fromValue a.body) = none) :
    (S.resolvePolicy table did (some cid)).allows caller did = true ↔ caller = some did := by
  have hdeny : S.resolvePolicy table did (some cid) = .deny := by
    unfold ReadServer.resolvePolicy ReadServer.resolvedFromJson
    simp only [Option.bind_some, hrow, hparse]
  rw [hdeny]
  exact ResolvedPolicy.deny_allows

lemma opListBlobs_eq : S.opListBlobs st caller did = .blobList (S.gatedCids st caller did) := by
  unfold ReadServer.opListBlobs
  split
  · rename_i h
    rw [gatedCids_of_ungated h]
  · rfl

end

/-- **Listing agrees with reading.**  In every state and for every caller, a listing has the
addresses that the DID uploaded and that the gate of `GetObject` lets the caller read, once each and
in the order of their first upload; the short cut gives what resolving each object gives. -/
theorem listed_iff_readable (S : ReadServer) (st : AppState) (caller : Option String)
    (did : String) :
    (∃ cids, S.opListBlobs st caller did = .blobList cids ∧
      (∀ cid, cid ∈ cids ↔ cid ∈ uploadCids (st.meter.loadReceipts did) ∧
        S.authorizeRead st caller (.getObject did cid) = .ok ()) ∧
      cids.Nodup ∧
      cids.Pairwise fun a b => (uploadCids (st.meter.loadReceipts did)).idxOf a <
        (uploadCids (st.meter.loadReceipts did)).idxOf b) ∧
    (S.Ungated st did → S.opListBlobs st caller did =
      .blobList ((st.distinctUploads did).filter fun cid =>
        (S.resolvePolicy st.assertion did (some cid)).allows caller did)) := by
  have horder : (S.gatedCids st caller did).Pairwise fun a b =>
      (uploadCids (st.meter.loadReceipts did)).idxOf a <
        (uploadCids (st.meter.loadReceipts did)).idxOf b := by
    rw [gatedCids_eq]
    exact distinct_pairwise_idxOf.sublist List.filter_sublist
  refine ⟨⟨S.gatedCids st caller did, opListBlobs_eq, ?_, ?_, horder⟩, ?_⟩
  · intro cid
    rw [gatedCids_eq, List.mem_filter, AppState.distinctUploads, mem_distinct,
      authorizeRead_getObject_ok]
  · refine horder.imp ?_
    rintro a b hlt rfl
    omega
  · intro _
    rw [opListBlobs_eq, gatedCids_eq]

/-! ## What a caller cannot see -/

/-- Two states that differ only in which of the owner's objects among `hidden` have been uploaded:
their blobs, and the receipts that come with them.  The receipts of the owner's other objects carry
running totals, so that of these only the uploads agree. -/
structure DifferInObjects (owner : String) (hidden : Set String) [DecidablePred (· ∈ hidden)]
    (a b : AppState) : Prop where
  assertion : a.assertion = b.assertion
  blobs : ∀ did cid, ¬ (did = owner ∧ cid ∈ hidden) → a.blobs (did, cid) = b.blobs (did, cid)
  receipts : ∀ did, did ≠ owner → a.meter.loadReceipts did = b.meter.loadReceipts did
  uploads : (a.distinctUploads owner).filter (· ∉ hidden) =
    (b.distinctUploads owner).filter (· ∉ hidden)

section

variable {S : ReadServer} {st a b : AppState} {caller : Option String} {did cid owner : String}
variable {hidden : Set String} [DecidablePred (· ∈ hidden)]

/-- A read that the policy refuses finds nothing and changes nothing. -/
lemma dispatch_getObject_refused
    (h : (S.resolvePolicy st.assertion did (some cid)).allows caller did = false) :
    S.dispatch st caller (.getObject did cid) = (st, .error .notFound) := by
  have hgate : S.authorizeRead st caller (.getObject did cid) = .error .notFound := by
    rw [authorizeRead_getObject, h]
    rfl
  simp only [ReadServer.dispatch, authorize, hgate]

lemma dispatch_getObject_allowed
    (h : (S.resolvePolicy st.assertion did (some cid)).allows caller did = true) :
    S.dispatch st caller (.getObject did cid) = S.opGetObject st did cid := by
  have hgate := authorizeRead_getObject_ok.mpr h
  simp only [ReadServer.dispatch, authorize, hgate]
  rfl

lemma dispatch_listBlobs :
    S.dispatch st caller (.listBlobs did) = (st, .ok (.blobList (S.gatedCids st caller did))) := by
  rw [← opListBlobs_eq]
  rfl

lemma dispatch_getAssertion {kind : String} {subkey : Option String} :
    S.dispatch st caller (.getAssertion did kind subkey) =
      (st, S.opGetAssertion st caller did kind subkey) := rfl

/-- A listing is read off the uploads outside of what the caller may not read. -/
lemma gatedCids_eq_filter_visible
    (h : ∀ cid ∈ hidden, (S.resolvePolicy st.assertion owner (some cid)).allows caller owner = false) :
    S.gatedCids st caller owner =
      ((st.distinctUploads owner).filter (· ∉ hidden)).filter fun cid =>
        (S.resolvePolicy st.assertion owner (some cid)).allows caller owner := by
  rw [gatedCids_eq, List.filter_filter]
  refine List.filter_congr ?_
  intro cid _
  by_cases hc : cid ∈ hidden
  · rw [h cid hc]
    rfl
  · simp [hc]

/-- Two states that differ in hidden objects list the same. -/
lemma DifferInObjects.gatedCids (hab : DifferInObjects owner hidden a b)
    (h : ∀ cid ∈ hidden, (S.resolvePolicy a.assertion owner (some cid)).allows caller owner = false) :
    S.gatedCids a caller owner = S.gatedCids b caller owner := by
  have hb : ∀ cid ∈ hidden,
      (S.resolvePolicy b.assertion owner (some cid)).allows caller owner = false := by
    rw [← hab.assertion]
    exact h
  rw [gatedCids_eq_filter_visible h, gatedCids_eq_filter_visible hb, hab.uploads, hab.assertion]

/-- What a setting reads as depends on the settings alone. -/
lemma opGetAssertion_congr (h : a.assertion = b.assertion) {kind : String}
    {subkey : Option String} :
    S.opGetAssertion a caller did kind subkey = S.opGetAssertion b caller did kind subkey := by
  unfold ReadServer.opGetAssertion
  rw [h]

end

/-- **No existence oracle.**  Take two states with the same settings that differ only in which
objects of an owner have been uploaded, and a caller whom the policies of these objects do not
admit.  Then a read of any object whose policy does not admit the caller, a listing of the owner's
objects, and a read of any of the owner's policies are answered alike in both. -/
theorem hidden_objects_unobservable (S : ReadServer) (owner : String) (hidden : Set String)
    [DecidablePred (· ∈ hidden)] {a b : AppState} (hab : DifferInObjects owner hidden a b)
    (caller : Option String)
    (hrefused : ∀ cid ∈ hidden,
      (S.resolvePolicy a.assertion owner (some cid)).allows caller owner = false) :
    (∀ did cid, (S.resolvePolicy a.assertion did (some cid)).allows caller did = false →
      (S.dispatch a caller (.getObject did cid)).2 =
        (S.dispatch b caller (.getObject did cid)).2) ∧
    (S.dispatch a caller (.listBlobs owner)).2 = (S.dispatch b caller (.listBlobs owner)).2 ∧
    ∀ subkey, (S.dispatch a caller (.getAssertion owner Kind.policy.tag subkey)).2 =
      (S.dispatch b caller (.getAssertion owner Kind.policy.tag subkey)).2 := by
  refine ⟨?_, ?_, ?_⟩
  · intro did cid ha
    have hb := ha
    rw [hab.assertion] at hb
    rw [dispatch_getObject_refused ha, dispatch_getObject_refused hb]
  · rw [dispatch_listBlobs, dispatch_listBlobs, hab.gatedCids hrefused]
  · intro subkey
    rw [dispatch_getAssertion, dispatch_getAssertion]
    exact opGetAssertion_congr hab.assertion

/-! ### A closed namespace

The owner has closed its namespace; one server holds an object of it, the other holds none. -/

/-- The policy of the namespace, attested by the server. -/
def closedPolicy : SignedAssertion where
  did := "did:plc:ewvi7nxzyoun6zhxrhs64oiz"
  kind := "policy"
  subkey := none
  seq := 1
  body := .object [("read_class", .string "owner"), ("readers", .array [])]
  authorization := .providerAttested "did:plc:ewvi7nxzyoun6zhxrhs64oiz" ""
    "7612888ac1bb840e69e523bc8fc489dd50333ec7e8fdfa502a1488164577374b7b09df31c76d71065aa759dc8efcfd734b0ffc200c9c46a0b596e6baf7c86900"

/-- The acknowledgment of the policy. -/
def closedAck : Ack where
  signer := "ea4a6c63e29c520abef5507b132ec5f9954776aebebe7b92421eea691446d22c"
  sig :=
    "9335d72e44335338137ec2b0505f8d8fb312c82689fab1086c86afaeead733bba0e632495690d3311a503391259f158478ee8742f12ab71054cec672403f8a08"

/-- A server that reads these texts back. -/
def closedServer : ReadServer where
  objects := abcServer
  parseRecord := readBack SignedAssertion.toJson [closedPolicy]
  parseAck := readBack Ack.toJson [closedAck]

/-- The table with the policy. -/
def closedTable : AssertionTable :=
  (∅ : AssertionTable).insert (rowKey closedPolicy.did closedPolicy.kind closedPolicy.subkey)
    ⟨1, closedPolicy.toJson, closedAck.toJson⟩

/-- No object has been uploaded. -/
def emptyNamespace : AppState := ⟨closedTable, MeterStore.empty, fun _ => none⟩

/-- The owner has uploaded `abc`. -/
def filledNamespace : AppState where
  assertion := closedTable
  meter := (MeterStore.empty.addStoredBytes closedPolicy.did 3).appendReceipt closedPolicy.did
    (abcServer.receiptFor MeterStore.empty .upload closedPolicy.did
      "ba7816bf8f01cfea414140de5dae2223b00361a396177a9cb410ff61f20015ad" 3)
  blobs := Function.update (fun _ => none)
    (closedPolicy.did, "ba7816bf8f01cfea414140de5dae2223b00361a396177a9cb410ff61f20015ad")
    (some (asBytes "abc"))

/-- The object that was uploaded. -/
def closedObjects : Set String :=
  {cid | cid = "ba7816bf8f01cfea414140de5dae2223b00361a396177a9cb410ff61f20015ad"}

instance : DecidablePred (· ∈ closedObjects) := fun cid =>
  inferInstanceAs (Decidable (cid = "ba7816bf8f01cfea414140de5dae2223b00361a396177a9cb410ff61f20015ad"))

lemma namespaces_differ :
    DifferInObjects closedPolicy.did closedObjects filledNamespace emptyNamespace where
  assertion := rfl
  blobs := by
    intro did cid hne
    have hkey : (did, cid) ≠ (closedPolicy.did,
        "ba7816bf8f01cfea414140de5dae2223b00361a396177a9cb410ff61f20015ad") := fun heq =>
      hne ⟨congrArg Prod.fst heq, congrArg Prod.snd heq⟩
    unfold filledNamespace emptyNamespace
    dsimp only
    rw [Function.update_of_ne hkey]
  receipts := by
    intro did hne
    unfold filledNamespace emptyNamespace
    rw [MeterStore.loadReceipts_appendReceipt_other _ hne.symm,
      MeterStore.loadReceipts_addStoredBytes]
  uploads := by decide +kernel

/-- The owner sees the object in one listing and not in the other; an anonymous caller sees the same
answers. -/
theorem hidden_objects_unobservable_example :
    (closedServer.dispatch filledNamespace (some closedPolicy.did)
        (.listBlobs closedPolicy.did)).2 ≠
      (closedServer.dispatch emptyNamespace (some closedPolicy.did)
        (.listBlobs closedPolicy.did)).2 ∧
    (closedServer.dispatch filledNamespace none (.listBlobs closedPolicy.did)).2 =
      (closedServer.dispatch emptyNamespace none (.listBlobs closedPolicy.did)).2 := by
  refine ⟨?_, ?_⟩
  · rw [dispatch_listBlobs, dispatch_listBlobs]
    simp only [ne_eq, Except.ok.injEq, OpOutcome.blobList.injEq]
    decide +kernel
  · have hclosed : closedServer.resolvePolicy closedTable closedPolicy.did
        (some "ba7816bf8f01cfea414140de5dae2223b00361a396177a9cb410ff61f20015ad") =
          ⟨.owner, []⟩ := by decide +kernel
    refine (hidden_objects_unobservable closedServer closedPolicy.did closedObjects
      namespaces_differ none ?_).2.1
    rintro cid rfl
    rw [show filledNamespace.assertion = closedTable from rfl, hclosed]
    rfl

end Ciss
