import Ciss.Framework.Tally
import Ciss.Server.Quota

/-!
# Stored bytes under interleaving

Whether an upload is new is asked of the blob store in one section (`blobs.has`) and acted on in two
later ones: the blob is written, and its bytes are counted at the commit.  Two uploads of one
content by one DID can both be told that the content is new; the store then holds one blob and
counts it twice (`equal_uploads_counted_twice`).

The books are kept by a balance: stored bytes, plus the bytes of new blobs that are written and not
yet committed, less the bytes the blob store holds (`surplus`).  A section changes the balance in
one case only, a blob that was judged new and is written over itself (`recount`).  From this,
`stored_bytes_exact_iff`: at the end of a run without failures that leaves nothing in flight, the
stored bytes of every DID are exact if and only if no such write occurred.
-/

namespace Ciss

/-! ## Runs without failures -/

/-- The action is no failure: no section has a fault, and no cached row is lost. -/
def ObjectAction.succeeds : ObjectAction → Bool
  | .advance _ fault => fault = .none
  | .dropCache _ => false
  | _ => true

/-- Each blob that was judged new is written where no blob is; an empty one weighs nothing. -/
def freshWrite (S : ObjectServer) (w : ObjectWorld) : ObjectAction → Bool
  | .advance id _ =>
      match w.inFlight id with
      | some (.put did _ bytes (.write (some _))) =>
          bytes.bytes.isEmpty || (w.blobs (did, S.crypto.sha256Hex bytes.bytes)).isNone
      | _ => true
  | _ => true

/-- `freshWrite` as a condition on the steps of a run. -/
def FreshWrite (S : ObjectServer) (w : ObjectWorld) (a : ObjectAction) : Prop :=
  freshWrite S w a = true

instance (S : ObjectServer) (w : ObjectWorld) (a : ObjectAction) : Decidable (FreshWrite S w a) :=
  inferInstanceAs (Decidable (freshWrite S w a = true))

/-- The stored bytes of a DID are the sizes of the distinct blobs held for it. -/
def StoredExact (w : ObjectWorld) (did : String) : Prop :=
  ∃ cids : Finset String, (∀ cid, cid ∈ cids ↔ (w.blobs (did, cid)).isSome = true) ∧
    w.store.didStoredBytes did = ∑ cid ∈ cids, ((w.blobs (did, cid)).getD []).length

/-! ## The balance -/

/-- The bytes held at an address. -/
def sizeAt (blobs : Blobs) (did cid : String) : Nat := ((blobs (did, cid)).getD []).length

/-- The bytes of a new blob that is written and not yet committed. -/
def pendingOf (did : String) : Option InFlight → Nat
  | some (.put did' _ bytes (.commit (some _))) => if did' = did then bytes.bytes.length else 0
  | _ => 0

/-- The bytes held for a DID. -/
noncomputable def heldBytes (w : ObjectWorld) (did : String) : Nat := ∑ᶠ cid, sizeAt w.blobs did cid

/-- The bytes written for a DID and not yet counted. -/
noncomputable def pendingBytes (w : ObjectWorld) (did : String) : Nat :=
  ∑ᶠ id, pendingOf did (w.inFlight id)

/-- What is counted or about to be, beyond what is held. -/
noncomputable def surplus (w : ObjectWorld) (did : String) : Int :=
  w.store.didStoredBytes did + pendingBytes w did - heldBytes w did

/-- What a step counts again: the bytes of a blob that was judged new and is there already. -/
def recount (S : ObjectServer) (w : ObjectWorld) (did : String) : ObjectAction → Nat
  | .advance id _ =>
      match w.inFlight id with
      | some (.put did' _ bytes (.write (some _))) =>
          if did' = did ∧ (w.blobs (did', S.crypto.sha256Hex bytes.bytes)).isSome then
            bytes.bytes.length
          else 0
      | _ => 0
  | _ => 0

/-- What the books rest on: a blob is stored under its own digest, an upload that was told its blob
is there finds it there, and only finitely much is held or in flight. -/
structure Accounted (S : ObjectServer) (w : ObjectWorld) : Prop where
  addressed : ∀ did cid data, w.blobs (did, cid) = some data → S.crypto.sha256Hex data = cid
  deduped : ∀ id did key bytes, w.inFlight id = some (.put did key bytes (.write none)) →
    (w.blobs (did, S.crypto.sha256Hex bytes.bytes)).isSome = true
  finiteFlight : {id | w.inFlight id ≠ none}.Finite
  finiteBlobs : ∀ did, {cid | w.blobs (did, cid) ≠ none}.Finite

/-- What a section leaves in flight. -/
def Next.inFlight : Next → Option InFlight
  | .continue req => some req
  | .answer _ => none

section

variable {S : ObjectServer} {s s' : MeterStore} {blobs blobs' : Blobs} {w : ObjectWorld}
  {req : InFlight} {next : Next} {did did' : String}

/-- A section that leaves blobs, stored bytes and pending bytes alone. -/
structure Quiet (S : ObjectServer) (s : MeterStore) (blobs : Blobs) (req : InFlight)
    (s' : MeterStore) (blobs' : Blobs) (next : Next) : Prop where
  blobs_eq : blobs' = blobs
  stored : ∀ did, s'.didStoredBytes did = s.didStoredBytes did
  before : ∀ did, pendingOf did (some req) = 0
  after : ∀ did, pendingOf did next.inFlight = 0
  deduped : ∀ did key bytes, next = .continue (.put did key bytes (.write none)) →
    (blobs (did, S.crypto.sha256Hex bytes.bytes)).isSome = true
  noWrite : ∀ did key bytes read, req ≠ .put did key bytes (.write read)

lemma Quiet.answer (hstored : ∀ did, s'.didStoredBytes did = s.didStoredBytes did)
    (hbefore : ∀ did, pendingOf did (some req) = 0)
    (hwrite : ∀ did key bytes read, req ≠ .put did key bytes (.write read))
    (r : Except ServerError OpOutcome) : Quiet S s blobs req s' blobs (.answer r) :=
  ⟨rfl, hstored, hbefore, fun _ => rfl, by simp, hwrite⟩

/-- A section of an upload before its write. -/
lemma runSection_quiet_put {key : String} {bytes : Slice} {stage : PutStage}
    (hwrite : ∀ read, stage ≠ .write read) (hcommit : ∀ read, stage ≠ .commit read)
    (h : S.runSection s blobs .none (.put did key bytes stage) = (s', blobs', next)) :
    Quiet S s blobs (.put did key bytes stage) s' blobs' next := by
  have hw : ∀ did' key' bytes' read,
      InFlight.put did key bytes stage ≠ .put did' key' bytes' (.write read) := by
    intro did' key' bytes' read heq
    cases heq
    exact hwrite read rfl
  have hbefore : ∀ did', pendingOf did' (some (.put did key bytes stage)) = 0 := by
    intro did'
    rcases stage with _ | _ | _ | read | read | read
    all_goals first | rfl | exact absurd rfl (hcommit read)
  have hstore : (S.runSection s blobs .none (.put did key bytes stage)).1 = s :=
    runSection_put_store hcommit
  have hblobs : (S.runSection s blobs .none (.put did key bytes stage)).2.1 = blobs :=
    runSection_put_blobs hwrite
  rw [h] at hstore hblobs
  dsimp only at hstore hblobs
  rcases next with req' | result
  · obtain ⟨-, stage', rfl, hmoves⟩ := runSection_put_continue h
    refine ⟨hblobs, fun _ => by rw [hstore], hbefore, ?_, ?_, hw⟩
    · intro did'
      cases hmoves with
      | write read => exact absurd rfl (hwrite read)
      | _ => rfl
    · -- the blob store said that the blob is there
      intro did' key' bytes' hnext
      cases hnext
      cases hmoves with
      | known hsome => exact hsome
  · subst hstore hblobs
    exact Quiet.answer (fun _ => rfl) hbefore hw _

/-- **What a section does to the books.**  A write puts one blob into place, a commit counts a new
blob, and every other section is quiet. -/
lemma runSection_books (h : S.runSection s blobs .none req = (s', blobs', next)) :
    (∃ did key bytes read, req = .put did key bytes (.write read) ∧ s' = s ∧
      blobs' = Function.update blobs (did, S.crypto.sha256Hex bytes.bytes) (some bytes.bytes) ∧
      next = .continue (.put did key bytes (.commit read))) ∨
    (∃ did key bytes read, req = .put did key bytes (.commit read) ∧ blobs' = blobs ∧
      (∀ did', s'.didStoredBytes did' =
        s.didStoredBytes did' + if did = did' ∧ read.isSome then bytes.bytes.length else 0) ∧
      next.inFlight = none) ∨
    Quiet S s blobs req s' blobs' next := by
  rcases req with ⟨did, key, bytes, stage⟩ | ⟨did, cid⟩ | ⟨did, cid, data⟩ |
    ⟨did, contentHash, payload⟩
  · by_cases hwrite : ∃ read, stage = .write read
    · obtain ⟨read, rfl⟩ := hwrite
      simp only [ObjectServer.runSection, ne_eq, not_true_eq_false, if_false, Prod.mk.injEq] at h
      obtain ⟨rfl, rfl, rfl⟩ := h
      exact Or.inl ⟨did, key, bytes, read, rfl, rfl, rfl, rfl⟩
    by_cases hcommit : ∃ read, stage = .commit read
    · obtain ⟨read, rfl⟩ := hcommit
      simp only [ObjectServer.runSection, ObjectServer.commitPut, Prod.mk.injEq] at h
      obtain ⟨rfl, rfl, rfl⟩ := h
      refine Or.inr (Or.inl ⟨did, key, bytes, read, rfl, rfl, ?_, rfl⟩)
      intro did'
      rw [MeterStore.didStoredBytes_appendReceipt]
      rcases read with _ | read
      · simp
      · simp only [Option.isSome_some, if_true, and_true]
        rw [MeterStore.didStoredBytes_addStoredBytes]
        by_cases hdid : did' = did
        · rw [if_pos hdid, if_pos hdid.symm]
        · rw [if_neg hdid, if_neg (fun heq => hdid heq.symm)]
          rfl
    · exact Or.inr (Or.inr (runSection_quiet_put (fun read heq => hwrite ⟨read, heq⟩)
        (fun read heq => hcommit ⟨read, heq⟩) h))
  · refine Or.inr (Or.inr ?_)
    have hw : ∀ did' key bytes read, InFlight.fetch did cid ≠ .put did' key bytes (.write read) := by
      simp
    simp only [ObjectServer.runSection, ne_eq, not_true_eq_false, if_false] at h
    split at h
    · simp only [Prod.mk.injEq] at h
      obtain ⟨rfl, rfl, rfl⟩ := h
      exact Quiet.answer (fun _ => rfl) (fun _ => rfl) hw _
    · split_ifs at h
      · simp only [Prod.mk.injEq] at h
        obtain ⟨rfl, rfl, rfl⟩ := h
        exact Quiet.answer (fun _ => rfl) (fun _ => rfl) hw _
      · simp only [Prod.mk.injEq] at h
        obtain ⟨rfl, rfl, rfl⟩ := h
        exact ⟨rfl, fun _ => rfl, fun _ => rfl, fun _ => rfl, by simp, hw⟩
      · simp only [Prod.mk.injEq] at h
        obtain ⟨rfl, rfl, rfl⟩ := h
        exact Quiet.answer (fun _ => rfl) (fun _ => rfl) hw _
  · refine Or.inr (Or.inr ?_)
    simp only [ObjectServer.runSection, ObjectServer.commitGet, Prod.mk.injEq] at h
    obtain ⟨rfl, rfl, rfl⟩ := h
    exact Quiet.answer (fun did' => MeterStore.didStoredBytes_appendReceipt _) (fun _ => rfl)
      (by simp) _
  · refine Or.inr (Or.inr ?_)
    simp only [ObjectServer.runSection, Prod.mk.injEq] at h
    obtain ⟨rfl, rfl, rfl⟩ := h
    refine Quiet.answer ?_ (fun _ => rfl) (by simp) _
    intro did'
    rcases countersign_store did contentHash payload with heq | ⟨sig, heq⟩
    · rw [heq]
    · rw [heq]
      unfold MeterStore.didStoredBytes MeterStore.totalRow
      rw [MeterStore.didTotal_countersignReceipt]

/-! ## Steps -/

lemma step_advance_eq {id : Nat} {fault : Fault} (hreq : w.inFlight id = some req)
    (hsec : S.runSection w.store w.blobs fault req = (s', blobs', next)) :
    (S.step w (.advance id fault)).store = s' ∧ (S.step w (.advance id fault)).blobs = blobs' ∧
      (S.step w (.advance id fault)).inFlight = Function.update w.inFlight id next.inFlight := by
  simp only [ObjectServer.step, hreq, hsec]
  rcases next with req' | result
  · exact ⟨rfl, rfl, rfl⟩
  · exact ⟨rfl, rfl, rfl⟩

lemma Accounted.finite_pending (h : Accounted S w) (did : String) :
    (Function.support fun id => pendingOf did (w.inFlight id)).Finite := by
  refine h.finiteFlight.subset ?_
  intro id hid hnone
  rw [Function.mem_support, hnone] at hid
  exact hid rfl

lemma Accounted.finite_sizes (h : Accounted S w) (did : String) :
    (Function.support (sizeAt w.blobs did)).Finite := by
  refine (h.finiteBlobs did).subset ?_
  intro cid hcid hnone
  rw [Function.mem_support, sizeAt, hnone] at hcid
  exact hcid rfl

/-- The pending bytes after one request moved on. -/
lemma pendingBytes_update (h : Accounted S w) {w' : ObjectWorld} {id : Nat} {x : Option InFlight}
    (hw' : w'.inFlight = Function.update w.inFlight id x) (did : String) :
    pendingBytes w' did + pendingOf did (w.inFlight id) = pendingBytes w did + pendingOf did x := by
  have hfun : (fun i => pendingOf did (w'.inFlight i)) =
      Function.update (fun i => pendingOf did (w.inFlight i)) id (pendingOf did x) := by
    funext i
    rw [hw']
    by_cases hi : i = id
    · rw [hi, Function.update_self, Function.update_self]
    · rw [Function.update_of_ne hi, Function.update_of_ne hi]
  unfold pendingBytes
  rw [hfun]
  exact finsum_update_add (h.finite_pending did) id (pendingOf did x)

/-- The bytes held after a write. -/
lemma heldBytes_write (h : Accounted S w) {w' : ObjectWorld} {data : Bytes} {cid : String}
    (hw' : w'.blobs = Function.update w.blobs (did, cid) (some data)) (did' : String) :
    heldBytes w' did' + (if did = did' then sizeAt w.blobs did cid else 0) =
      heldBytes w did' + if did = did' then data.length else 0 := by
  unfold heldBytes
  by_cases hdid : did = did'
  · subst hdid
    have hfun : sizeAt w'.blobs did = Function.update (sizeAt w.blobs did) cid data.length := by
      funext c
      unfold sizeAt
      rw [hw']
      by_cases hc : c = cid
      · rw [hc, Function.update_self, Function.update_self]
        rfl
      · rw [Function.update_of_ne (by simp [hc]), Function.update_of_ne hc]
    rw [if_pos rfl, if_pos rfl, hfun]
    exact finsum_update_add (h.finite_sizes did) cid data.length
  · have hfun : sizeAt w'.blobs did' = sizeAt w.blobs did' := by
      funext c
      unfold sizeAt
      rw [hw', Function.update_of_ne]
      intro heq
      exact hdid (congrArg Prod.fst heq).symm
    rw [if_neg hdid, if_neg hdid, hfun]

lemma heldBytes_congr {w' : ObjectWorld} (h : w'.blobs = w.blobs) (did : String) :
    heldBytes w' did = heldBytes w did := by
  unfold heldBytes
  rw [h]

lemma Accounted.init (S : ObjectServer) : Accounted S ObjectWorld.init := by
  refine ⟨?_, ?_, ?_, ?_⟩
  · intro did cid data hdata
    cases hdata
  · intro id did key bytes hid
    cases hid
  · simp [ObjectWorld.init]
  · simp [ObjectWorld.init]

/-- An update at one request leaves finitely many in flight. -/
lemma finite_flight_update (h : {id | w.inFlight id ≠ none}.Finite) (id : Nat)
    (x : Option InFlight) : {i | Function.update w.inFlight id x i ≠ none}.Finite := by
  refine (h.insert id).subset ?_
  intro i hi
  by_cases hid : i = id
  · exact Or.inl hid
  · refine Or.inr ?_
    rwa [Set.mem_ofPred_eq, Function.update_of_ne hid] at hi

/-- One request moves on while the blob store only grows. -/
lemma Accounted.moveOn (h : Accounted S w) {w' : ObjectWorld} {id : Nat} {x : Option InFlight}
    (hflight : w'.inFlight = Function.update w.inFlight id x)
    (hgrows : ∀ k, (w.blobs k).isSome = true → (w'.blobs k).isSome = true)
    (haddressed : ∀ did cid data, w'.blobs (did, cid) = some data → S.crypto.sha256Hex data = cid)
    (hfinite : ∀ did, {cid | w'.blobs (did, cid) ≠ none}.Finite)
    (hx : ∀ did key bytes, x = some (.put did key bytes (.write none)) →
      (w'.blobs (did, S.crypto.sha256Hex bytes.bytes)).isSome = true) :
    Accounted S w' := by
  refine ⟨haddressed, ?_, ?_, hfinite⟩
  · intro id' did key bytes hid
    rw [hflight] at hid
    by_cases hsame : id' = id
    · rw [hsame, Function.update_self] at hid
      exact hx did key bytes hid
    · rw [Function.update_of_ne hsame] at hid
      exact hgrows _ (h.deduped id' did key bytes hid)
  · rw [hflight]
    exact finite_flight_update h.finiteFlight id x

/-- A step keeps what the books rest on: blobs are written under their digest and never removed. -/
lemma Accounted.step (h : Accounted S w) {a : ObjectAction} (hok : a.succeeds = true) :
    Accounted S (S.step w a) := by
  rcases a with ⟨id, request⟩ | ⟨id, fault⟩ | ⟨did, dials⟩ | did
  · simp only [ObjectServer.step]
    split
    · exact h
    · refine h.moveOn rfl (fun _ hk => hk) h.addressed h.finiteBlobs ?_
      intro did key bytes hx
      rcases request with _ | _ | _
      all_goals cases hx
  · obtain rfl : fault = .none := by simpa [ObjectAction.succeeds] using hok
    rcases hreq : w.inFlight id with _ | req
    · have hsame : S.step w (.advance id .none) = w := by simp only [ObjectServer.step, hreq]
      rw [hsame]
      exact h
    rcases hsec : S.runSection w.store w.blobs .none req with ⟨s', blobs', next⟩
    obtain ⟨-, hblobs, hflight⟩ := step_advance_eq hreq hsec
    rcases runSection_books hsec with ⟨did, key, bytes, read, rfl, -, hwrite, hnext⟩ |
      ⟨did, key, bytes, read, rfl, hsame, -, hnext⟩ | hquiet
    · rw [hwrite] at hblobs
      refine h.moveOn hflight ?_ ?_ ?_ ?_
      · intro k hk
        rw [hblobs]
        by_cases hkey : k = (did, S.crypto.sha256Hex bytes.bytes)
        · rw [hkey, Function.update_self]
          rfl
        · rwa [Function.update_of_ne hkey]
      · intro did' cid data hdata
        rw [hblobs] at hdata
        by_cases hkey : (did', cid) = (did, S.crypto.sha256Hex bytes.bytes)
        · rw [hkey, Function.update_self] at hdata
          cases hdata
          exact (congrArg Prod.snd hkey).symm
        · rw [Function.update_of_ne hkey] at hdata
          exact h.addressed did' cid data hdata
      · intro did'
        rw [hblobs]
        refine ((h.finiteBlobs did').insert (S.crypto.sha256Hex bytes.bytes)).subset ?_
        intro cid hcid
        by_cases hsame : cid = S.crypto.sha256Hex bytes.bytes
        · exact Or.inl hsame
        · refine Or.inr ?_
          rwa [Set.mem_ofPred_eq, Function.update_of_ne (by simp [hsame])] at hcid
      · intro did' key' bytes' hx
        rw [hnext] at hx
        cases hx
    · rw [hsame] at hblobs
      refine h.moveOn hflight ?_ ?_ ?_ ?_
      · rw [hblobs]
        exact fun _ hk => hk
      · rw [hblobs]
        exact h.addressed
      · rw [hblobs]
        exact h.finiteBlobs
      · intro did' key' bytes' hx
        rw [hnext] at hx
        cases hx
    · rw [hquiet.blobs_eq] at hblobs
      refine h.moveOn hflight ?_ ?_ ?_ ?_
      · rw [hblobs]
        exact fun _ hk => hk
      · rw [hblobs]
        exact h.addressed
      · rw [hblobs]
        exact h.finiteBlobs
      · intro did' key' bytes' hx
        rw [hblobs]
        rcases next with req' | result
        · exact hquiet.deduped did' key' bytes' (congrArg Next.continue (Option.some.inj hx))
        · cases hx
  · exact ⟨h.addressed, h.deduped, h.finiteFlight, h.finiteBlobs⟩
  · cases hok

/-- A step that moves no request and no blob keeps the balance. -/
lemma surplus_congr {w' : ObjectWorld} (hstored : w'.store.didStoredBytes did =
    w.store.didStoredBytes did) (hblobs : w'.blobs = w.blobs)
    (hpending : pendingBytes w' did = pendingBytes w did) : surplus w' did = surplus w did := by
  unfold surplus
  rw [hstored, hpending, heldBytes_congr hblobs]

/-- The write of a blob.  Over a blob that is there it changes nothing held, the contents being
equal; where there is none the upload was judged new, and what is held grows by what is pending. -/
lemma surplus_write (hinj : Function.Injective S.crypto.sha256Hex) (h : Accounted S w)
    {w' : ObjectWorld} {id : Nat} {d key : String} {bytes : Slice} {read : Option Usage}
    {fault : Fault} (hreq : w.inFlight id = some (.put d key bytes (.write read)))
    (hstore : w'.store = w.store)
    (hblobs : w'.blobs = Function.update w.blobs (d, S.crypto.sha256Hex bytes.bytes)
      (some bytes.bytes))
    (hflight : w'.inFlight = Function.update w.inFlight id
      (some (.put d key bytes (.commit read)))) (did : String) :
    surplus w' did = surplus w did + recount S w did (.advance id fault) := by
  have hpending := pendingBytes_update h hflight did
  have hheld := heldBytes_write h hblobs did
  have hbefore : pendingOf did (w.inFlight id) = 0 := by
    rw [hreq]
    rfl
  rw [hbefore] at hpending
  unfold surplus
  rw [hstore]
  rcases hblob : w.blobs (d, S.crypto.sha256Hex bytes.bytes) with _ | data
  · rcases read with _ | read
    · have hdedup := h.deduped id d key bytes hreq
      rw [hblob] at hdedup
      cases hdedup
    · have hzero : recount S w did (.advance id fault) = 0 := by
        simp [recount, hreq, hblob]
      have hsize : sizeAt w.blobs d (S.crypto.sha256Hex bytes.bytes) = 0 := by
        rw [sizeAt, hblob]
        rfl
      rw [hsize] at hheld
      rw [hzero]
      simp only [pendingOf] at hpending
      split_ifs at hheld hpending
      · omega
      · omega
  · have hdata : data = bytes.bytes := hinj (h.addressed d _ data hblob)
    have hsize : sizeAt w.blobs d (S.crypto.sha256Hex bytes.bytes) = bytes.bytes.length := by
      rw [sizeAt, hblob, hdata]
      rfl
    have hheld' : heldBytes w' did = heldBytes w did := by
      rw [hsize] at hheld
      omega
    have hcount : recount S w did (.advance id fault) =
        pendingOf did (some (.put d key bytes (.commit read))) := by
      rcases read with _ | read
      · simp [recount, hreq, pendingOf]
      · simp [recount, hreq, pendingOf, hblob]
    rw [hheld', hcount]
    omega

/-- The commit of a new blob moves its bytes from pending to stored. -/
lemma surplus_commit (h : Accounted S w) {w' : ObjectWorld} {id : Nat} {d key : String}
    {bytes : Slice} {read : Option Usage}
    (hreq : w.inFlight id = some (.put d key bytes (.commit read)))
    (hstored : w'.store.didStoredBytes did = w.store.didStoredBytes did +
      if d = did ∧ read.isSome then bytes.bytes.length else 0)
    (hblobs : w'.blobs = w.blobs)
    (hflight : w'.inFlight = Function.update w.inFlight id none) :
    surplus w' did = surplus w did := by
  have hpending := pendingBytes_update h hflight did
  rw [hreq] at hpending
  have hmoved : pendingOf did (some (.put d key bytes (.commit read))) =
      if d = did ∧ read.isSome then bytes.bytes.length else 0 := by
    rcases read with _ | read
    · simp [pendingOf]
    · simp [pendingOf]
  have hnone : pendingOf did none = 0 := rfl
  rw [hmoved, hnone] at hpending
  unfold surplus
  rw [hstored, heldBytes_congr hblobs]
  omega

/-- **One step of the books.**  The balance changes by what the step counts again. -/
lemma surplus_step (hinj : Function.Injective S.crypto.sha256Hex) (h : Accounted S w)
    {a : ObjectAction} (hok : a.succeeds = true) (did : String) :
    surplus (S.step w a) did = surplus w did + recount S w did a := by
  rcases a with ⟨id, request⟩ | ⟨id, fault⟩ | ⟨did', dials⟩ | did'
  · have hzero : recount S w did (.start id request) = 0 := rfl
    rw [hzero, Int.natCast_zero, add_zero]
    rcases hreq : w.inFlight id with _ | req
    · have hflight : (S.step w (.start id request)).inFlight =
          Function.update w.inFlight id (some request.start) := by
        simp only [ObjectServer.step, hreq]
      have hblobs : (S.step w (.start id request)).blobs = w.blobs := by
        simp only [ObjectServer.step, hreq]
      have hpending := pendingBytes_update h hflight did
      have hnew : pendingOf did (some request.start) = 0 := by
        rcases request with _ | _ | _
        all_goals rfl
      rw [hreq, hnew] at hpending
      exact surplus_congr (by rw [step_start_store]) hblobs hpending
    · have hsame : S.step w (.start id request) = w := by simp only [ObjectServer.step, hreq]
      rw [hsame]
  · obtain rfl : fault = .none := by simpa [ObjectAction.succeeds] using hok
    rcases hreq : w.inFlight id with _ | req
    · have hsame : S.step w (.advance id .none) = w := by simp only [ObjectServer.step, hreq]
      have hzero : recount S w did (.advance id .none) = 0 := by simp only [recount, hreq]
      rw [hsame, hzero, Int.natCast_zero, add_zero]
    rcases hsec : S.runSection w.store w.blobs .none req with ⟨s', blobs', next⟩
    obtain ⟨hstore, hblobs, hflight⟩ := step_advance_eq hreq hsec
    rcases runSection_books hsec with ⟨d, key, bytes, read, rfl, hsame, hwrite, hnext⟩ |
      ⟨d, key, bytes, read, rfl, hsame, hstored, hnext⟩ | hquiet
    · rw [hwrite] at hblobs
      rw [hnext] at hflight
      exact surplus_write hinj h hreq (hstore.trans hsame) hblobs hflight did
    · have hzero : recount S w did (.advance id .none) = 0 := by simp only [recount, hreq]
      rw [hzero, Int.natCast_zero, add_zero]
      rw [hnext] at hflight
      refine surplus_commit h hreq ?_ (hblobs.trans hsame) hflight
      rw [hstore]
      exact hstored did
    · have hzero : recount S w did (.advance id .none) = 0 := by
        simp only [recount, hreq]
        split
        · rename_i heq
          cases heq
          exact absurd rfl (hquiet.noWrite _ _ _ _)
        · rfl
      rw [hzero, Int.natCast_zero, add_zero]
      have hpending := pendingBytes_update h hflight did
      rw [hreq, hquiet.before did, hquiet.after did] at hpending
      refine surplus_congr ?_ (hblobs.trans hquiet.blobs_eq) hpending
      rw [hstore]
      exact hquiet.stored did
  · simp [recount, surplus, pendingBytes, heldBytes, ObjectServer.step, MeterStore.didStoredBytes,
      MeterStore.totalRow]
  · cases hok

/-! ## Runs -/

/-- What the steps of a run count again. -/
def recounts (S : ObjectServer) (did : String) : ObjectWorld → List ObjectAction → Nat
  | _, [] => 0
  | w, a :: acts => recount S w did a + recounts S did (S.step w a) acts

lemma surplus_run (hinj : Function.Injective S.crypto.sha256Hex) {acts : List ObjectAction}
    (hok : ∀ a ∈ acts, a.succeeds = true) (h : Accounted S w) (did : String) :
    surplus (run S.step w acts) did = surplus w did + recounts S did w acts := by
  induction acts generalizing w with
  | nil => simp [recounts]
  | cons a acts ih =>
      have ha : a.succeeds = true := hok a (by simp)
      rw [run_cons, ih (fun b hb => hok b (by simp [hb])) (h.step ha), surplus_step hinj h ha]
      simp only [recounts]
      push_cast
      omega

lemma freshWrite_iff (S : ObjectServer) (w : ObjectWorld) (a : ObjectAction) :
    FreshWrite S w a ↔ ∀ did, recount S w did a = 0 := by
  unfold FreshWrite freshWrite recount
  rcases a with ⟨id, request⟩ | ⟨id, fault⟩ | ⟨did, dials⟩ | did
  · simp
  · dsimp only
    split
    · rename_i did key bytes read _
      rcases hblob : w.blobs (did, S.crypto.sha256Hex bytes.bytes) with _ | data
      · simp
      · simp only [Option.isNone_some, Bool.or_false, List.isEmpty_iff, Option.isSome_some,
          and_true]
        constructor
        · intro hempty did'
          rw [hempty]
          simp
        · intro hzero
          have hlen := hzero did
          rw [if_pos rfl] at hlen
          exact List.length_eq_zero_iff.mp hlen
    · simp
  · simp
  · simp

lemma along_freshWrite_iff (S : ObjectServer) (w : ObjectWorld) (acts : List ObjectAction) :
    Along S.step (FreshWrite S) w acts ↔ ∀ did, recounts S did w acts = 0 := by
  induction acts generalizing w with
  | nil => simp [recounts]
  | cons a acts ih =>
      rw [along_cons, ih, freshWrite_iff]
      simp only [recounts, Nat.add_eq_zero_iff]
      exact forall_and.symm

/-- With nothing in flight, exact books are balanced books. -/
lemma storedExact_iff (h : Accounted S w) (hquiet : ∀ id, w.inFlight id = none) (did : String) :
    StoredExact w did ↔ surplus w did = 0 := by
  have hpending : pendingBytes w did = 0 := by
    unfold pendingBytes
    simp [hquiet, pendingOf]
  have hheld : ∀ cids : Finset String, (∀ cid, cid ∈ cids ↔ (w.blobs (did, cid)).isSome = true) →
      heldBytes w did = ∑ cid ∈ cids, ((w.blobs (did, cid)).getD []).length := by
    intro cids hcids
    refine finsum_eq_sum_of_mem ?_
    intro cid hcid
    rw [hcids, Option.not_isSome_iff_eq_none] at hcid
    rw [sizeAt, hcid]
    rfl
  unfold surplus
  rw [hpending]
  constructor
  · rintro ⟨cids, hcids, hstored⟩
    rw [hstored, hheld cids hcids]
    omega
  · intro hzero
    have hcids : ∀ cid, cid ∈ (h.finiteBlobs did).toFinset ↔ (w.blobs (did, cid)).isSome = true := by
      intro cid
      rw [Set.Finite.mem_toFinset, Set.mem_ofPred_eq, Option.isSome_iff_ne_none]
    refine ⟨(h.finiteBlobs did).toFinset, hcids, ?_⟩
    rw [← hheld _ hcids]
    omega

/-- The books of one DID after a run that leaves nothing in flight. -/
lemma storedExact_run_iff (hinj : Function.Injective S.crypto.sha256Hex) {acts : List ObjectAction}
    (hok : ∀ a ∈ acts, a.succeeds = true)
    (hquiet : ∀ id, (run S.step ObjectWorld.init acts).inFlight id = none) (did : String) :
    StoredExact (run S.step ObjectWorld.init acts) did ↔
      recounts S did ObjectWorld.init acts = 0 := by
  have hinv : Accounted S (run S.step ObjectWorld.init acts) := by
    refine run_invariant (P := fun _ a => a.succeeds = true) (fun w a h ha => h.step ha)
      (Accounted.init S) ?_
    exact along_of_take fun k a hk => hok a (List.mem_of_getElem? hk)
  have hzero : surplus ObjectWorld.init did = 0 := by
    simp [surplus, pendingBytes, heldBytes, ObjectWorld.init, pendingOf, sizeAt,
      MeterStore.didStoredBytes, MeterStore.totalRow, MeterStore.empty]
  rw [storedExact_iff hinv hquiet, surplus_run hinj hok (Accounted.init S), hzero]
  omega

end

/-- **Exact stored bytes.**  After a run without failures that leaves nothing in flight, the stored
bytes of every DID are the sizes of its distinct blobs, exactly if every blob that was judged new
was written where no blob was. -/
theorem stored_bytes_exact_iff (S : ObjectServer) (hinj : Function.Injective S.crypto.sha256Hex)
    (acts : List ObjectAction) (hok : ∀ a ∈ acts, a.succeeds = true)
    (hquiet : ∀ id, (run S.step ObjectWorld.init acts).inFlight id = none) :
    (∀ did, StoredExact (run S.step ObjectWorld.init acts) did) ↔
      Along S.step (FreshWrite S) ObjectWorld.init acts := by
  rw [along_freshWrite_iff]
  exact forall_congr' fun did => storedExact_run_iff hinj hok hquiet did

/-! ### One content uploaded twice

A server with real digests and the provider's real signatures, and a DID that uploads the three
bytes `abc` twice. -/

/-- The canonical bytes of a receipt for the upload of `abc`. -/
def sampleReceipt (runningTotal : Nat) (mode : AccountMode) : Bytes :=
  (ReceiptCore.new .upload "ba7816bf8f01cfea414140de5dae2223b00361a396177a9cb410ff61f20015ad"
    (0, 3) runningTotal 0 mode "id:fe812c12f3ab4ce6ac5db69ac352f906cb1b11ef43fb33e252ef7ff552263889"
    "did:plc:ewvi7nxzyoun6zhxrhs64oiz").toCanonicalBytes

/-- The digests the server computes. -/
def sampleDigests : List (Bytes × String) :=
  [(asBytes "abc", "ba7816bf8f01cfea414140de5dae2223b00361a396177a9cb410ff61f20015ad"),
    (sampleReceipt 3 .active, "859038722f94bce726d5ada92991be904ab1b58b03c3830249e173bf7ca4da88"),
    (sampleReceipt 6 .active, "aaca2f3f7eb137423dddf162979b9ba8bd7b1b3b6485afa0ff14269ba7ade7f8"),
    (sampleReceipt 3 .drawdown, "cbbfae676b4ffddd4cbea982bf039e774bad0249432828a1853d65799cf6ed20")]

/-- The provider's signatures over the receipts' content hashes. -/
def sampleSignatures : List (Bytes × Bytes) :=
  [(asBytes "859038722f94bce726d5ada92991be904ab1b58b03c3830249e173bf7ca4da88",
      (hexDecode
        "2ec1be51b44631221e12444253712520981a43d0192ca030637a16a52f31677b3cde290a0a5f18380883b81357c5410413a73120123707e16fcca503d7e1df0d").getD
        []),
    (asBytes "aaca2f3f7eb137423dddf162979b9ba8bd7b1b3b6485afa0ff14269ba7ade7f8",
      (hexDecode
        "f7d0643a62e60e1854fc1df6a6ec130557021575813efa32f87e6ceaf2dda76a32cf8103644816460212858c531ecd29046bdba767f19aebe7cc2215bbf8a702").getD
        []),
    (asBytes "cbbfae676b4ffddd4cbea982bf039e774bad0249432828a1853d65799cf6ed20",
      (hexDecode
        "4abc440bc92d6198ad8e968316059ae03deb742da89a920c9659f86dacf5d36c28366c4d776dc5328fb75424d75470af24df4b722ab30d9e97028e7f99cf7201").getD
        [])]

/-- A server whose libraries answer from these tables. -/
def abcServer : ObjectServer where
  crypto :=
    { sha256Hex := tabulatedHash sampleDigests
      isPublicKey := fun bytes => bytes = raceKey.toBytes
      verifyStrict := fun key message sig =>
        key = raceKey ∧ sampleSignatures.lookup message = some sig }
  provider :=
    { id := "id:fe812c12f3ab4ce6ac5db69ac352f906cb1b11ef43fb33e252ef7ff552263889"
      keypair := ⟨raceKey, fun message => (sampleSignatures.lookup message).getD []⟩ }
  limits := ⟨1000, none⟩
  day := 0
  parseCountersign := fun _ => none

/-- The upload of `abc`. -/
def sampleUpload : ObjectRequest := raceUpload "abc" abc_fits

/-- One upload after the other: the second finds the blob. -/
def uploadsInTurn : List ObjectAction :=
  .start 1 sampleUpload :: sections 1 6 ++ .start 2 sampleUpload :: sections 2 4

/-- Both uploads ask for the blob before either writes it. -/
def uploadsAtOnce : List ObjectAction :=
  [.start 1 sampleUpload, .start 2 sampleUpload] ++
    (sections 1 4 ++ sections 2 4 ++ sections 1 2 ++ sections 2 2)

lemma abcServer_injective : Function.Injective abcServer.crypto.sha256Hex :=
  tabulatedHash_injective (by decide +kernel)

/-- The request an action moves. -/
def ObjectAction.request : ObjectAction → Option Nat
  | .start id _ | .advance id _ => some id
  | _ => none

/-- A request that no action moves stays as it is. -/
lemma inFlight_of_not_moved {S : ObjectServer} {w : ObjectWorld} {id : Nat}
    {acts : List ObjectAction} (h : ∀ a ∈ acts, a.request ≠ some id) :
    (run S.step w acts).inFlight id = w.inFlight id := by
  induction acts generalizing w with
  | nil => rfl
  | cons a acts ih =>
      rw [run_cons, ih fun b hb => h b (by simp [hb])]
      have ha := h a (by simp)
      rcases a with ⟨id', request⟩ | ⟨id', fault⟩ | ⟨did, dials⟩ | did
      · have hne : id ≠ id' := fun heq => ha (by rw [heq]; rfl)
        simp only [ObjectServer.step]
        split
        · rfl
        · exact Function.update_of_ne hne ..
      · have hne : id ≠ id' := fun heq => ha (by rw [heq]; rfl)
        rcases hreq : w.inFlight id' with _ | req
        · simp only [ObjectServer.step, hreq]
        · rcases hsec : S.runSection w.store w.blobs fault req with ⟨s', blobs', next⟩
          rw [(step_advance_eq hreq hsec).2.2]
          exact Function.update_of_ne hne ..
      · rfl
      · rfl

/-- Nothing is in flight once every request that was moved is done. -/
lemma inFlight_eq_none_of_done {S : ObjectServer} {acts : List ObjectAction} {ids : List Nat}
    (hmoved : ∀ a ∈ acts, ∀ i, a.request = some i → i ∈ ids)
    (hdone : ∀ i ∈ ids, ((run S.step ObjectWorld.init acts).inFlight i).isNone = true) (id : Nat) :
    (run S.step ObjectWorld.init acts).inFlight id = none := by
  by_cases hid : id ∈ ids
  · exact Option.isNone_iff_eq_none.mp (hdone id hid)
  · rw [inFlight_of_not_moved fun a ha heq => hid (hmoved a ha id heq)]
    rfl

theorem stored_bytes_exact_iff_example :
    (run abcServer.step ObjectWorld.init uploadsInTurn).store.didStoredBytes
        "did:plc:ewvi7nxzyoun6zhxrhs64oiz" = 3 ∧
      ∀ did, StoredExact (run abcServer.step ObjectWorld.init uploadsInTurn) did := by
  have hmoved : ∀ a ∈ uploadsInTurn, ∀ i, a.request = some i → i ∈ [1, 2] := by decide +kernel
  refine ⟨by decide +kernel, ?_⟩
  refine (stored_bytes_exact_iff abcServer abcServer_injective uploadsInTurn
    (by decide +kernel) ?_).mpr (by decide +kernel)
  exact inFlight_eq_none_of_done hmoved (by decide +kernel)

/-- Two uploads of one content at once: the one blob of three bytes is counted as six. -/
theorem equal_uploads_counted_twice :
    ¬ ∀ S : ObjectServer, Function.Injective S.crypto.sha256Hex → ∀ acts : List ObjectAction,
      (∀ a ∈ acts, a.succeeds = true) →
      (∀ id, (run S.step ObjectWorld.init acts).inFlight id = none) →
        ∀ did, StoredExact (run S.step ObjectWorld.init acts) did := by
  intro h
  have hok : ∀ a ∈ uploadsAtOnce, a.succeeds = true := by decide +kernel
  have hmoved : ∀ a ∈ uploadsAtOnce, ∀ i, a.request = some i → i ∈ [1, 2] := by decide +kernel
  have hquiet : ∀ id, (run abcServer.step ObjectWorld.init uploadsAtOnce).inFlight id = none :=
    inFlight_eq_none_of_done hmoved (by decide +kernel)
  have hexact := h abcServer abcServer_injective uploadsAtOnce hok hquiet
    "did:plc:ewvi7nxzyoun6zhxrhs64oiz"
  rw [storedExact_run_iff abcServer_injective hok hquiet] at hexact
  exact absurd hexact (by decide +kernel)

end Ciss
