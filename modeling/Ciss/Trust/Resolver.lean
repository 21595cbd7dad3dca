import Ciss.Server.Objects
import Ciss.Server.ServiceAuth

/-!
# Resolving the key behind a token

The key a token is verified under comes from a stack of resolvers: pinned DIDs are answered from
the configuration, every other DID from a cache and, behind it, from the DID document its method
points to.  Verifications run side by side on one cache and one replay guard, and wait for the
network in between; `AuthNode.step` lets any of them take its next step.

Two results follow a verification through all the others.  `granted_under_fresh_key`: whoever is
granted holds a token signed by a pinned key or by one that the DID's document showed less than
the cache's lifetime before the key was looked up.  `guard_is_sequential`: the guard and its answers
are those of the verifications one after the other, in the order in which they reached the guard.
-/

namespace Ciss

/-! ## Documents -/

/-- Why a DID was not resolved. -/
inductive ResolveError where
  | notFound
  | timeout
  | badDocument
  | unsupportedKeyType
  | unsupportedMethod
  | transport
  deriving DecidableEq, Repr

/-- A verification method of a DID document. -/
structure VerificationMethod where
  id : String
  keyType : String
  publicKeyMultibase : String
  deriving DecidableEq, Repr

/-- What is read of a DID document. -/
structure DidDocument where
  id : String
  verificationMethod : List VerificationMethod
  deriving DecidableEq, Repr

/-- The atproto signing key in a document, if it is the document of `did`. -/
def signingKeyFromDoc (did : String) (doc : DidDocument) : Except ResolveError String :=
  if doc.id ≠ did then .error .badDocument
  else
    match doc.verificationMethod.find? fun m => "#atproto".toList.isSuffixOf m.id.toList with
    | none => .error .badDocument
    | some method =>
        if method.keyType = "Multikey" then
          let mb := method.publicKeyMultibase
          if (asBytes mb).length < 2 ∨ ¬ "z".toList.isPrefixOf mb.toList then .error .badDocument
          else .ok (String.join ["did:key:", mb])
        else .error .unsupportedKeyType

/-- The URL of a DID's document. -/
def docUrl (plcBaseUrl did : String) : Except ResolveError String :=
  if "did:plc:".toList.isPrefixOf did.toList then .ok (String.join [plcBaseUrl, "/", did])
  else
    match List.isPrefixOf? "did:web:".toList did.toList with
    | none => .error .unsupportedMethod
    | some host =>
        if host.isEmpty ∨ ':' ∈ host ∨ '/' ∈ host then .error .unsupportedMethod
        else .ok (String.join ["https://", String.ofList host, "/.well-known/did.json"])

/-! ## The node -/

/-- What the verifications of a server share and does not change. -/
structure AuthNode where
  server : AuthServer
  /-- The baked-in keys. -/
  pinned : String → Option String
  plcBaseUrl : String
  ttlMs : Nat
  /-- The JSON text of a document. -/
  parseDoc : String → Option DidDocument

/-- A resolution kept in the cache. -/
structure CacheEntry where
  expiresAtMs : Nat
  keys : String
  deriving DecidableEq, Repr

/-- The shared state. -/
structure AuthShared where
  cache : Std.ExtTreeMap String CacheEntry compare
  hits : Nat
  misses : Nat
  replay : ReplayGuard

/-- How far a resolution has come; `force` is set when it is to go past the cache. -/
inductive ResolveStep where
  | asked (force : Bool)
  /-- The clock has been read. -/
  | lookingUp (force : Bool) (nowMs : Nat)
  /-- Waiting for the document. -/
  | fetching (force : Bool) (nowMs : Nat) (url : String)
  /-- Resolved over the network, to be cached. -/
  | storing (force : Bool) (nowMs : Nat) (keys : String)
  | resolved (force : Bool) (keys : String)
  deriving DecidableEq, Repr

/-- How far a verification has come. -/
inductive AuthPhase where
  | arrived
  | verifying (params : ServiceAuthParams) (resolve : ResolveStep)
  /-- Verified under `keys`, the replay guard is next. -/
  | checking (params : ServiceAuthParams) (keys : String) (verified : Verified)
  | answered (principal : Principal) (jti : Option String)
  deriving DecidableEq, Repr

/-- One run of `verify_service_auth_full`. -/
structure AuthTask where
  jwt : String
  lxm : String
  phase : AuthPhase
  deriving DecidableEq, Repr

/-- What a step reads of the world: the clock, in seconds and in milliseconds, and the body the
network answers with. -/
structure AuthEnv where
  nowUnixS : Nat
  nowMs : Nat
  fetched : Except ResolveError String

/-- The server, with every verification begun. -/
structure AuthState where
  shared : AuthShared
  tasks : List AuthTask

/-- The server before any request. -/
def AuthState.start : AuthState :=
  ⟨⟨∅, 0, 0, ∅⟩, []⟩

/-- A token arrives, or a verification takes its next step. -/
inductive AuthAct where
  | arrive (jwt lxm : String)
  | advance (i : Nat) (env : AuthEnv)

namespace AuthShared

/-- The cached key of `did`, unless it has expired. -/
def hit (sh : AuthShared) (did : String) (nowMs : Nat) : Option String :=
  (sh.cache[did]?.filter fun entry => entry.expiresAtMs > nowMs).map CacheEntry.keys

end AuthShared

namespace AuthNode

variable (N : AuthNode)

/-- The key a fetched body has for `did`. -/
def keysFrom (did : String) (fetched : Except ResolveError String) : Except ResolveError String := do
  let body ← fetched
  let doc ← okOr (N.parseDoc body) .badDocument
  signingKeyFromDoc did doc

/-- The next step of a resolution of `did`; `none` when it fails. -/
def resolveStep (sh : AuthShared) (did : String) (env : AuthEnv) :
    ResolveStep → AuthShared × Option ResolveStep
  | .asked force =>
      match N.pinned did with
      | some keys => (sh, some (.resolved force keys))
      | none => (sh, some (.lookingUp force env.nowMs))
  | .lookingUp force nowMs =>
      match if force then none else sh.hit did nowMs with
      | some keys => ({ sh with hits := (sh.hits + 1) % 2 ^ 64 }, some (.resolved force keys))
      | none =>
          ({ sh with misses := (sh.misses + 1) % 2 ^ 64 },
            (docUrl N.plcBaseUrl did).toOption.map (.fetching force nowMs))
  | .fetching force nowMs _ =>
      (sh, (N.keysFrom did env.fetched).toOption.map (.storing force nowMs))
  | .storing force nowMs keys =>
      ({ sh with cache := sh.cache.insert did ⟨saturatingAdd nowMs N.ttlMs, keys⟩ },
        some (.resolved force keys))
  | .resolved force keys => (sh, some (.resolved force keys))

/-- What follows the resolution of a key: the token is verified under it, and after a signature
mismatch a refreshed key is asked for, once. -/
def afterResolve (jwt : String) (params : ServiceAuthParams) (force : Bool) (keys : String) :
    AuthPhase :=
  match verifyServiceAuthJwt N.server.suite jwt keys params with
  | .ok v => .checking params keys v
  | .error .signatureInvalid =>
      if force then .answered .anonymous none else .verifying params (.asked true)
  | .error _ => .answered .anonymous none

/-- The answer of the guard to a verified token. -/
def guardStep (sh : AuthShared) (params : ServiceAuthParams) (v : Verified) :
    AuthShared × AuthPhase :=
  match v.jti with
  | none => (sh, .answered (.authenticated v.did) none)
  | some jti =>
      let checked := sh.replay.checkAndRecord jti v.expUnixS params.nowUnixS
      ({ sh with replay := checked.1 },
        match checked.2 with
        | .error _ => .answered .anonymous none
        | .ok _ => .answered (.authenticated v.did) (some jti))

/-- The next step of a verification. -/
def advance (sh : AuthShared) (t : AuthTask) (env : AuthEnv) : AuthShared × AuthPhase :=
  match t.phase with
  | .arrived =>
      match atprotoIss N.server.suite t.jwt with
      | none => (sh, .answered .anonymous none)
      | some iss =>
          (sh, .verifying ⟨iss, N.server.serviceDid, t.lxm, env.nowUnixS⟩ (.asked false))
  | .verifying params (.resolved force keys) => (sh, N.afterResolve t.jwt params force keys)
  | .verifying params resolve =>
      let next := N.resolveStep sh params.expectedIss env resolve
      (next.1, next.2.elim (.answered .anonymous none) (.verifying params))
  | .checking params _ v => guardStep sh params v
  | .answered principal jti => (sh, .answered principal jti)

/-- One step of the server. -/
def step (s : AuthState) : AuthAct → AuthState
  | .arrive jwt lxm => { s with tasks := s.tasks ++ [⟨jwt, lxm, .arrived⟩] }
  | .advance i env =>
      match s.tasks[i]? with
      | none => s
      | some t =>
          let next := N.advance s.shared t env
          ⟨next.1, s.tasks.set i { t with phase := next.2 }⟩

/-- The server after the steps `acts`. -/
def after (acts : List AuthAct) : AuthState := run N.step .start acts

/-! ## Where a key comes from -/

/-- The verification `i` was at `phase` when it took one of the steps, and then read `env`. -/
def Took (acts : List AuthAct) (i : Nat) (env : AuthEnv) (t : AuthTask) : Prop :=
  ∃ pre, pre ++ [.advance i env] <+: acts ∧ (N.after pre).tasks[i]? = some t

/-- The verification `i`, which had read the clock at `nowMs` for it, fetched a document of `did`
that shows `keys`. -/
def Fetched (acts : List AuthAct) (i : Nat) (did keys : String) (nowMs : Nat) : Prop :=
  ∃ env t params force url, N.Took acts i env t ∧
    t.phase = .verifying params (.fetching force nowMs url) ∧ params.expectedIss = did ∧
    docUrl N.plcBaseUrl did = .ok url ∧ N.keysFrom did env.fetched = .ok keys

/-- The verification `i` asked for a key of `did`, and read the clock at `nowMs` for it. -/
def Asked (acts : List AuthAct) (i : Nat) (did : String) (nowMs : Nat) : Prop :=
  ∃ env t params force, N.Took acts i env t ∧ t.phase = .verifying params (.asked force) ∧
    params.expectedIss = did ∧ env.nowMs = nowMs

/-- A key that the verification `i` may use for `did`: the pinned one, or else one that some
verification fetched less than a lifetime before `i` asked, or that `i` fetched itself when it
asked. -/
def Fresh (acts : List AuthAct) (i : Nat) (did keys : String) : Prop :=
  N.pinned did = some keys ∨ N.pinned did = none ∧ ∃ j now before, N.Asked acts i did now ∧
    N.Fetched acts j did keys before ∧ (now < before + N.ttlMs ∨ j = i ∧ now = before)

/-- What the request of a verification requires: the claimed issuer, this service, the method
called, and the clock read when it began. -/
def Requires (acts : List AuthAct) (i : Nat) (jwt lxm : String) (params : ServiceAuthParams) :
    Prop :=
  ∃ env, N.Took acts i env ⟨jwt, lxm, .arrived⟩ ∧ atprotoIss N.server.suite jwt =
    some params.expectedIss ∧ params = ⟨params.expectedIss, N.server.serviceDid, lxm, env.nowUnixS⟩

variable {N} {acts acts' : List AuthAct} {i : Nat} {env : AuthEnv} {t : AuthTask}
  {jwt lxm did keys : String} {params : ServiceAuthParams} {now : Nat}

lemma Took.mono (h : N.Took acts i env t) (hp : acts <+: acts') : N.Took acts' i env t := by
  obtain ⟨pre, hpre, ht⟩ := h
  exact ⟨pre, hpre.trans hp, ht⟩

lemma took_last (ht : (N.after acts).tasks[i]? = some t) :
    N.Took (acts ++ [.advance i env]) i env t :=
  ⟨acts, List.prefix_refl _, ht⟩

lemma Fetched.mono (h : N.Fetched acts i did keys now) (hp : acts <+: acts') :
    N.Fetched acts' i did keys now := by
  obtain ⟨env, t, params, force, url, ht, hrest⟩ := h
  exact ⟨env, t, params, force, url, ht.mono hp, hrest⟩

lemma Asked.mono (h : N.Asked acts i did now) (hp : acts <+: acts') : N.Asked acts' i did now := by
  obtain ⟨env, t, params, force, ht, hrest⟩ := h
  exact ⟨env, t, params, force, ht.mono hp, hrest⟩

lemma Fresh.mono (h : N.Fresh acts i did keys) (hp : acts <+: acts') : N.Fresh acts' i did keys := by
  obtain hpin | ⟨hpin, j, now, before, hasked, hfetched, hage⟩ := h
  · exact Or.inl hpin
  · exact Or.inr ⟨hpin, j, now, before, hasked.mono hp, hfetched.mono hp, hage⟩

lemma Requires.mono (h : N.Requires acts i jwt lxm params) (hp : acts <+: acts') :
    N.Requires acts' i jwt lxm params := by
  obtain ⟨env, ht, hrest⟩ := h
  exact ⟨env, ht.mono hp, hrest⟩

/-! ## The invariant -/

variable (N) in
/-- What is known of a resolution under way. -/
def StepSound (acts : List AuthAct) (i : Nat) (did : String) : ResolveStep → Prop
  | .asked _ => True
  | .lookingUp _ now => N.pinned did = none ∧ N.Asked acts i did now
  | .fetching _ now url =>
      N.pinned did = none ∧ N.Asked acts i did now ∧ docUrl N.plcBaseUrl did = .ok url
  | .storing _ now keys =>
      N.pinned did = none ∧ N.Asked acts i did now ∧ N.Fetched acts i did keys now
  | .resolved _ keys => N.Fresh acts i did keys

variable (N) in
/-- The token `jwt` verifies as `v` under a key its issuer may use. -/
def Verifies (acts : List AuthAct) (i : Nat) (jwt lxm : String) (params : ServiceAuthParams)
    (keys : String) (v : Verified) : Prop :=
  N.Requires acts i jwt lxm params ∧ N.Fresh acts i params.expectedIss keys ∧
    verifyServiceAuthJwt N.server.suite jwt keys params = .ok v

variable (N) in
/-- What is known of a verification. -/
def PhaseSound (acts : List AuthAct) (i : Nat) (jwt lxm : String) : AuthPhase → Prop
  | .arrived => True
  | .verifying params r =>
      N.Requires acts i jwt lxm params ∧ N.StepSound acts i params.expectedIss r
  | .checking params keys v => N.Verifies acts i jwt lxm params keys v
  | .answered .anonymous _ => True
  | .answered (.authenticated did) jti => ∃ params keys v,
      N.Verifies acts i jwt lxm params keys v ∧ v.did = did ∧ v.jti = jti

variable (N) in
/-- A cached key was fetched, and is kept for a lifetime. -/
def CacheSound (acts : List AuthAct) (sh : AuthShared) : Prop :=
  ∀ did entry, sh.cache[did]? = some entry → N.pinned did = none ∧ ∃ i before,
    N.Fetched acts i did entry.keys before ∧ entry.expiresAtMs = saturatingAdd before N.ttlMs

variable (N) in
/-- What the server knows after the steps `acts`. -/
structure Sound (acts : List AuthAct) (s : AuthState) : Prop where
  cache : N.CacheSound acts s.shared
  tasks : ∀ i t, s.tasks[i]? = some t → N.PhaseSound acts i t.jwt t.lxm t.phase

variable {sh : AuthShared} {r next : ResolveStep}

lemma StepSound.mono (h : N.StepSound acts i did r) (hp : acts <+: acts') :
    N.StepSound acts' i did r := by
  cases r with
  | asked force => exact h
  | lookingUp force now => exact ⟨h.1, h.2.mono hp⟩
  | fetching force now url => exact ⟨h.1, h.2.1.mono hp, h.2.2⟩
  | storing force now keys => exact ⟨h.1, h.2.1.mono hp, h.2.2.mono hp⟩
  | resolved force keys => exact Fresh.mono h hp

lemma Verifies.mono {v : Verified} (h : N.Verifies acts i jwt lxm params keys v)
    (hp : acts <+: acts') : N.Verifies acts' i jwt lxm params keys v :=
  ⟨h.1.mono hp, h.2.1.mono hp, h.2.2⟩

lemma PhaseSound.mono {phase : AuthPhase} (h : N.PhaseSound acts i jwt lxm phase)
    (hp : acts <+: acts') : N.PhaseSound acts' i jwt lxm phase := by
  cases phase with
  | arrived => exact h
  | verifying params r => exact ⟨h.1.mono hp, h.2.mono hp⟩
  | checking params keys v => exact Verifies.mono h hp
  | answered principal jti =>
      cases principal with
      | anonymous => exact h
      | authenticated did =>
          obtain ⟨params, keys, v, hv, hrest⟩ := h
          exact ⟨params, keys, v, hv.mono hp, hrest⟩

lemma CacheSound.mono (h : N.CacheSound acts sh) (hp : acts <+: acts') : N.CacheSound acts' sh := by
  intro did entry hentry
  obtain ⟨hpin, i, before, hfetched, hexp⟩ := h did entry hentry
  exact ⟨hpin, i, before, hfetched.mono hp, hexp⟩

lemma hit_eq_some (h : sh.hit did now = some keys) :
    ∃ entry, sh.cache[did]? = some entry ∧ entry.expiresAtMs > now ∧ entry.keys = keys := by
  obtain ⟨entry, hentry, hkeys⟩ := Option.map_eq_some_iff.mp h
  obtain ⟨hcached, hlive⟩ := Option.filter_eq_some_iff.mp hentry
  exact ⟨entry, hcached, by simpa using hlive, hkeys⟩

/-- **One step of a resolution** keeps the cache sound, and so is what it makes of the
resolution. -/
lemma resolveStep_sound (hcache : N.CacheSound acts sh) (hr : N.StepSound acts i did r)
    (htook : N.Took (acts ++ [.advance i env]) i env t) (ht : t.phase = .verifying params r)
    (hdid : params.expectedIss = did) :
    N.CacheSound (acts ++ [.advance i env]) (N.resolveStep sh did env r).1 ∧
      ∀ next ∈ (N.resolveStep sh did env r).2,
        N.StepSound (acts ++ [.advance i env]) i did next := by
  have hp : acts <+: acts ++ [.advance i env] := List.prefix_append _ _
  cases r with
  | asked force =>
      rw [resolveStep]
      cases hpin : N.pinned did with
      | some keys =>
          refine ⟨hcache.mono hp, ?_⟩
          rintro next ⟨⟩
          exact Or.inl hpin
      | none =>
          refine ⟨hcache.mono hp, ?_⟩
          rintro next ⟨⟩
          exact ⟨hpin, env, t, params, force, htook, ht, hdid, rfl⟩
  | lookingUp force now =>
      obtain ⟨hpin, hasked⟩ := hr
      rw [resolveStep]
      cases hhit : if force then none else sh.hit did now with
      | some keys =>
          refine ⟨hcache.mono hp, ?_⟩
          rintro next ⟨⟩
          have hhit' : sh.hit did now = some keys := by
            cases force with
            | true => cases hhit
            | false => exact hhit
          obtain ⟨entry, hentry, hlive, rfl⟩ := hit_eq_some hhit'
          obtain ⟨-, j, before, hfetched, hexp⟩ := hcache did entry hentry
          refine Or.inr ⟨hpin, j, now, before, hasked.mono hp, hfetched.mono hp, Or.inl ?_⟩
          rw [hexp, saturatingAdd] at hlive
          omega
      | none =>
          refine ⟨hcache.mono hp, ?_⟩
          intro next hnext
          obtain ⟨url, hurl, rfl⟩ := Option.map_eq_some_iff.mp hnext
          exact ⟨hpin, hasked.mono hp, toOption_eq_some.mp hurl⟩
  | fetching force now url =>
      obtain ⟨hpin, hasked, hurl⟩ := hr
      refine ⟨hcache.mono hp, ?_⟩
      intro next hnext
      obtain ⟨keys, hkeys, rfl⟩ := Option.map_eq_some_iff.mp hnext
      exact ⟨hpin, hasked.mono hp, env, t, params, force, url, htook, ht, hdid, hurl,
        toOption_eq_some.mp hkeys⟩
  | storing force now keys =>
      obtain ⟨hpin, hasked, hfetched⟩ := hr
      constructor
      · intro other entry hentry
        rw [resolveStep, Std.ExtTreeMap.getElem?_insert] at hentry
        split_ifs at hentry with hother
        · obtain rfl := Std.LawfulEqCmp.eq_of_compare hother
          obtain rfl := Option.some.inj hentry
          exact ⟨hpin, i, now, hfetched.mono hp, rfl⟩
        · exact hcache.mono hp other entry hentry
      · rintro next ⟨⟩
        exact Or.inr ⟨hpin, i, now, now, hasked.mono hp, hfetched.mono hp, Or.inr ⟨rfl, rfl⟩⟩
  | resolved force keys =>
      refine ⟨hcache.mono hp, ?_⟩
      rintro next ⟨⟩
      exact Fresh.mono hr hp

lemma afterResolve_sound {force : Bool} (hreq : N.Requires acts i jwt lxm params)
    (hfresh : N.Fresh acts i params.expectedIss keys) :
    N.PhaseSound acts i jwt lxm (N.afterResolve jwt params force keys) := by
  rw [afterResolve]
  split
  · rename_i v hv
    exact ⟨hreq, hfresh, hv⟩
  · cases force with
    | true => trivial
    | false => exact ⟨hreq, trivial⟩
  · trivial

/-- What the guard answers, in the words of the sequential verification. -/
lemma guardStep_eq (sh : AuthShared) {p : Presentation} {v : Verified} (hp : N.server.verified p = some v)
    (hnow : p.nowUnixS = params.nowUnixS) :
    guardStep sh params v =
      ({ sh with replay := (N.server.verifyServiceAuthFull sh.replay p).1 },
        .answered (N.server.verifyServiceAuthFull sh.replay p).2.1
          (N.server.verifyServiceAuthFull sh.replay p).2.2) := by
  cases hjti : v.jti with
  | none => simp only [guardStep, AuthServer.verifyServiceAuthFull, hp, hjti]
  | some jti =>
      simp only [guardStep, AuthServer.verifyServiceAuthFull, hp, hjti, hnow]
      rcases sh.replay.checkAndRecord jti v.expUnixS params.nowUnixS with ⟨replay, _ | _⟩ <;> rfl

lemma guardStep_cache (v : Verified) : (guardStep sh params v).1.cache = sh.cache := by
  cases hjti : v.jti <;> simp only [guardStep, hjti]

lemma guardStep_sound {v : Verified} (h : N.Verifies acts i jwt lxm params keys v) :
    N.PhaseSound acts i jwt lxm (guardStep sh params v).2 := by
  cases hjti : v.jti with
  | none =>
      simp only [guardStep, hjti]
      exact ⟨params, keys, v, h, rfl, hjti⟩
  | some jti =>
      simp only [guardStep, hjti]
      cases (sh.replay.checkAndRecord jti v.expUnixS params.nowUnixS).2 with
      | error e => trivial
      | ok u => exact ⟨params, keys, v, h, rfl, hjti⟩

/-- The step of a verification that is waiting for a key. -/
lemma advance_verifying (hr : ∀ force keys, r ≠ .resolved force keys) :
    N.advance sh ⟨jwt, lxm, .verifying params r⟩ env =
      ((N.resolveStep sh params.expectedIss env r).1,
        (N.resolveStep sh params.expectedIss env r).2.elim (.answered .anonymous none)
          (.verifying params)) := by
  cases r with
  | resolved force keys => exact absurd rfl (hr force keys)
  | _ => rfl

/-- **One step of a verification** keeps what is known of the cache and of the verification. -/
lemma advance_sound (hcache : N.CacheSound acts sh) (hphase : N.PhaseSound acts i t.jwt t.lxm t.phase)
    (htook : N.Took (acts ++ [.advance i env]) i env t) :
    N.CacheSound (acts ++ [.advance i env]) (N.advance sh t env).1 ∧
      N.PhaseSound (acts ++ [.advance i env]) i t.jwt t.lxm (N.advance sh t env).2 := by
  have hp : acts <+: acts ++ [.advance i env] := List.prefix_append _ _
  obtain ⟨jwt, lxm, phase⟩ := t
  cases phase with
  | arrived =>
      rw [advance]
      cases hiss : atprotoIss N.server.suite jwt with
      | none => exact ⟨hcache.mono hp, trivial⟩
      | some iss => exact ⟨hcache.mono hp, ⟨env, htook, hiss, rfl⟩, trivial⟩
  | verifying params r =>
      obtain ⟨hreq, hr⟩ := hphase
      by_cases hres : ∃ force keys, r = .resolved force keys
      · obtain ⟨force, keys, rfl⟩ := hres
        exact ⟨hcache.mono hp, afterResolve_sound (hreq.mono hp) (Fresh.mono hr hp)⟩
      · obtain ⟨hcache', hnext⟩ := resolveStep_sound hcache hr htook rfl rfl
        rw [advance_verifying fun force keys heq => hres ⟨force, keys, heq⟩]
        refine ⟨hcache', ?_⟩
        cases hopt : (N.resolveStep sh params.expectedIss env r).2 with
        | none => trivial
        | some next => exact ⟨hreq.mono hp, hnext next hopt⟩
  | checking params keys v =>
      refine ⟨?_, guardStep_sound (Verifies.mono hphase hp)⟩
      intro did entry hentry
      rw [advance, guardStep_cache] at hentry
      exact hcache.mono hp did entry hentry
  | answered principal jti => exact ⟨hcache.mono hp, PhaseSound.mono hphase hp⟩

/-- **Every run is sound.** -/
theorem after_sound (N : AuthNode) (acts : List AuthAct) : N.Sound acts (N.after acts) := by
  induction acts using List.reverseRecOn with
  | nil =>
      constructor
      · intro did entry hentry
        simp [after, AuthState.start] at hentry
      · intro i t ht
        simp [after, AuthState.start] at ht
  | append_singleton acts a ih =>
      have hp : acts <+: acts ++ [a] := List.prefix_append _ _
      rw [after, run_append, run_cons, run_nil, ← after]
      cases a with
      | arrive jwt lxm =>
          refine ⟨ih.cache.mono hp, ?_⟩
          intro i t ht
          rw [step, List.getElem?_append] at ht
          split_ifs at ht with hi
          · exact (ih.tasks i t ht).mono hp
          · rw [List.getElem?_singleton, Option.ite_none_right_eq_some] at ht
            obtain ⟨-, ⟨⟩⟩ := ht
            trivial
      | advance i env =>
          rw [step]
          cases ht : (N.after acts).tasks[i]? with
          | none => exact ⟨ih.cache.mono hp, fun j u hu => (ih.tasks j u hu).mono hp⟩
          | some t =>
              obtain ⟨hcache, hphase⟩ := advance_sound ih.cache (ih.tasks i t ht) (took_last ht)
              refine ⟨hcache, ?_⟩
              intro j u hu
              rw [List.getElem?_set] at hu
              split_ifs at hu with hij hlen
              · obtain rfl := Option.some.inj hu
                obtain rfl := hij
                exact hphase
              · exact (ih.tasks j u hu).mono hp

/-- **Granted under a fresh key.**  However the verifications of a run interleave, whatever the
clock shows and whatever the network answers: who is granted is an atproto identifier and presents a
token that names it, this service and the method called and had not expired when its verification
began, signed by the key pinned for the identifier or, if there is none, by a key that a document of
the identifier showed, which some verification fetched less than the cache's lifetime before that
one asked for it, or which that one fetched itself when it asked. -/
theorem granted_under_fresh_key (N : AuthNode) (acts : List AuthAct) (i : Nat) (t : AuthTask)
    (did : String) (jti : Option String) (ht : (N.after acts).tasks[i]? = some t)
    (hgrant : t.phase = .answered (.authenticated did) jti) :
    atprotoIss N.server.suite t.jwt = some did ∧ ∃ env keys claims,
      N.Took acts i env ⟨t.jwt, t.lxm, .arrived⟩ ∧ N.Fresh acts i did keys ∧
      SignedClaims N.server.suite t.jwt keys claims ∧
      Binds ⟨did, N.server.serviceDid, t.lxm, env.nowUnixS⟩ claims ∧ claims.jti = jti := by
  have hsound := (after_sound N acts).tasks i t ht
  rw [hgrant] at hsound
  obtain ⟨params, keys, v, ⟨⟨env, htook, hiss, hparams⟩, hfresh, hverify⟩, rfl, rfl⟩ := hsound
  obtain ⟨claims, hsigned, hbinds, rfl⟩ := verifyServiceAuthJwt_eq_ok_iff.mp hverify
  have hdid : claims.iss = params.expectedIss := hbinds.iss
  rw [hparams] at hbinds
  rw [← hdid] at hiss hfresh hbinds
  exact ⟨hiss, env, keys, claims, htook, hfresh, hsigned, hbinds, rfl⟩

/-! ## The order of the guard -/

/-- The verification that reaches the guard with a step, and its token as a presentation. -/
def presented (s : AuthState) : AuthAct → List (Nat × Presentation)
  | .arrive _ _ => []
  | .advance i _ =>
      match s.tasks[i]? with
      | some ⟨jwt, lxm, .checking params keys _⟩ =>
          [(i, ⟨jwt, lxm, params.nowUnixS, fun _ _ => some keys⟩)]
      | _ => []

variable (N) in
/-- The verifications of a run in the order in which they reach the guard. -/
def guardOrderFrom : AuthState → List AuthAct → List (Nat × Presentation)
  | _, [] => []
  | s, a :: acts => presented s a ++ guardOrderFrom (N.step s a) acts

variable (N) in
/-- The verifications of a run in the order in which they reach the guard. -/
def guardOrder (acts : List AuthAct) : List (Nat × Presentation) :=
  N.guardOrderFrom .start acts

variable (N) in
/-- The tokens of a run in the order in which they reach the guard. -/
def presentations (acts : List AuthAct) : List Presentation := (N.guardOrder acts).map Prod.snd

variable {s : AuthState} {a : AuthAct}

lemma guardOrderFrom_append : N.guardOrderFrom s (acts ++ acts') =
    N.guardOrderFrom s acts ++ N.guardOrderFrom (run N.step s acts) acts' := by
  induction acts generalizing s with
  | nil => rfl
  | cons a acts ih =>
      rw [List.cons_append, guardOrderFrom, guardOrderFrom, ih, List.append_assoc, run_cons]

lemma after_append : N.after (acts ++ acts') = run N.step (N.after acts) acts' := by
  rw [after, run_append, ← after]

lemma guardOrder_append : N.guardOrder (acts ++ acts') =
    N.guardOrder acts ++ N.guardOrderFrom (N.after acts) acts' := by
  rw [guardOrder, guardOrderFrom_append, ← guardOrder, ← after]

lemma guardOrder_concat : N.guardOrder (acts ++ [a]) =
    N.guardOrder acts ++ presented (N.after acts) a := by
  rw [guardOrder_append, guardOrderFrom, guardOrderFrom, List.append_nil]

lemma after_concat : N.after (acts ++ [a]) = N.step (N.after acts) a := by
  rw [after_append, run_cons, run_nil]

/-- The guard of a run, and what it answered. -/
structure Sequential (N : AuthNode) (acts : List AuthAct) : Prop where
  /-- The guard is that of the presentations, one after the other. -/
  replay : (N.after acts).shared.replay = N.server.replayAfter (N.presentations acts)
  /-- No verification reaches it twice. -/
  nodup : ((N.guardOrder acts).map Prod.fst).Nodup
  /-- A verification that reached it has the answer of its presentation. -/
  answers : ∀ (n i : Nat) (p : Presentation), (N.guardOrder acts)[n]? = some (i, p) →
    ∃ principal jti, (N.after acts).tasks[i]? = some ⟨p.jwt, p.lxm, .answered principal jti⟩ ∧
      (N.server.answers (N.presentations acts))[n]? = some (principal, jti)
  /-- A verification that did not reach it is not granted. -/
  granted : ∀ i t did jti, (N.after acts).tasks[i]? = some t →
    t.phase = .answered (.authenticated did) jti → i ∈ (N.guardOrder acts).map Prod.fst

lemma presented_of_checking {v : Verified}
    (ht : s.tasks[i]? = some ⟨jwt, lxm, .checking params keys v⟩) :
    presented s (.advance i env) = [(i, ⟨jwt, lxm, params.nowUnixS, fun _ _ => some keys⟩)] := by
  rw [presented, ht]

lemma presented_of_not_checking (ht : s.tasks[i]? = some t)
    (hphase : ∀ params keys v, t.phase ≠ .checking params keys v) :
    presented s (.advance i env) = [] := by
  obtain ⟨jwt, lxm, phase⟩ := t
  rw [presented, ht]
  cases phase with
  | checking params keys v => exact absurd rfl (hphase params keys v)
  | _ => rfl

lemma resolveStep_replay : (N.resolveStep sh did env r).1.replay = sh.replay := by
  cases r with
  | asked force =>
      rw [resolveStep]
      cases N.pinned did <;> rfl
  | lookingUp force now =>
      rw [resolveStep]
      cases if force then none else sh.hit did now <;> rfl
  | _ => rfl

/-- Before the guard a step neither touches it nor grants anything. -/
lemma advance_of_not_checking (N : AuthNode) (sh : AuthShared) (env : AuthEnv)
    (hphase : ∀ params keys v, t.phase ≠ .checking params keys v) :
    (N.advance sh t env).1.replay = sh.replay ∧
      ((N.advance sh t env).2 = t.phase ∨
        (∀ principal jti, t.phase ≠ .answered principal jti) ∧
        ∀ did jti, (N.advance sh t env).2 ≠ .answered (.authenticated did) jti) := by
  obtain ⟨jwt, lxm, phase⟩ := t
  cases phase with
  | arrived =>
      rw [advance]
      cases atprotoIss N.server.suite jwt <;> exact ⟨rfl, Or.inr ⟨by simp, by simp⟩⟩
  | verifying params r =>
      by_cases hres : ∃ force keys, r = .resolved force keys
      · obtain ⟨force, keys, rfl⟩ := hres
        refine ⟨rfl, Or.inr ⟨by simp, ?_⟩⟩
        intro did jti
        change N.afterResolve jwt params force keys ≠ _
        rw [afterResolve]
        split
        · simp
        · cases force <;> simp
        · simp
      · rw [advance_verifying fun force keys heq => hres ⟨force, keys, heq⟩]
        refine ⟨resolveStep_replay, Or.inr ⟨by simp, ?_⟩⟩
        cases (N.resolveStep sh params.expectedIss env r).2 <;> simp
  | checking params keys v => exact absurd rfl (hphase params keys v)
  | answered principal jti => exact ⟨rfl, Or.inl rfl⟩

/-- A token that verified is one that checks out when its key is what the resolver answers. -/
lemma Verifies.verified {v : Verified} (h : N.Verifies acts i jwt lxm params keys v) :
    N.server.verified ⟨jwt, lxm, params.nowUnixS, fun _ _ => some keys⟩ = some v := by
  obtain ⟨⟨env, -, hiss, hparams⟩, -, hverify⟩ := h
  rw [AuthServer.verified, hiss, Option.bind_some]
  have hparams' : params =
      ⟨params.expectedIss, N.server.serviceDid, lxm, params.nowUnixS⟩ := by
    conv_lhs => rw [hparams]
    rw [hparams]
  rw [← hparams', verifyResolved_eq_some_iff]
  exact ⟨keys, Or.inl rfl, hverify⟩

/-- A verification that is not at the guard leaves it alone. -/
lemma Sequential.concat_of_not_checking (ih : N.Sequential acts)
    (ht : (N.after acts).tasks[i]? = some t)
    (hphase : ∀ params keys v, t.phase ≠ .checking params keys v) :
    N.Sequential (acts ++ [.advance i env]) := by
  have horder : N.guardOrder (acts ++ [.advance i env]) = N.guardOrder acts := by
    rw [guardOrder_concat, presented_of_not_checking ht hphase, List.append_nil]
  obtain ⟨hreplay, hnext⟩ := advance_of_not_checking N (N.after acts).shared env hphase
  have hafter : N.after (acts ++ [.advance i env]) =
      ⟨(N.advance (N.after acts).shared t env).1, (N.after acts).tasks.set i
        { t with phase := (N.advance (N.after acts).shared t env).2 }⟩ := by
    rw [after_concat, step, ht]
  have hlen := (List.getElem?_eq_some_iff.mp ht).1
  constructor
  · rw [presentations, horder, hafter]
    exact hreplay.trans ih.replay
  · rw [horder]
    exact ih.nodup
  · intro n j p h
    rw [horder] at h
    obtain ⟨principal, jti, hj, hanswer⟩ := ih.answers n j p h
    rw [presentations, horder, hafter]
    refine ⟨principal, jti, ?_, hanswer⟩
    by_cases hij : i = j
    · subst hij
      obtain rfl := Option.some.inj (ht.symm.trans hj)
      obtain heq | ⟨hnot, -⟩ := hnext
      · rw [List.getElem?_set_self hlen, heq]
      · exact absurd rfl (hnot principal jti)
    · rw [List.getElem?_set_ne hij, hj]
  · intro j u did jti hu hgrant
    rw [horder]
    rw [hafter] at hu
    by_cases hij : i = j
    · subst hij
      rw [List.getElem?_set_self hlen, Option.some.injEq] at hu
      subst hu
      obtain heq | ⟨-, hnot⟩ := hnext
      · exact ih.granted i t did jti ht (heq ▸ hgrant)
      · exact absurd hgrant (hnot did jti)
    · rw [List.getElem?_set_ne hij] at hu
      exact ih.granted j u did jti hu hgrant

/-- A verification that reaches the guard is the next presentation. -/
lemma Sequential.concat_checking {v : Verified} (ih : N.Sequential acts)
    (ht : (N.after acts).tasks[i]? = some ⟨jwt, lxm, .checking params keys v⟩) :
    N.Sequential (acts ++ [.advance i env]) := by
  have hsound : N.Verifies acts i jwt lxm params keys v := (after_sound N acts).tasks i _ ht
  obtain ⟨p, hp⟩ : ∃ p : Presentation, p = ⟨jwt, lxm, params.nowUnixS, fun _ _ => some keys⟩ :=
    ⟨_, rfl⟩
  obtain ⟨answer, hanswer⟩ : ∃ answer,
      N.server.verifyServiceAuthFull (N.after acts).shared.replay p = answer := ⟨_, rfl⟩
  have horder : N.guardOrder (acts ++ [.advance i env]) = N.guardOrder acts ++ [(i, p)] := by
    rw [guardOrder_concat, presented_of_checking ht, hp]
  have hps : N.presentations (acts ++ [.advance i env]) = N.presentations acts ++ [p] := by
    rw [presentations, horder, List.map_append]
    rfl
  have hafter : N.after (acts ++ [.advance i env]) =
      ⟨{ (N.after acts).shared with replay := answer.1 },
        (N.after acts).tasks.set i ⟨jwt, lxm, .answered answer.2.1 answer.2.2⟩⟩ := by
    have hguard := guardStep_eq (N.after acts).shared hsound.verified rfl
    rw [← hp, hanswer] at hguard
    rw [after_concat, step, ht]
    simp only [advance, hguard]
  have hnew : i ∉ (N.guardOrder acts).map Prod.fst := by
    intro hin
    obtain ⟨⟨j, q⟩, hq, rfl⟩ := List.mem_map.mp hin
    obtain ⟨n, hn⟩ := List.mem_iff_getElem?.mp hq
    obtain ⟨principal, jti, hj, -⟩ := ih.answers n j q hn
    have heq := Option.some.inj (ht.symm.trans hj)
    cases (AuthTask.mk.injEq .. ▸ heq).2.2
  have hlen := (List.getElem?_eq_some_iff.mp ht).1
  have hsame : (N.guardOrder acts).length = (N.presentations acts).length := by
    rw [presentations, List.length_map]
  constructor
  · rw [hps, hafter, replayAfter_append_singleton, ← ih.replay, hanswer]
  · rw [horder, List.map_append, List.nodup_append']
    refine ⟨ih.nodup, List.nodup_singleton _, ?_⟩
    simpa using hnew
  · intro n j q h
    rw [horder, List.getElem?_append] at h
    rw [hps, hafter, answers_append_singleton, List.getElem?_append]
    have hlen' : (N.server.answers (N.presentations acts)).length = (N.guardOrder acts).length := by
      rw [length_answers, hsame]
    rw [hlen']
    split_ifs at h ⊢ with hn
    · obtain ⟨principal, jti, hj, hold⟩ := ih.answers n j q h
      refine ⟨principal, jti, ?_, hold⟩
      have hij : i ≠ j := by
        rintro rfl
        exact hnew (List.mem_map.mpr ⟨(i, q), List.mem_of_getElem? h, rfl⟩)
      rw [List.getElem?_set_ne hij, hj]
    · rw [List.getElem?_singleton, Option.ite_none_right_eq_some] at h
      obtain ⟨hn0, hij⟩ := h
      obtain ⟨rfl, rfl⟩ := Prod.mk.inj (Option.some.inj hij)
      refine ⟨answer.2.1, answer.2.2, ?_, ?_⟩
      · rw [List.getElem?_set_self hlen, hp]
      · rw [hn0, List.getElem?_cons_zero, ← ih.replay, hanswer]
  · intro j u did jti hu hgrant
    rw [horder, List.map_append, List.mem_append]
    by_cases hij : i = j
    · exact Or.inr (by simp [hij])
    · rw [hafter, List.getElem?_set_ne hij] at hu
      exact Or.inl (ih.granted j u did jti hu hgrant)

/-- **A run is a sequence.**  However the verifications interleave, the guard and its answers are
those of the presentations one after the other, in the order in which they reached the guard. -/
theorem guard_is_sequential (N : AuthNode) (acts : List AuthAct) : N.Sequential acts := by
  induction acts using List.reverseRecOn with
  | nil =>
      constructor
      · rfl
      · exact List.nodup_nil
      · intro n i p h
        simp [guardOrder, guardOrderFrom] at h
      · intro i t did jti ht
        simp [after, AuthState.start] at ht
  | append_singleton acts a ih =>
      cases a with
      | arrive jwt lxm =>
          have horder : N.guardOrder (acts ++ [.arrive jwt lxm]) = N.guardOrder acts := by
            rw [guardOrder_concat, presented, List.append_nil]
          have hold : ∀ (i : Nat) (t : AuthTask), (N.after acts).tasks[i]? = some t →
              (N.after (acts ++ [.arrive jwt lxm])).tasks[i]? = some t := by
            intro i t ht
            rw [after_concat, step, List.getElem?_append_left (List.getElem?_eq_some_iff.mp ht).1,
              ht]
          constructor
          · rw [presentations, horder, after_concat]
            exact ih.replay
          · rw [horder]
            exact ih.nodup
          · intro n i p h
            rw [horder] at h
            obtain ⟨principal, jti, ht, hanswer⟩ := ih.answers n i p h
            rw [presentations, horder]
            exact ⟨principal, jti, hold _ _ ht, hanswer⟩
          · intro i t did jti ht hgrant
            rw [horder]
            rw [after_concat, step, List.getElem?_append] at ht
            split_ifs at ht with hi
            · exact ih.granted i t did jti ht hgrant
            · rw [List.getElem?_singleton, Option.ite_none_right_eq_some] at ht
              obtain ⟨-, ⟨⟩⟩ := ht
              cases hgrant
      | advance i env =>
          cases ht : (N.after acts).tasks[i]? with
          | none =>
              have horder : N.guardOrder (acts ++ [.advance i env]) = N.guardOrder acts := by
                rw [guardOrder_concat, presented, ht, List.append_nil]
              have hafter : N.after (acts ++ [.advance i env]) = N.after acts := by
                rw [after_concat, step, ht]
              constructor
              · rw [presentations, horder, hafter]
                exact ih.replay
              · rw [horder]
                exact ih.nodup
              · rw [presentations, horder, hafter]
                exact ih.answers
              · rw [horder, hafter]
                exact ih.granted
          | some t =>
              by_cases hphase : ∃ params keys v, t.phase = .checking params keys v
              · obtain ⟨jwt, lxm, phase⟩ := t
                obtain ⟨params, keys, v, rfl⟩ := hphase
                exact ih.concat_checking ht
              · exact ih.concat_of_not_checking ht fun params keys v heq =>
                  hphase ⟨params, keys, v, heq⟩

end AuthNode

/-! ## Single use, whatever the clock shows -/

section

variable {S : AuthServer} {ps : List Presentation} {p q : Presentation} {v w : Verified}
  {jti : String} {m n : Nat}

/-- A presentation leaves what is alive at its time. -/
lemma replay_of_alive {replay : ReplayGuard} {exp : Nat} (h : replay[jti]? = some exp)
    (hlive : p.nowUnixS < exp) : (S.verifyServiceAuthFull replay p).1[jti]? = some exp := by
  cases hjti : (S.verified p).bind Verified.jti with
  | none => rw [(verifyServiceAuthFull_of_no_jti hjti).1, h]
  | some other =>
      obtain ⟨v, hv, hvjti⟩ := Option.bind_eq_some_iff.mp hjti
      rw [verifyServiceAuthFull_of_jti hv hvjti]
      exact Expiring.getElem?_enter_of_alive h hlive

/-- A granted `jti` stays in the guard as long as nobody reads a time past its expiry. -/
lemma replayAfter_of_granted (hp : ps[m]? = some p) (hv : S.verified p = some v)
    (hjti : v.jti = some jti) (hgrant : S.Granted ps m v)
    (hclock : ∀ q ∈ ps, q.nowUnixS < v.expUnixS) : (S.replayAfter ps)[jti]? = some v.expUnixS := by
  induction ps using List.reverseRecOn with
  | nil => cases hp
  | append_singleton ps q ih =>
      rw [replayAfter_append_singleton]
      rcases Nat.lt_or_ge m ps.length with hm | hm
      · rw [List.getElem?_append_left hm] at hp
        have hstored := ih hp ((granted_append hm).mp hgrant) fun r hr =>
          hclock r (List.mem_append_left _ hr)
        exact replay_of_alive hstored (hclock q (by simp))
      · rw [List.getElem?_append_right hm, List.getElem?_singleton,
          Option.ite_none_right_eq_some] at hp
        obtain ⟨hm0, ⟨⟩⟩ := hp
        obtain rfl : m = ps.length := by omega
        rw [granted_last, hjti, granted_of_enter hv hjti] at hgrant
        rw [verifyServiceAuthFull_of_jti hv hjti]
        exact Expiring.getElem?_enter_of_admitted hgrant

/-- Of two grants of one `jti`, the later comes after somebody read a time past the expiry of the
earlier. -/
lemma not_granted_again (hmn : m < n) (hp : ps[m]? = some p) (hv : S.verified p = some v)
    (hvjti : v.jti = some jti) (hgrant : S.Granted ps m v) (hq : ps[n]? = some q)
    (hw : S.verified q = some w) (hwjti : w.jti = some jti)
    (hclock : ∀ r ∈ ps, r.nowUnixS < v.expUnixS) : ¬ S.Granted ps n w := by
  intro hagain
  obtain ⟨hn, hget⟩ := List.getElem?_eq_some_iff.mp hq
  have hlen : (ps.take n).length = n := List.length_take_of_le hn.le
  have hsplit : ps = (ps.take n ++ [q]) ++ ps.drop (n + 1) := by
    rw [← hget, List.take_append_getElem, List.take_append_drop]
  have hstored : (S.replayAfter (ps.take n))[jti]? = some v.expUnixS := by
    refine replayAfter_of_granted (by rw [List.getElem?_take_of_lt hmn, hp]) hv hvjti ?_
      fun r hr => hclock r (List.mem_of_mem_take hr)
    rw [← List.take_append_drop n ps] at hgrant
    exact (granted_append (by omega)).mp hgrant
  have hlast : S.Granted (ps.take n ++ [q]) (ps.take n).length w := by
    rw [hsplit] at hagain
    rw [hlen]
    exact (granted_append (by simp [hlen])).mp hagain
  rw [granted_last, hwjti, granted_of_enter hw hwjti,
    Expiring.enter_refused_of_alive hstored (hclock q (List.mem_of_getElem? hq))] at hlast
  cases hlast

end

namespace AuthNode

variable {N : AuthNode} {acts : List AuthAct} {i : Nat} {t : AuthTask} {did jti : String}

/-- A granted verification is a presentation that was granted. -/
lemma exists_presentation (ht : (N.after acts).tasks[i]? = some t)
    (hgrant : t.phase = .answered (.authenticated did) (some jti)) :
    ∃ n p v, (N.guardOrder acts)[n]? = some (i, p) ∧ N.server.verified p = some v ∧
      v.jti = some jti ∧ N.server.Granted (N.presentations acts) n v := by
  have hseq := guard_is_sequential N acts
  obtain ⟨⟨j, p⟩, hp, rfl⟩ := List.mem_map.mp (hseq.granted i t did _ ht hgrant)
  obtain ⟨n, hn⟩ := List.mem_iff_getElem?.mp hp
  obtain ⟨principal, jti', hj, hanswer⟩ := hseq.answers n j p hn
  have htask := Option.some.inj (ht.symm.trans hj)
  rw [htask] at hgrant
  obtain ⟨rfl, rfl⟩ : principal = .authenticated did ∧ jti' = some jti := by
    simpa using hgrant
  -- the answer is the one the guard gave to the presentation behind those before it
  have hpos : (N.presentations acts)[n]? = some p := by rw [presentations, List.getElem?_map, hn]; rfl
  obtain ⟨hlt, hget⟩ := List.getElem?_eq_some_iff.mp hpos
  have hlen : ((N.presentations acts).take n).length = n := List.length_take_of_le hlt.le
  have hlast : (N.server.verifyServiceAuthFull
      (N.server.replayAfter ((N.presentations acts).take n)) p).2 =
        (.authenticated did, some jti) := by
    have hsplit : N.presentations acts =
        ((N.presentations acts).take n ++ [p]) ++ (N.presentations acts).drop (n + 1) := by
      rw [← hget, List.take_append_getElem, List.take_append_drop]
    rw [hsplit, AuthServer.answers, answersTo_append, List.getElem?_append_left
      (by simp [hlen]), ← AuthServer.answers, answers_append_singleton,
      List.getElem?_append_right (by rw [length_answers, hlen]), length_answers, hlen,
      Nat.sub_self, List.getElem?_cons_zero] at hanswer
    exact Option.some.inj hanswer
  cases hv : N.server.verified p with
  | none =>
      rw [AuthServer.verifyServiceAuthFull, hv] at hlast
      cases hlast
  | some v =>
      obtain ⟨hdid, hjti⟩ : v.did = did ∧ v.jti = some jti := by
        cases hvjti : v.jti with
        | none =>
            simp only [AuthServer.verifyServiceAuthFull, hv, hvjti] at hlast
            cases hlast
        | some other =>
            rw [verifyServiceAuthFull_of_jti hv hvjti] at hlast
            split_ifs at hlast
            · simpa using hlast
            · cases hlast
      refine ⟨n, p, v, hn, hv, hjti, ?_⟩
      rw [AuthServer.Granted, hanswer, hdid, hjti]

variable (N) in
/-- The verification `i` was granted, with a token of this `jti` that expires at `exp` or later. -/
def GrantedUntil (acts : List AuthAct) (jti : String) (exp i : Nat) : Prop :=
  ∃ p v t did, (i, p) ∈ N.guardOrder acts ∧ N.server.verified p = some v ∧ exp ≤ v.expUnixS ∧
    (N.after acts).tasks[i]? = some t ∧ t.phase = .answered (.authenticated did) (some jti)

/-- A granted verification is granted on its one presentation. -/
lemma GrantedUntil.exists_granted {exp : Nat} (h : N.GrantedUntil acts jti exp i) :
    ∃ n p v, (N.guardOrder acts)[n]? = some (i, p) ∧ (N.presentations acts)[n]? = some p ∧
      N.server.verified p = some v ∧ v.jti = some jti ∧ exp ≤ v.expUnixS ∧
      N.server.Granted (N.presentations acts) n v := by
  obtain ⟨p, v, t, did, hp, hv, hexp, ht, hgrant⟩ := h
  obtain ⟨n, q, w, hn, hw, hjti, hgranted⟩ := exists_presentation ht hgrant
  have hsame : (i, q) = (i, p) := List.inj_on_of_nodup_map (guard_is_sequential N acts).nodup
    (List.mem_of_getElem? hn) hp rfl
  obtain rfl : q = p := (Prod.mk.inj hsame).2
  obtain rfl : w = v := Option.some.inj (hw.symm.trans hv)
  exact ⟨n, q, w, hn, by rw [presentations, List.getElem?_map, hn]; rfl, hw, hjti, hexp, hgranted⟩

/-- **One grant while alive.**  However the verifications interleave, and in whatever order their
clocks were read: as long as no verification that reaches the guard has read a time at or past
`exp`, only one verification is granted with a token of a given `jti` that expires at `exp` or
later, whatever other tokens of that `jti` are presented. -/
theorem one_grant_while_alive (N : AuthNode) (acts : List AuthAct) (jti : String) (exp : Nat)
    (hclock : ∀ p ∈ N.presentations acts, p.nowUnixS < exp) :
    {i | N.GrantedUntil acts jti exp i}.Subsingleton := by
  intro i hi j hj
  obtain ⟨m, p, v, hm, hp, hv, hvjti, hvexp, hvgrant⟩ := GrantedUntil.exists_granted hi
  obtain ⟨n, q, w, hn, hq, hw, hwjti, hwexp, hwgrant⟩ := GrantedUntil.exists_granted hj
  rcases Nat.lt_trichotomy m n with hlt | rfl | hlt
  · exact absurd hwgrant (not_granted_again hlt hp hv hvjti hvgrant hq hw hwjti
      fun r hr => (hclock r hr).trans_le hvexp)
  · exact congrArg Prod.fst (Option.some.inj (hm.symm.trans hn))
  · exact absurd hvgrant (not_granted_again hlt hq hw hwjti hwgrant hp hv hvjti
      fun r hr => (hclock r hr).trans_le hwexp)

end AuthNode

/-! ## The URLs handed to the fetcher -/

/-- The characters behind the method of an accepted identifier. -/
lemma msid_of_isValidDid {method msid : List Char} (hmethod : ∀ c ∈ method, c ≠ ':')
    (h : isValidDid ("did:".toList ++ (method ++ ':' :: msid)) = true) :
    msid ≠ [] ∧ ∀ c ∈ msid, isMsidChar c = true := by
  have hspan : (method ++ ':' :: msid).span (· ≠ ':') = (method, ':' :: msid) := by
    rw [List.span_eq_takeWhile_dropWhile, List.takeWhile_append_of_pos (by simpa using hmethod),
      List.dropWhile_append_of_pos (by simpa using hmethod)]
    simp
  have hid : List.isPrefixOf? "id:".toList ("did:".toList ++ (method ++ ':' :: msid)) = none := rfl
  have hdid : List.isPrefixOf? "did:".toList ("did:".toList ++ (method ++ ':' :: msid)) =
      some (method ++ ':' :: msid) := rfl
  simp only [isValidDid, hid, hdid, hspan, Bool.and_eq_true, Bool.not_eq_true'] at h
  exact ⟨by simpa using h.2.1, List.all_eq_true.mp h.2.2⟩

/-- A URL of a DID's document, made of characters that neither end its host nor its last segment. -/
def ConfinedUrl (plcBaseUrl url : String) : Prop :=
  ∃ name : List Char, name ≠ [] ∧ (∀ c ∈ name, isMsidChar c = true) ∧
    (url = String.join [plcBaseUrl, "/did:plc:", String.ofList name] ∨
      (':' ∉ name ∧ url = String.join ["https://", String.ofList name, "/.well-known/did.json"]))

lemma docUrl_confined {plcBaseUrl did url : String} (hvalid : isValidDid did.toList = true)
    (h : docUrl plcBaseUrl did = .ok url) : ConfinedUrl plcBaseUrl url := by
  rw [docUrl] at h
  split_ifs at h with hplc
  · obtain ⟨name, hname⟩ := List.isPrefixOf_iff_prefix.mp hplc
    rw [← hname] at hvalid
    have hmethod : ∀ c ∈ "plc".toList, c ≠ ':' := by simp
    obtain ⟨hne, hchars⟩ := msid_of_isValidDid hmethod hvalid
    refine ⟨name, hne, hchars, Or.inl ?_⟩
    have hdid : did = String.join ["did:plc:", String.ofList name] := by
      apply String.toList_injective
      simp [String.join, ← hname]
    rw [← Except.ok.inj h, hdid]
    apply String.toList_injective
    simp [String.join]
  · cases hweb : List.isPrefixOf? "did:web:".toList did.toList with
    | none =>
        rw [hweb] at h
        cases h
    | some name =>
        have hname : "did:web:".toList ++ name = did.toList :=
          List.append_eq_of_isPrefixOf?_eq_some hweb
        rw [← hname] at hvalid
        have hmethod : ∀ c ∈ "web".toList, c ≠ ':' := by simp
        obtain ⟨hne, hchars⟩ := msid_of_isValidDid hmethod hvalid
        simp only [hweb] at h
        split_ifs at h with hbad
        exact ⟨name, hne, hchars, Or.inr ⟨fun hcolon => hbad (Or.inr (Or.inl hcolon)),
          (Except.ok.inj h).symm⟩⟩

namespace AuthNode

/-- **What the resolver asks the fetcher for.**  Whatever tokens are presented, in every run each URL
handed to the fetcher is that of the directory, with a name, or of a host over HTTPS, and both are
letters, digits and `.`, `_`, `-`, `%` (and `:` in a name): no token makes the resolver ask for
another path, port or scheme, and for a pinned identifier it asks for nothing.  Where the fetcher is
redirected from there is not part of it. -/
theorem fetched_urls_confined (N : AuthNode) (acts : List AuthAct) (i : Nat) (t : AuthTask)
    (params : ServiceAuthParams) (force : Bool) (nowMs : Nat) (url : String)
    (ht : (N.after acts).tasks[i]? = some t)
    (hphase : t.phase = .verifying params (.fetching force nowMs url)) :
    ConfinedUrl N.plcBaseUrl url ∧ N.pinned params.expectedIss = none := by
  have hsound := (after_sound N acts).tasks i t ht
  rw [hphase] at hsound
  obtain ⟨⟨env, -, hiss, -⟩, hpin, -, hurl⟩ := hsound
  refine ⟨docUrl_confined ?_ hurl, hpin⟩
  rw [atprotoIss] at hiss
  split at hiss
  · cases hiss
  · rename_i iss hpeek
    split at hiss
    · cases hiss
    · rename_i did hparse
      split_ifs at hiss with hspace
      obtain rfl := Option.some.inj hiss
      rw [Did.parse] at hparse
      split_ifs at hparse with hempty hlong hvalid
      exact hvalid

end AuthNode

/-! ## One verification among others, from its arrival to its grant -/

namespace AuthNode

section

variable {N : AuthNode} {sh : AuthShared} {tasks : List AuthTask} {i : Nat} {env : AuthEnv}
  {jwt lxm iss keys url : String} {v : Verified} {t : AuthTask}

lemma step_set (hi : i < tasks.length) : N.step ⟨sh, tasks.set i t⟩ (.advance i env) =
    ⟨(N.advance sh t env).1, tasks.set i { t with phase := (N.advance sh t env).2 }⟩ := by
  rw [step, List.getElem?_set_self hi]
  simp only [List.set_set]

lemma presented_set (hi : i < tasks.length)
    (hphase : ∀ params keys v, t.phase ≠ .checking params keys v) :
    presented ⟨sh, tasks.set i t⟩ (.advance i env) = [] :=
  presented_of_not_checking (List.getElem?_set_self hi) hphase

/-- A verification of an identifier the cache has no key for gets to the document in three steps,
while the others wait. -/
lemma run_to_fetching (N : AuthNode) (sh : AuthShared) (env : AuthEnv) (lxm : String)
    (hi : i < tasks.length) (hiss : atprotoIss N.server.suite jwt = some iss)
    (hpin : N.pinned iss = none) (hmiss : sh.hit iss env.nowMs = none)
    (hurl : docUrl N.plcBaseUrl iss = .ok url) :
    let params : ServiceAuthParams := ⟨iss, N.server.serviceDid, lxm, env.nowUnixS⟩
    let acts := List.replicate 3 (.advance i env)
    run N.step ⟨sh, tasks.set i ⟨jwt, lxm, .arrived⟩⟩ acts =
        ⟨{ sh with misses := (sh.misses + 1) % 2 ^ 64 },
          tasks.set i ⟨jwt, lxm, .verifying params (.fetching false env.nowMs url)⟩⟩ ∧
      N.guardOrderFrom ⟨sh, tasks.set i ⟨jwt, lxm, .arrived⟩⟩ acts = [] := by
  have harrived : N.advance sh ⟨jwt, lxm, .arrived⟩ env = (sh, .verifying
      ⟨iss, N.server.serviceDid, lxm, env.nowUnixS⟩ (.asked false)) := by
    simp only [advance, hiss]
  have hasked : ∀ params : ServiceAuthParams, params.expectedIss = iss →
      N.advance sh ⟨jwt, lxm, .verifying params (.asked false)⟩ env =
        (sh, .verifying params (.lookingUp false env.nowMs)) := by
    intro params hparams
    simp only [advance, resolveStep, hparams, hpin, Option.elim]
  have hlookup : ∀ params : ServiceAuthParams, params.expectedIss = iss →
      N.advance sh ⟨jwt, lxm, .verifying params (.lookingUp false env.nowMs)⟩ env =
        ({ sh with misses := (sh.misses + 1) % 2 ^ 64 },
          .verifying params (.fetching false env.nowMs url)) := by
    intro params hparams
    simp only [advance, resolveStep, hparams, hmiss, hurl, Except.toOption, Option.map_some,
      Option.elim, Bool.false_eq_true, if_false]
  intro params acts
  have hiss' : params.expectedIss = iss := rfl
  constructor
  · simp only [acts, List.replicate, run_cons, run_nil, step_set hi, harrived, hasked params hiss',
      hlookup params hiss', params]
  · simp only [acts, List.replicate, guardOrderFrom, step_set hi, harrived, hasked params hiss',
      presented_set hi, ne_eq, reduceCtorEq, not_false_eq_true, implies_true, List.append_nil,
      params]

/-- With the document at hand it gets to the guard in three more. -/
lemma run_to_checking (N : AuthNode) (sh : AuthShared) (env : AuthEnv) (lxm url : String)
    (hi : i < tasks.length) {params : ServiceAuthParams} (hiss : params.expectedIss = iss)
    (hkeys : N.keysFrom iss env.fetched = .ok keys)
    (hverify : verifyServiceAuthJwt N.server.suite jwt keys params = .ok v) :
    let start : AuthState :=
      ⟨sh, tasks.set i ⟨jwt, lxm, .verifying params (.fetching false env.nowMs url)⟩⟩
    let acts := List.replicate 3 (.advance i env)
    let cache := sh.cache.insert iss ⟨saturatingAdd env.nowMs N.ttlMs, keys⟩
    run N.step start acts =
        ⟨{ sh with cache := cache }, tasks.set i ⟨jwt, lxm, .checking params keys v⟩⟩ ∧
      N.guardOrderFrom start acts = [] := by
  have hfetching : N.advance sh
      ⟨jwt, lxm, .verifying params (.fetching false env.nowMs url)⟩ env =
        (sh, .verifying params (.storing false env.nowMs keys)) := by
    simp only [advance, resolveStep, hiss, hkeys, Except.toOption, Option.map_some, Option.elim]
  have hstoring : N.advance sh ⟨jwt, lxm, .verifying params (.storing false env.nowMs keys)⟩ env =
      ({ sh with cache := sh.cache.insert iss ⟨saturatingAdd env.nowMs N.ttlMs, keys⟩ },
        .verifying params (.resolved false keys)) := by
    simp only [advance, resolveStep, hiss, Option.elim]
  have hresolved : ∀ sh : AuthShared,
      N.advance sh ⟨jwt, lxm, .verifying params (.resolved false keys)⟩ env =
        (sh, .checking params keys v) := by
    intro sh
    simp only [advance, afterResolve, hverify]
  intro start acts cache
  constructor
  · simp only [acts, start, cache, List.replicate, run_cons, run_nil, step_set hi, hfetching,
      hstoring, hresolved]
  · simp only [acts, start, List.replicate, guardOrderFrom, step_set hi, hfetching, hstoring,
      presented_set hi, ne_eq, reduceCtorEq, not_false_eq_true, implies_true, List.append_nil]

end

end AuthNode

/-- Alice's document. -/
def sampleDoc : DidDocument where
  id := "did:plc:alice"
  verificationMethod :=
    [⟨"did:plc:alice#atproto", "Multikey", "zQ3shjyJXUaRJC2GC43mX8aPrUhoTdoiongXhZjsdTzPKYZUM"⟩]

/-- Its JSON text. -/
def sampleDocJson : String :=
  String.join ["\x7b\"id\":\"did:plc:alice\",\"verificationMethod\":[\x7b",
    "\"id\":\"did:plc:alice#atproto\",\"type\":\"Multikey\",\"publicKeyMultibase\":",
    "\"zQ3shjyJXUaRJC2GC43mX8aPrUhoTdoiongXhZjsdTzPKYZUM\"\x7d]\x7d"]

/-- A server that pins nobody. -/
def sampleNode : AuthNode where
  server := sampleAuthServer
  pinned _ := none
  plcBaseUrl := "https://plc.directory"
  ttlMs := 300000
  parseDoc body := if body = sampleDocJson then some sampleDoc else none

/-- Second 1000000; the directory answers with Alice's document. -/
def sampleEnv : AuthEnv := ⟨1000000, 1000000000, .ok sampleDocJson⟩

/-- Some steps of the verification `i`. -/
def sampleTurn (i steps : Nat) : List AuthAct := List.replicate steps (.advance i sampleEnv)

/-- What Alice's token has to be bound to. -/
def sampleParams : ServiceAuthParams :=
  ⟨"did:plc:alice", sampleNode.server.serviceDid, "com.atproto.repo.uploadBlob", sampleEnv.nowUnixS⟩

lemma sample_docUrl :
    docUrl sampleNode.plcBaseUrl "did:plc:alice" = .ok "https://plc.directory/did:plc:alice" := by
  simp [docUrl, sampleNode, String.join]

lemma sample_keysFrom :
    sampleNode.keysFrom "did:plc:alice" sampleEnv.fetched = .ok aliceIssuer.didKey := by
  have hparse : sampleNode.parseDoc sampleDocJson = some sampleDoc := by
    simp only [sampleNode, if_true]
  have hlong : ¬ (asBytes "zQ3shjyJXUaRJC2GC43mX8aPrUhoTdoiongXhZjsdTzPKYZUM").length < 2 := by
    have hle := length_toList_le_asBytes "zQ3shjyJXUaRJC2GC43mX8aPrUhoTdoiongXhZjsdTzPKYZUM"
    simp only [String.reduceToList, List.length_cons] at hle
    omega
  have hsuffix : "#atproto".toList.isSuffixOf "did:plc:alice#atproto".toList = true := by decide
  have hfind : sampleDoc.verificationMethod.find?
      (fun m => "#atproto".toList.isSuffixOf m.id.toList) = some ⟨"did:plc:alice#atproto",
        "Multikey", "zQ3shjyJXUaRJC2GC43mX8aPrUhoTdoiongXhZjsdTzPKYZUM"⟩ :=
    List.find?_cons_of_pos hsuffix
  have hid : sampleDoc.id = "did:plc:alice" := rfl
  have hkey : signingKeyFromDoc "did:plc:alice" sampleDoc = .ok aliceIssuer.didKey := by
    rw [signingKeyFromDoc, if_neg (not_not.mpr hid), hfind]
    dsimp only
    rw [if_pos rfl, if_neg (not_or.mpr ⟨hlong, by decide⟩)]
    rfl
  exact bind_eq_ok.mpr ⟨sampleDocJson, rfl, bind_eq_ok.mpr ⟨sampleDoc, by rw [hparse]; rfl, hkey⟩⟩

lemma sample_verify :
    verifyServiceAuthJwt sampleNode.server.suite aliceIssuer.jwt aliceIssuer.didKey sampleParams =
      .ok aliceVerified := by
  rw [verifyServiceAuthJwt_eq_ok_iff]
  exact ⟨aliceIssuer.claims, sample_signedClaims (by simp [sampleIssuers]),
    ⟨rfl, rfl, rfl, (by decide : 1000000 < 1000060)⟩, rfl⟩

lemma sample_atprotoIss_node :
    atprotoIss sampleNode.server.suite aliceIssuer.jwt = some "did:plc:alice" :=
  sample_atprotoIss (by simp [sampleIssuers])

/-- A verification of Alice's token. -/
def sampleTask (phase : AuthPhase) : AuthTask :=
  ⟨aliceIssuer.jwt, "com.atproto.repo.uploadBlob", phase⟩

/-- Waiting for her document. -/
def sampleFetching : AuthPhase := .verifying sampleParams
  (.fetching false sampleEnv.nowMs "https://plc.directory/did:plc:alice")

/-- Verified under her key. -/
def sampleChecking : AuthPhase := .checking sampleParams aliceIssuer.didKey aliceVerified

def sampleGranted : AuthPhase := .answered (.authenticated "did:plc:alice") (some "n1")

/-- Her token, as the guard gets it. -/
def samplePresented : Presentation :=
  ⟨aliceIssuer.jwt, "com.atproto.repo.uploadBlob", sampleParams.nowUnixS,
    fun _ _ => some aliceIssuer.didKey⟩

/-- Her token arrives twice, and both verifications get to her document. -/
def sampleAsked : List AuthAct :=
  .arrive aliceIssuer.jwt "com.atproto.repo.uploadBlob" ::
    .arrive aliceIssuer.jwt "com.atproto.repo.uploadBlob" :: (sampleTurn 0 3 ++ sampleTurn 1 3)

/-- Both get to the guard. -/
def sampleVerified : List AuthAct := sampleAsked ++ (sampleTurn 0 3 ++ sampleTurn 1 3)

/-- Both are answered, the first one first. -/
def sampleAnswered : List AuthAct := sampleVerified ++ [.advance 0 sampleEnv, .advance 1 sampleEnv]

lemma sample_turn_fetching (sh : AuthShared) (tasks : List AuthTask) (i : Nat)
    (hi : i < tasks.length) (hcache : sh.cache = ∅) :
    (∃ misses, run sampleNode.step ⟨sh, tasks.set i (sampleTask .arrived)⟩ (sampleTurn i 3) =
        ⟨{ sh with misses := misses }, tasks.set i (sampleTask sampleFetching)⟩) ∧
      sampleNode.guardOrderFrom ⟨sh, tasks.set i (sampleTask .arrived)⟩ (sampleTurn i 3) = [] := by
  have hmiss : sh.hit "did:plc:alice" sampleEnv.nowMs = none := by simp [AuthShared.hit, hcache]
  have hpin : sampleNode.pinned "did:plc:alice" = none := rfl
  obtain ⟨hrun, horder⟩ := AuthNode.run_to_fetching sampleNode sh sampleEnv
    "com.atproto.repo.uploadBlob" hi sample_atprotoIss_node hpin hmiss sample_docUrl
  exact ⟨⟨_, hrun⟩, horder⟩

lemma sample_turn_checking (sh : AuthShared) (tasks : List AuthTask) (i : Nat)
    (hi : i < tasks.length) :
    (∃ cache, run sampleNode.step ⟨sh, tasks.set i (sampleTask sampleFetching)⟩ (sampleTurn i 3) =
        ⟨{ sh with cache := cache }, tasks.set i (sampleTask sampleChecking)⟩) ∧
      sampleNode.guardOrderFrom ⟨sh, tasks.set i (sampleTask sampleFetching)⟩ (sampleTurn i 3) =
        [] := by
  have hiss : sampleParams.expectedIss = "did:plc:alice" := rfl
  obtain ⟨hrun, horder⟩ := AuthNode.run_to_checking sampleNode sh sampleEnv
    "com.atproto.repo.uploadBlob" "https://plc.directory/did:plc:alice" hi hiss sample_keysFrom
    sample_verify
  exact ⟨⟨_, hrun⟩, horder⟩

/-- Both verifications wait for the document, and neither has reached the guard. -/
lemma sample_asked : ∃ sh : AuthShared, sh.replay = ∅ ∧
    sampleNode.after sampleAsked = ⟨sh, [sampleTask sampleFetching, sampleTask sampleFetching]⟩ ∧
    sampleNode.guardOrder sampleAsked = [] := by
  obtain ⟨⟨misses₀, hrun₀⟩, horder₀⟩ := sample_turn_fetching ⟨∅, 0, 0, ∅⟩
    [sampleTask .arrived, sampleTask .arrived] 0 Nat.two_pos rfl
  obtain ⟨⟨misses₁, hrun₁⟩, horder₁⟩ := sample_turn_fetching ⟨∅, 0, misses₀, ∅⟩
    [sampleTask sampleFetching, sampleTask .arrived] 1 Nat.one_lt_two rfl
  simp only [List.set_cons_zero, List.set_cons_succ] at hrun₀ horder₀ hrun₁ horder₁
  have harrived : sampleNode.step (sampleNode.step .start
      (.arrive aliceIssuer.jwt "com.atproto.repo.uploadBlob"))
      (.arrive aliceIssuer.jwt "com.atproto.repo.uploadBlob") =
        ⟨⟨∅, 0, 0, ∅⟩, [sampleTask .arrived, sampleTask .arrived]⟩ := rfl
  refine ⟨⟨∅, 0, misses₁, ∅⟩, rfl, ?_, ?_⟩
  · rw [AuthNode.after, sampleAsked, run_cons, run_cons, harrived, run_append, hrun₀, hrun₁]
  · rw [AuthNode.guardOrder, sampleAsked, AuthNode.guardOrderFrom, AuthNode.guardOrderFrom, harrived,
      AuthNode.guardOrderFrom_append, hrun₀, horder₀, horder₁]
    rfl

/-- Both are at the guard, and neither has reached it. -/
lemma sample_verified : ∃ sh : AuthShared, sh.replay = ∅ ∧
    sampleNode.after sampleVerified =
      ⟨sh, [sampleTask sampleChecking, sampleTask sampleChecking]⟩ ∧
    sampleNode.guardOrder sampleVerified = [] := by
  obtain ⟨sh, hreplay, hasked, horder⟩ := sample_asked
  obtain ⟨⟨cache₀, hrun₀⟩, horder₀⟩ := sample_turn_checking sh
    [sampleTask sampleFetching, sampleTask sampleFetching] 0 Nat.two_pos
  obtain ⟨⟨cache₁, hrun₁⟩, horder₁⟩ := sample_turn_checking { sh with cache := cache₀ }
    [sampleTask sampleChecking, sampleTask sampleFetching] 1 Nat.one_lt_two
  simp only [List.set_cons_zero, List.set_cons_succ] at hrun₀ horder₀ hrun₁ horder₁
  refine ⟨{ sh with cache := cache₁ }, hreplay, ?_, ?_⟩
  · rw [sampleVerified, AuthNode.after_append, hasked, run_append, hrun₀, hrun₁]
  · rw [sampleVerified, AuthNode.guardOrder_append, hasked, horder, AuthNode.guardOrderFrom_append,
      hrun₀, horder₀, horder₁]
    rfl

/-- The first is granted, and both have reached the guard. -/
lemma sample_answered :
    (sampleNode.after sampleAnswered).tasks[0]? = some (sampleTask sampleGranted) ∧
    sampleNode.guardOrder sampleAnswered = [(0, samplePresented), (1, samplePresented)] ∧
    sampleNode.server.verified samplePresented = some aliceVerified := by
  obtain ⟨sh, hreplay, hverified, horder⟩ := sample_verified
  have hsound : sampleNode.Verifies sampleVerified 0 aliceIssuer.jwt "com.atproto.repo.uploadBlob"
      sampleParams aliceIssuer.didKey aliceVerified :=
    (AuthNode.after_sound sampleNode sampleVerified).tasks 0 (sampleTask sampleChecking)
      (by rw [hverified]; rfl)
  have hunused : (Expiring.enter (∅ : ReplayGuard) "n1" 1000060 sampleParams.nowUnixS).2 = true := by
    rw [Expiring.enter, if_neg (by simp [Expiring.mem_prune_iff])]
  have hgrant : (AuthNode.guardStep sh sampleParams aliceVerified).2 = sampleGranted := by
    simp only [AuthNode.guardStep, aliceVerified, hreplay, ReplayGuard.checkAndRecord_eq, hunused,
      if_true, sampleGranted]
  refine ⟨?_, ?_, hsound.verified⟩
  · rw [sampleAnswered, AuthNode.after_append, hverified]
    exact congrArg (fun phase => some (sampleTask phase)) hgrant
  · rw [sampleAnswered, AuthNode.guardOrder_append, hverified, horder]
    rfl

/-- Alice's grant, followed back to her document. -/
theorem alice_granted_under_fresh_key :
    atprotoIss sampleAuthServer.suite aliceIssuer.jwt = some "did:plc:alice" ∧ ∃ env keys claims,
      sampleNode.Took sampleAnswered 0 env (sampleTask .arrived) ∧
      sampleNode.Fresh sampleAnswered 0 "did:plc:alice" keys ∧
      SignedClaims sampleAuthServer.suite aliceIssuer.jwt keys claims ∧
      Binds ⟨"did:plc:alice", sampleAuthServer.serviceDid, "com.atproto.repo.uploadBlob",
        env.nowUnixS⟩ claims ∧ claims.jti = some "n1" :=
  AuthNode.granted_under_fresh_key sampleNode sampleAnswered 0 (sampleTask sampleGranted)
    "did:plc:alice" (some "n1") sample_answered.1 rfl

/-- Of the two verifications of her token only the first is granted. -/
theorem alice_granted_once :
    {i | sampleNode.GrantedUntil sampleAnswered "n1" 1000060 i} = {0} := by
  obtain ⟨hgranted, horder, hverified⟩ := sample_answered
  have hclock : ∀ p ∈ sampleNode.presentations sampleAnswered, p.nowUnixS < 1000060 := by
    rw [AuthNode.presentations, horder]
    simp [samplePresented, sampleParams, sampleEnv]
  have hfirst : sampleNode.GrantedUntil sampleAnswered "n1" 1000060 0 :=
    ⟨samplePresented, aliceVerified, _, "did:plc:alice", by simp [horder], hverified, le_rfl,
      hgranted, rfl⟩
  exact (AuthNode.one_grant_while_alive sampleNode sampleAnswered "n1" 1000060
    hclock).eq_singleton_of_mem hfirst

/-- Her document is fetched from the directory. -/
theorem alice_fetched_confined :
    ConfinedUrl "https://plc.directory" "https://plc.directory/did:plc:alice" ∧
      sampleNode.pinned "did:plc:alice" = none := by
  obtain ⟨sh, -, hasked, -⟩ := sample_asked
  exact AuthNode.fetched_urls_confined sampleNode sampleAsked 1 _ sampleParams false
    sampleEnv.nowMs "https://plc.directory/did:plc:alice" (by rw [hasked]; rfl) rfl

end Ciss
