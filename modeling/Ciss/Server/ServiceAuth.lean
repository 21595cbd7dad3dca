import Ciss.Framework.Expiring
import Ciss.Framework.Machine
import Ciss.Framework.Outcome
import Ciss.Server.Identity
import Mathlib.Data.List.Induction

/-!
# Service-auth tokens

A caller of the atproto plane presents a compact token signed by the key its `iss` resolves to.
The verifier takes the curve from the resolved key and checks the signature before it reads a
claim; then issuer, audience, method and expiry.  A token that carries a `jti` is single use: the
`ReplayGuard` remembers the `jti` until the token's expiry.

The guard is an expiring set (`Framework/Expiring`) with the `jti` alone as its key, so that what
decides a presentation is whether *any* token with that `jti`, of whatever issuer, was granted and
is still alive.  `verify_service_auth_full` reads the clock once, and hands the reading to the
expiry check and to the guard; the two boundaries are the same.

What base64, JSON, multibase and the two curves do is taken as given (`TokenSuite`), and so is the
resolver, whose answers belong to the presentation.
-/

namespace Ciss

/-! ## Keys -/

/-- Why a token was refused. -/
inductive JwtError where
  | badDidKey
  | unsupportedKeyType
  | badSignature
  | malleableSignature
  | signatureInvalid
  | badJwtStructure
  | badHeader
  | badClaims
  | wrongIssuer
  | wrongAudience
  | wrongMethod
  | expired
  | replayed
  deriving DecidableEq, Repr

/-- One ECDSA curve; a point and a signature are given by their bytes. -/
structure Curve where
  /-- The bytes encode a point of the curve. -/
  fromSec1Bytes : Bytes → Bool
  /-- The bytes are a well-formed fixed-length signature. -/
  fromSlice : Bytes → Bool
  /-- `normalize_s` would change the signature. -/
  isHighS : Bytes → Bool
  /-- Point, message, signature. -/
  verify : Bytes → Bytes → Bytes → Bool

/-- The claims a token makes. -/
structure JwtClaims where
  iss : String
  aud : String
  lxm : Option String
  exp : Nat
  jti : Option String
  deriving DecidableEq, Repr

/-- The libraries token verification rests on. -/
structure TokenSuite where
  /-- Unpadded base64url. -/
  decodeBase64 : String → Option Bytes
  /-- The JSON texts of a header, of the `iss` alone, and of all claims. -/
  headerAlg : Bytes → Option String
  claimsIss : Bytes → Option String
  claims : Bytes → Option JwtClaims
  /-- `multibase::decode`. -/
  decodeMultibase : String → Option Bytes
  k256 : Curve
  p256 : Curve

/-- An atproto verification key, by curve. -/
inductive AtprotoKey where
  | secp256k1 (point : Bytes)
  | p256 (point : Bytes)
  deriving DecidableEq, Repr

/-- The multicodec prefix of a secp256k1 public key. -/
def secp256k1Prefix : Bytes := [0xe7, 0x01]

/-- The multicodec prefix of a P-256 public key. -/
def p256Prefix : Bytes := [0x80, 0x24]

/-- Parse an atproto `did:key:z…` into a verification key. -/
def AtprotoKey.fromDidKey (T : TokenSuite) (didKey : String) : Except JwtError AtprotoKey := do
  let multikey ← okOr (List.isPrefixOf? "did:key:".toList didKey.toList) .badDidKey
  let bytes ← okOr (T.decodeMultibase (String.ofList multikey)) .badDidKey
  if let some key := List.isPrefixOf? secp256k1Prefix bytes then
    if T.k256.fromSec1Bytes key then return .secp256k1 key else throw .badDidKey
  if let some key := List.isPrefixOf? p256Prefix bytes then
    if T.p256.fromSec1Bytes key then return .p256 key else throw .badDidKey
  throw .unsupportedKeyType

/-- Verify a fixed-length signature under a point of `curve`: only canonical ones are taken. -/
def Curve.check (curve : Curve) (point signingInput signature : Bytes) : Except JwtError Unit :=
  if ¬ curve.fromSlice signature then .error .badSignature
  else if curve.isHighS signature then .error .malleableSignature
  else if curve.verify point signingInput signature then .ok ()
  else .error .signatureInvalid

/-- Verify a signature, on the curve of the key. -/
def AtprotoKey.verify (T : TokenSuite) (key : AtprotoKey) (signingInput signature : Bytes) :
    Except JwtError Unit :=
  match key with
  | .secp256k1 point => T.k256.check point signingInput signature
  | .p256 point => T.p256.check point signingInput signature

/-! ## Tokens -/

/-- Exactly three segments: header, payload and signature. -/
def jwtSegments (jwt : String) : Option (String × String × String) :=
  match jwt.toList.splitOn '.' with
  | [h, p, s] => some (String.ofList h, String.ofList p, String.ofList s)
  | _ => none

/-- Three segments without a dot are the segments of the token they make. -/
lemma jwtSegments_join {h p s : String} (hh : '.' ∉ h.toList) (hp : '.' ∉ p.toList)
    (hs : '.' ∉ s.toList) : jwtSegments (String.join [h, ".", p, ".", s]) = some (h, p, s) := by
  have hsplit : (String.join [h, ".", p, ".", s]).toList.splitOn '.' =
      [h.toList, p.toList, s.toList] := by
    have hjoin : (String.join [h, ".", p, ".", s]).toList =
        h.toList ++ '.' :: (p.toList ++ '.' :: s.toList) := by
      simp [String.join]
    rw [hjoin, List.splitOn_append_cons_self_of_not_mem hh,
      List.splitOn_append_cons_self_of_not_mem hp, List.splitOn_eq_singleton hs]
  simp only [jwtSegments, hsplit, String.ofList_toList]

/-- base64url-decode a segment and parse it. -/
def decodeJson {α : Type} (T : TokenSuite) (parse : Bytes → Option α) (segment : String) :
    Option α :=
  (T.decodeBase64 segment).bind parse

/-- What the request requires of the token. -/
structure ServiceAuthParams where
  expectedIss : String
  expectedAud : String
  expectedLxm : String
  nowUnixS : Nat
  deriving DecidableEq, Repr

/-- A verified token: the caller, and what the replay guard needs. -/
structure Verified where
  did : String
  jti : Option String
  expUnixS : Nat
  deriving DecidableEq, Repr

/-- The checks on the claims, once the signature is good. -/
def checkClaims (params : ServiceAuthParams) (claims : JwtClaims) : Except JwtError Verified :=
  if claims.iss ≠ params.expectedIss then .error .wrongIssuer
  else if claims.aud ≠ params.expectedAud then .error .wrongAudience
  else if claims.lxm ≠ some params.expectedLxm then .error .wrongMethod
  else if claims.exp ≤ params.nowUnixS then .error .expired
  else .ok ⟨claims.iss, claims.jti, claims.exp⟩

/-- The header names a known ECDSA algorithm; which curve verifies is not taken from it. -/
def checkAlg (alg : String) : Except JwtError Unit :=
  if alg ≠ "ES256K" ∧ alg ≠ "ES256" then .error .badHeader else .ok ()

/-- Verify a token against the resolved signing key.  The signing input is the token up to its
second dot. -/
def verifyServiceAuthJwt (T : TokenSuite) (jwt signingKey : String) (params : ServiceAuthParams) :
    Except JwtError Verified := do
  let (h, p, s) ← okOr (jwtSegments jwt) .badJwtStructure
  let alg ← okOr (decodeJson T T.headerAlg h) .badHeader
  checkAlg alg
  let signature ← okOr (T.decodeBase64 s) .badSignature
  let key ← AtprotoKey.fromDidKey T signingKey
  key.verify T (asBytes (String.join [h, ".", p])) signature
  let claims ← okOr (decodeJson T T.claims p) .badClaims
  checkClaims params claims

/-- The `iss` of a token nothing has verified yet. -/
def peekIss (T : TokenSuite) (jwt : String) : Except JwtError String := do
  let (_, p, _) ← okOr (jwtSegments jwt) .badJwtStructure
  okOr (decodeJson T T.claimsIss p) .badClaims

/-- A token of three segments whose header names an ECDSA algorithm, signed by `signingKey`, and
what it claims. -/
def SignedClaims (T : TokenSuite) (jwt signingKey : String) (claims : JwtClaims) : Prop :=
  ∃ h p s alg signature key, jwtSegments jwt = some (h, p, s) ∧
    decodeJson T T.headerAlg h = some alg ∧ (alg = "ES256K" ∨ alg = "ES256") ∧
    T.decodeBase64 s = some signature ∧ AtprotoKey.fromDidKey T signingKey = .ok key ∧
    key.verify T (asBytes (String.join [h, ".", p])) signature = .ok () ∧
    decodeJson T T.claims p = some claims

/-- The claims bind the token to the request: issuer, service, method, and a time not yet past. -/
structure Binds (params : ServiceAuthParams) (claims : JwtClaims) : Prop where
  iss : claims.iss = params.expectedIss
  aud : claims.aud = params.expectedAud
  lxm : claims.lxm = some params.expectedLxm
  exp : params.nowUnixS < claims.exp

lemma checkAlg_eq_ok_iff {alg : String} {u : Unit} :
    checkAlg alg = .ok u ↔ alg = "ES256K" ∨ alg = "ES256" := by
  rw [checkAlg, guard_eq_ok]
  tauto

lemma checkClaims_eq_ok_iff {params : ServiceAuthParams} {claims : JwtClaims} {v : Verified} :
    checkClaims params claims = .ok v ↔
      Binds params claims ∧ v = ⟨claims.iss, claims.jti, claims.exp⟩ := by
  rw [checkClaims]
  constructor
  · intro h
    split_ifs at h with hiss haud hlxm hexp
    exact ⟨⟨not_not.1 hiss, not_not.1 haud, not_not.1 hlxm, by omega⟩, (Except.ok.inj h).symm⟩
  · rintro ⟨h, rfl⟩
    rw [if_neg (not_not.2 h.iss), if_neg (not_not.2 h.aud), if_neg (not_not.2 h.lxm),
      if_neg (by have := h.exp; omega)]

/-- **A token verifies exactly when** it is signed by the resolved key and its claims bind it to
the request. -/
theorem verifyServiceAuthJwt_eq_ok_iff {T : TokenSuite} {jwt signingKey : String}
    {params : ServiceAuthParams} {v : Verified} :
    verifyServiceAuthJwt T jwt signingKey params = .ok v ↔
      ∃ claims, SignedClaims T jwt signingKey claims ∧ Binds params claims ∧
        v = ⟨claims.iss, claims.jti, claims.exp⟩ := by
  simp only [verifyServiceAuthJwt, bind_eq_ok, okOr_eq_ok, Prod.exists, checkAlg_eq_ok_iff,
    checkClaims_eq_ok_iff]
  constructor
  · rintro ⟨h, p, s, hsegs, alg, halg, _, hknown, signature, hsig, key, hkey, _, hverify, claims,
      hclaims, hbinds⟩
    exact ⟨claims, ⟨h, p, s, alg, signature, key, hsegs, halg, hknown, hsig, hkey, hverify,
      hclaims⟩, hbinds⟩
  · rintro ⟨claims, ⟨h, p, s, alg, signature, key, hsegs, halg, hknown, hsig, hkey, hverify,
      hclaims⟩, hbinds⟩
    exact ⟨h, p, s, hsegs, alg, halg, (), hknown, signature, hsig, key, hkey, (), hverify, claims,
      hclaims, hbinds⟩

/-! ## Authenticating a caller -/

/-- The claimed issuer, when it is an atproto identifier: an internal `id:` is refused. -/
def atprotoIss (T : TokenSuite) (jwt : String) : Option String :=
  match peekIss T jwt with
  | .error _ => none
  | .ok iss =>
      match Did.parse iss with
      | .error _ => none
      | .ok did => if did.space = .atproto then some iss else none

/-- Verify against a resolved key; on a signature mismatch retry once with a refreshed one. -/
def verifyResolved (T : TokenSuite) (jwt : String) (params : ServiceAuthParams)
    (resolve : String → Bool → Option String) : Option Verified :=
  match resolve params.expectedIss false with
  | none => none
  | some keys =>
      match verifyServiceAuthJwt T jwt keys params with
      | .ok v => some v
      | .error .signatureInvalid =>
          match resolve params.expectedIss true with
          | none => none
          | some fresh => (verifyServiceAuthJwt T jwt fresh params).toOption
      | .error _ => none

/-- Who is making a request, after authentication. -/
inductive Principal where
  | anonymous
  | authenticated (did : String)
  deriving DecidableEq, Repr

/-- What authentication needs of the server. -/
structure AuthServer where
  suite : TokenSuite
  serviceDid : String

/-- One request with a service-auth token: the method called, the clock at the time, and what the
resolver answers (the second argument asks it to bypass its cache). -/
structure Presentation where
  jwt : String
  lxm : String
  nowUnixS : Nat
  resolve : String → Bool → Option String

/-- `verify_service_auth_full` up to the replay check. -/
def AuthServer.verified (S : AuthServer) (p : Presentation) : Option Verified :=
  (atprotoIss S.suite p.jwt).bind fun iss =>
    verifyResolved S.suite p.jwt ⟨iss, S.serviceDid, p.lxm, p.nowUnixS⟩ p.resolve

/-- The `jti` set of the tokens granted and still alive. -/
abbrev ReplayGuard := Expiring String compare

/-- Record `jti` until `exp`; refuse it if it is recorded and not yet expired. -/
def ReplayGuard.checkAndRecord (guard : ReplayGuard) (jti : String) (expUnixS nowUnixS : Nat) :
    ReplayGuard × Except JwtError Unit :=
  let seen := guard.filter fun _ exp => exp > nowUnixS
  if seen.contains jti then (seen, .error .replayed) else (seen.insert jti expUnixS, .ok ())

/-- Verify a service-auth token; any failure is the anonymous caller. -/
def AuthServer.verifyServiceAuthFull (S : AuthServer) (replay : ReplayGuard) (p : Presentation) :
    ReplayGuard × Principal × Option String :=
  match S.verified p with
  | none => (replay, .anonymous, none)
  | some v =>
      match v.jti with
      | none => (replay, .authenticated v.did, none)
      | some jti =>
          match replay.checkAndRecord jti v.expUnixS p.nowUnixS with
          | (replay, .error _) => (replay, .anonymous, none)
          | (replay, .ok _) => (replay, .authenticated v.did, some jti)

/-! ## What checks out -/

/-- The key the issuer resolves to: the cached one, or the refreshed one when the signature does
not verify under the cached. -/
def ResolvedKey (T : TokenSuite) (jwt : String) (params : ServiceAuthParams)
    (resolve : String → Bool → Option String) (signingKey : String) : Prop :=
  resolve params.expectedIss false = some signingKey ∨
    ∃ stale, resolve params.expectedIss false = some stale ∧
      verifyServiceAuthJwt T jwt stale params = .error .signatureInvalid ∧
      resolve params.expectedIss true = some signingKey

/-- The presentation's token is one of an atproto issuer, signed by the key that issuer resolves
to, and bound to this service, to the method called and to a time not yet past. -/
def AuthServer.ChecksOut (S : AuthServer) (p : Presentation) (v : Verified) : Prop :=
  ∃ iss signingKey claims, atprotoIss S.suite p.jwt = some iss ∧
    ResolvedKey S.suite p.jwt ⟨iss, S.serviceDid, p.lxm, p.nowUnixS⟩ p.resolve signingKey ∧
    SignedClaims S.suite p.jwt signingKey claims ∧
    Binds ⟨iss, S.serviceDid, p.lxm, p.nowUnixS⟩ claims ∧
    v = ⟨claims.iss, claims.jti, claims.exp⟩

lemma verifyResolved_eq_some_iff {T : TokenSuite} {jwt : String} {params : ServiceAuthParams}
    {resolve : String → Bool → Option String} {v : Verified} :
    verifyResolved T jwt params resolve = some v ↔
      ∃ signingKey, ResolvedKey T jwt params resolve signingKey ∧
        verifyServiceAuthJwt T jwt signingKey params = .ok v := by
  rw [verifyResolved]
  constructor
  · intro h
    split at h
    · cases h
    · rename_i keys hkeys
      split at h
      · rename_i w hw
        exact ⟨keys, Or.inl hkeys, by rw [hw, Option.some.inj h]⟩
      · rename_i hstale
        split at h
        · cases h
        · rename_i fresh hfresh
          exact ⟨fresh, Or.inr ⟨keys, hkeys, hstale, hfresh⟩, toOption_eq_some.1 h⟩
      · cases h
  · rintro ⟨signingKey, hcached | ⟨stale, hcached, hstale, hfresh⟩, hv⟩
    · simp only [hcached, hv]
    · simp only [hcached, hstale, hfresh, hv, Except.toOption]

/-- **What reaches the replay check** is a token that checks out, and every one of them does. -/
theorem AuthServer.verified_eq_some_iff {S : AuthServer} {p : Presentation} {v : Verified} :
    S.verified p = some v ↔ S.ChecksOut p v := by
  rw [AuthServer.verified, Option.bind_eq_some_iff]
  simp only [verifyResolved_eq_some_iff, verifyServiceAuthJwt_eq_ok_iff, ChecksOut]
  constructor
  · rintro ⟨iss, hiss, key, hkey, claims, hsigned, hbinds, hv⟩
    exact ⟨iss, key, claims, hiss, hkey, hsigned, hbinds, hv⟩
  · rintro ⟨iss, key, claims, hiss, hkey, hsigned, hbinds, hv⟩
    exact ⟨iss, hiss, key, hkey, claims, hsigned, hbinds, hv⟩

/-! ## The guard as an expiring set -/

lemma ReplayGuard.checkAndRecord_eq (guard : ReplayGuard) (jti : String) (exp now : Nat) :
    guard.checkAndRecord jti exp now = ((guard.enter jti exp now).1,
      if (guard.enter jti exp now).2 then .ok () else .error .replayed) := by
  simp only [checkAndRecord, Expiring.enter, Expiring.prune, gt_iff_lt,
    ← Std.ExtTreeMap.contains_iff_mem]
  split <;> rfl

section

variable {S : AuthServer} {replay : ReplayGuard} {p : Presentation} {v : Verified} {jti : String}

/-- What does not check out, or carries no `jti`, does not touch the guard. -/
lemma verifyServiceAuthFull_of_no_jti (h : (S.verified p).bind Verified.jti = none) :
    (S.verifyServiceAuthFull replay p).1 = replay ∧
      (S.verifyServiceAuthFull replay p).2.2 = none := by
  rw [AuthServer.verifyServiceAuthFull]
  cases hv : S.verified p with
  | none => exact ⟨rfl, rfl⟩
  | some v =>
      rw [hv, Option.bind_some] at h
      simp only [h, and_self]

/-- A token with a `jti` is granted when the guard admits it. -/
lemma verifyServiceAuthFull_of_jti (hv : S.verified p = some v) (hjti : v.jti = some jti) :
    S.verifyServiceAuthFull replay p = ((replay.enter jti v.expUnixS p.nowUnixS).1,
      if (replay.enter jti v.expUnixS p.nowUnixS).2 then (.authenticated v.did, some jti)
      else (.anonymous, none)) := by
  simp only [AuthServer.verifyServiceAuthFull, hv, hjti, ReplayGuard.checkAndRecord_eq]
  cases (replay.enter jti v.expUnixS p.nowUnixS).2 <;> rfl

lemma granted_of_enter (hv : S.verified p = some v) (hjti : v.jti = some jti) :
    (S.verifyServiceAuthFull replay p).2 = (.authenticated v.did, some jti) ↔
      (replay.enter jti v.expUnixS p.nowUnixS).2 = true := by
  rw [verifyServiceAuthFull_of_jti hv hjti]
  cases (replay.enter jti v.expUnixS p.nowUnixS).2 <;> simp

end

/-! ## Runs -/

/-- The answers to a sequence of presentations, from the server's start. -/
def AuthServer.answers (S : AuthServer) (ps : List Presentation) :
    List (Principal × Option String) :=
  answersTo S.verifyServiceAuthFull ∅ ps

/-- The guard behind a sequence of presentations. -/
def AuthServer.replayAfter (S : AuthServer) (ps : List Presentation) : ReplayGuard :=
  afterAnswers S.verifyServiceAuthFull ∅ ps

/-- The `n`-th presentation was answered by a grant of `v`. -/
def AuthServer.Granted (S : AuthServer) (ps : List Presentation) (n : Nat) (v : Verified) : Prop :=
  (S.answers ps)[n]? = some (.authenticated v.did, v.jti)

/-- The tokens granted, by `jti` and expiry. -/
def AuthServer.grants (S : AuthServer) (ps : List Presentation) : Set (String × Nat) :=
  {entry | ∃ m p v, ps[m]? = some p ∧ S.ChecksOut p v ∧ S.Granted ps m v ∧
    v.jti = some entry.1 ∧ v.expUnixS = entry.2}

section

variable {S : AuthServer} {ps : List Presentation} {p : Presentation} {v w : Verified}

lemma length_answers : (S.answers ps).length = ps.length := length_answersTo ..

lemma answers_append_singleton : S.answers (ps ++ [p]) =
    S.answers ps ++ [(S.verifyServiceAuthFull (S.replayAfter ps) p).2] :=
  answersTo_append ..

lemma replayAfter_append_singleton :
    S.replayAfter (ps ++ [p]) = (S.verifyServiceAuthFull (S.replayAfter ps) p).1 :=
  run_append

/-- What was answered stays answered. -/
lemma granted_append {qs : List Presentation} {n : Nat} (hn : n < ps.length) :
    S.Granted (ps ++ qs) n v ↔ S.Granted ps n v := by
  rw [AuthServer.Granted, AuthServer.answers, answersTo_append,
    List.getElem?_append_left (by rw [length_answersTo]; exact hn), ← AuthServer.answers,
    AuthServer.Granted]

lemma granted_last : S.Granted (ps ++ [p]) ps.length v ↔
    (S.verifyServiceAuthFull (S.replayAfter ps) p).2 = (.authenticated v.did, v.jti) := by
  rw [AuthServer.Granted, answers_append_singleton,
    List.getElem?_append_right (by rw [length_answers]), length_answers, Nat.sub_self,
    List.getElem?_cons_zero, Option.some.injEq]

/-- One more presentation adds what it is granted. -/
lemma grants_append_singleton {entry : String × Nat} :
    entry ∈ S.grants (ps ++ [p]) ↔ entry ∈ S.grants ps ∨ ∃ v, S.verified p = some v ∧
      (S.verifyServiceAuthFull (S.replayAfter ps) p).2 = (.authenticated v.did, v.jti) ∧
      v.jti = some entry.1 ∧ v.expUnixS = entry.2 := by
  constructor
  · rintro ⟨m, q, v, hq, hv, hgranted, hentry⟩
    rcases Nat.lt_or_ge m ps.length with hm | hm
    · rw [List.getElem?_append_left hm] at hq
      exact Or.inl ⟨m, q, v, hq, hv, (granted_append hm).1 hgranted, hentry⟩
    · obtain ⟨hlast, rfl⟩ : m = ps.length ∧ p = q := by
        have hlen := (List.getElem?_eq_some_iff.1 hq).1
        rw [List.length_append, List.length_singleton] at hlen
        obtain rfl : m = ps.length := by omega
        rw [List.getElem?_append_right le_rfl, Nat.sub_self, List.getElem?_cons_zero] at hq
        exact ⟨rfl, Option.some.inj hq⟩
      subst hlast
      exact Or.inr ⟨v, AuthServer.verified_eq_some_iff.2 hv, granted_last.1 hgranted, hentry⟩
  · rintro (⟨m, q, v, hq, hv, hgranted, hentry⟩ | ⟨v, hv, hgranted, hentry⟩)
    · have hm := (List.getElem?_eq_some_iff.1 hq).1
      exact ⟨m, q, v, by rw [List.getElem?_append_left hm, hq], hv, (granted_append hm).2 hgranted,
        hentry⟩
    · refine ⟨ps.length, p, v, ?_, AuthServer.verified_eq_some_iff.1 hv, granted_last.2 hgranted,
        hentry⟩
      rw [List.getElem?_append_right le_rfl, Nat.sub_self, List.getElem?_cons_zero]

/-- **One presentation**, made no earlier than those before it, keeps the guard in step with what
was granted. -/
lemma logs_grants_append {t : Nat} (h : (S.replayAfter ps).Logs (S.grants ps) t)
    (ht : t ≤ p.nowUnixS) :
    (S.replayAfter (ps ++ [p])).Logs (S.grants (ps ++ [p])) p.nowUnixS := by
  intro key exp hexp
  rw [replayAfter_append_singleton, grants_append_singleton]
  cases hjti : (S.verified p).bind Verified.jti with
  | none =>
      rw [(verifyServiceAuthFull_of_no_jti hjti).1, h.mono ht key exp hexp]
      refine (or_iff_left ?_).symm
      rintro ⟨v, hv, -, hvjti, -⟩
      rw [hv, Option.bind_some, hvjti] at hjti
      cases hjti
  | some jti =>
      obtain ⟨v, hv, hvjti⟩ := Option.bind_eq_some_iff.1 hjti
      have henter : Expiring.Logs ((S.replayAfter ps).enter jti v.expUnixS p.nowUnixS).1 _ _ :=
        h.enter ht
      have hnew : (key, exp) = (jti, v.expUnixS) ↔ v.jti = some key ∧ v.expUnixS = exp := by
        rw [hvjti, Option.some.injEq, Prod.mk.injEq, eq_comm, eq_comm (a := exp)]
      rw [verifyServiceAuthFull_of_jti hv hvjti]
      refine (henter key exp hexp).trans (or_congr Iff.rfl ?_)
      rw [Set.mem_ofPred_eq, hnew, hv]
      constructor
      · rintro ⟨hadmitted, hentry⟩
        exact ⟨v, rfl, by rw [if_pos hadmitted, hvjti], hentry⟩
      · rintro ⟨w, hw, hgranted, hentry⟩
        obtain rfl := Option.some.inj hw
        refine ⟨?_, hentry⟩
        by_contra hrefused
        rw [if_neg hrefused] at hgranted
        cases hgranted

/-- Presentations in the order of the clock keep the guard in step with what was granted. -/
theorem logs_grants (hclock : ps.Pairwise fun p q => p.nowUnixS ≤ q.nowUnixS) {now : Nat}
    (hnow : ∀ p ∈ ps, p.nowUnixS ≤ now) : (S.replayAfter ps).Logs (S.grants ps) now := by
  induction ps using List.reverseRecOn generalizing now with
  | nil =>
      have hnone : S.grants [] = ∅ := by
        refine Set.eq_empty_of_forall_notMem fun entry h => ?_
        obtain ⟨m, q, v, hq, -⟩ := h
        simp at hq
      rw [hnone]
      exact Expiring.logs_empty
  | append_singleton ps p ih =>
      rw [List.pairwise_append] at hclock
      have hlogs := ih hclock.1 fun q hq => hclock.2.2 q hq p (List.mem_singleton_self p)
      exact (logs_grants_append hlogs le_rfl).mono (hnow p (by simp))

/-- The presentation after `ps` is granted when no alive grant has its `jti`. -/
lemma granted_last_iff (hclock : (ps ++ [p]).Pairwise fun p q => p.nowUnixS ≤ q.nowUnixS)
    {jti : String} (hv : S.ChecksOut p v) (hjti : v.jti = some jti) :
    S.Granted (ps ++ [p]) ps.length v ↔ ∀ e, (jti, e) ∈ S.grants ps → e ≤ p.nowUnixS := by
  rw [List.pairwise_append] at hclock
  have hlogs := logs_grants (S := S) hclock.1 fun q hq =>
    hclock.2.2 q hq p (List.mem_singleton_self p)
  rw [granted_last, hjti, granted_of_enter (AuthServer.verified_eq_some_iff.2 hv) hjti]
  exact hlogs.enters_iff le_rfl

/-- **Single use, by the `jti`.**  For presentations in the order of the clock, a token with a
`jti` that checks out is granted exactly when no token with that `jti`, of whatever issuer, was
granted before and is still alive. -/
theorem granted_iff_jti_unused (S : AuthServer) (ps : List Presentation)
    (hclock : ps.Pairwise fun p q => p.nowUnixS ≤ q.nowUnixS) (n : Nat) (p : Presentation)
    (v : Verified) (jti : String) (hp : ps[n]? = some p) (hv : S.ChecksOut p v)
    (hjti : v.jti = some jti) :
    S.Granted ps n v ↔ ∀ m q w, m < n → ps[m]? = some q → S.ChecksOut q w → w.jti = some jti →
      S.Granted ps m w → w.expUnixS ≤ p.nowUnixS := by
  obtain ⟨hn, hget⟩ := List.getElem?_eq_some_iff.1 hp
  have hsplit : (ps.take n ++ [p]) ++ ps.drop (n + 1) = ps := by
    rw [← hget, List.take_append_getElem, List.take_append_drop]
  have hlen : (ps.take n).length = n := List.length_take_of_le hn.le
  have hgranted : S.Granted ps n v ↔ S.Granted (ps.take n ++ [p]) (ps.take n).length v := by
    conv_lhs => rw [← hsplit]
    rw [hlen]
    exact granted_append (by rw [List.length_append, List.length_singleton]; omega)
  have hpast : ∀ m w, m < n → (S.Granted ps m w ↔ S.Granted (ps.take n) m w) := by
    intro m w hm
    conv_lhs => rw [← List.take_append_drop n ps]
    exact granted_append (by omega)
  have hclock' : (ps.take n ++ [p]).Pairwise fun p q => p.nowUnixS ≤ q.nowUnixS := by
    rw [← hsplit] at hclock
    exact (List.pairwise_append.1 hclock).1
  rw [hgranted, granted_last_iff hclock' hv hjti]
  constructor
  · intro h m q w hm hq hw hwjti hwgranted
    exact h _ ⟨m, q, w, by rw [List.getElem?_take_of_lt hm, hq], hw, (hpast m w hm).1 hwgranted,
      hwjti, rfl⟩
  · rintro h e ⟨m, q, w, hq, hw, hwgranted, hwjti, rfl⟩
    have hm : m < n := by
      have := (List.getElem?_eq_some_iff.1 hq).1
      omega
    rw [List.getElem?_take_of_lt hm] at hq
    exact h m q w hm hq hw hwjti ((hpast m w hm).2 hwgranted)

end

/-! ## Two issuers with one identifier -/

/-- One issuer of the test tokens: its signing key, the segments of its token, and the signature
the third of them encodes. -/
structure SampleIssuer where
  iss : String
  didKey : String
  point : String
  payload : String
  signature : String
  rs : String

/-- The header `mint_service_auth_jwt` writes. -/
def sampleHeader : String := "eyJ0eXAiOiJKV1QiLCJhbGciOiJFUzI1NksifQ"

def aliceIssuer : SampleIssuer where
  iss := "did:plc:alice"
  didKey := "did:key:zQ3shjyJXUaRJC2GC43mX8aPrUhoTdoiongXhZjsdTzPKYZUM"
  point := "034f355bdcb7cc0af728ef3cceb9615d90684bb5b2ca5f859ab0f0b704075871aa"
  payload := String.join ["eyJpc3MiOiJkaWQ6cGxjOmFsaWNlIiwiYXVkIjoiZGlkOndlYjpjaXNzLmNyb2Z0LmluZyIsImx4bSI6",
    "ImNvbS5hdHByb3RvLnJlcG8udXBsb2FkQmxvYiIsImV4cCI6MTAwMDA2MCwianRpIjoibjEifQ"]
  signature := String.join ["uW7LE7okfmAM6E4tVgnk82bXIYVmTvq3ijb4ChSK2upavWJvVjRT3GskR_x82EZFeUpjctq9RVCVYAlH",
    "6RlohQ"]
  rs := String.join ["b96ecb13ba247e600ce84e2d5609e4f366d72185664efab78a36f80a148adaea5abd626f563453dc",
    "6b2447fc7cd84645794a6372dabd455095600947e9196885"]

def bobIssuer : SampleIssuer where
  iss := "did:plc:bob"
  didKey := "did:key:zQ3shS9i8ufXsDMmNUWAzJDryVeJeQjh2cQNVA6Sc3r9W8wnv"
  point := "02466d7fcae563e5cb09a0d1870bb580344804617879a14949cf22285f1bae3f27"
  payload := String.join ["eyJpc3MiOiJkaWQ6cGxjOmJvYiIsImF1ZCI6ImRpZDp3ZWI6Y2lzcy5jcm9mdC5pbmciLCJseG0iOiJj",
    "b20uYXRwcm90by5yZXBvLnVwbG9hZEJsb2IiLCJleHAiOjEwMDAwNjAsImp0aSI6Im4xIn0"]
  signature := String.join ["0ctsPQWThbzv7hVXm9bL7PpYXsjZVH81-lr5fNYQXOseo7kUczeJdHlKUOFuT7eNyGEu1FXWTjm_Ge1U",
    "VnKt3w"]
  rs := String.join ["d1cb6c3d059385bcefee15579bd6cbecfa585ec8d9547f35fa5af97cd6105ceb1ea3b91473378974",
    "794a50e16e4fb78dc8612ed455d64e39bf19ed545672addf"]

def sampleIssuers : List SampleIssuer := [aliceIssuer, bobIssuer]

namespace SampleIssuer

variable (i : SampleIssuer)

/-- The claims of the issuer's token; both carry the `jti` `n1`. -/
def claims : JwtClaims :=
  ⟨i.iss, "did:web:ciss.croft.ing", some "com.atproto.repo.uploadBlob", 1000060, some "n1"⟩

/-- The JSON text of the claims. -/
def claimsJson : String :=
  String.join ["\x7b\"iss\":\"", i.iss, "\",\"aud\":\"did:web:ciss.croft.ing\",",
    "\"lxm\":\"com.atproto.repo.uploadBlob\",\"exp\":1000060,\"jti\":\"n1\"\x7d"]

def jwt : String := String.join [sampleHeader, ".", i.payload, ".", i.signature]

def signingInput : Bytes := asBytes (String.join [sampleHeader, ".", i.payload])

end SampleIssuer

/-- The header's JSON text. -/
def sampleHeaderJson : String := "\x7b\"typ\":\"JWT\",\"alg\":\"ES256K\"\x7d"

/-- The libraries, as far as the two tokens need them. -/
def sampleSuite : TokenSuite where
  decodeBase64 s :=
    if s = sampleHeader then some (asBytes sampleHeaderJson)
    else sampleIssuers.findSome? fun i =>
      if s = i.payload then some (asBytes i.claimsJson)
      else if s = i.signature then hexDecode i.rs
      else none
  headerAlg bytes := if bytes = asBytes sampleHeaderJson then some "ES256K" else none
  claimsIss bytes := (sampleIssuers.find? fun i => bytes = asBytes i.claimsJson).map (·.iss)
  claims bytes := (sampleIssuers.find? fun i => bytes = asBytes i.claimsJson).map (·.claims)
  decodeMultibase s := (sampleIssuers.find? fun i => String.join ["did:key:", s] = i.didKey).bind
    fun i => hexDecode (String.join ["e701", i.point])
  k256 :=
    { fromSec1Bytes := fun point => sampleIssuers.any fun i => hexDecode i.point = some point
      fromSlice := fun signature => signature.length = 64
      isHighS := fun _ => false
      verify := fun point message signature => sampleIssuers.any fun i =>
        hexDecode i.point = some point && message = i.signingInput &&
          hexDecode i.rs = some signature }
  p256 := ⟨fun _ => false, fun _ => false, fun _ => false, fun _ _ _ => false⟩

def sampleAuthServer : AuthServer := ⟨sampleSuite, "did:web:ciss.croft.ing"⟩

/-- The issuer's token, presented once at second 1000000. -/
def SampleIssuer.presentation (i : SampleIssuer) : Presentation where
  jwt := i.jwt
  lxm := "com.atproto.repo.uploadBlob"
  nowUnixS := 1000000
  resolve did _ := (sampleIssuers.find? fun i => i.iss = did).map (·.didKey)

/-- Alice's token, then Bob's. -/
def samplePresentations : List Presentation := [aliceIssuer.presentation, bobIssuer.presentation]

def aliceVerified : Verified := ⟨"did:plc:alice", some "n1", 1000060⟩

def bobVerified : Verified := ⟨"did:plc:bob", some "n1", 1000060⟩

lemma dot_notMem_toList {l : List Char} (h : '.' ∉ l) : '.' ∉ (String.ofList l).toList := by
  rwa [String.toList_ofList]

lemma dot_notMem_join {l : List String} (h : ∀ s ∈ l, '.' ∉ s.toList) :
    '.' ∉ (String.join l).toList := by
  simpa only [String.toList_join, List.mem_flatMap, not_exists, not_and] using h

lemma sample_segments {i : SampleIssuer} (hi : i ∈ sampleIssuers) :
    jwtSegments i.jwt = some (sampleHeader, i.payload, i.signature) := by
  have hdots : ∀ i ∈ sampleIssuers, '.' ∉ i.payload.toList ∧ '.' ∉ i.signature.toList := by
    -- the texts are compared as written, before they are joined
    simp only [sampleIssuers, List.forall_mem_cons, List.not_mem_nil, false_imp_iff, implies_true,
      and_true]
    refine ⟨⟨?_, ?_⟩, ?_, ?_⟩
    all_goals
      refine dot_notMem_join ?_
      simp only [List.forall_mem_cons, List.not_mem_nil, false_imp_iff, implies_true, and_true]
      exact ⟨dot_notMem_toList (by decide), dot_notMem_toList (by decide)⟩
  exact jwtSegments_join (dot_notMem_toList (by decide)) (hdots i hi).1 (hdots i hi).2

lemma sample_atprotoIss {i : SampleIssuer} (hi : i ∈ sampleIssuers) :
    atprotoIss sampleSuite i.jwt = some i.iss := by
  have hclaimsIss : ∀ i ∈ sampleIssuers,
      decodeJson sampleSuite sampleSuite.claimsIss i.payload = some i.iss := by decide +kernel
  have hspace : ∀ i ∈ sampleIssuers, (Did.parse i.iss).toOption.map Did.space = some .atproto := by
    decide +kernel
  have hpeek : peekIss sampleSuite i.jwt = .ok i.iss := by
    rw [peekIss, sample_segments hi]
    exact okOr_eq_ok.2 (hclaimsIss i hi)
  obtain ⟨did, hdid, hatproto⟩ := Option.map_eq_some_iff.1 (hspace i hi)
  simp only [atprotoIss, hpeek, toOption_eq_some.1 hdid, hatproto, if_true]

/-- Each token is signed by its issuer's key and carries its issuer's claims. -/
lemma sample_signedClaims {i : SampleIssuer} (hi : i ∈ sampleIssuers) :
    SignedClaims sampleSuite i.jwt i.didKey i.claims := by
  have hheader : decodeJson sampleSuite sampleSuite.headerAlg sampleHeader = some "ES256K" := by
    decide +kernel
  have hclaims : ∀ i ∈ sampleIssuers,
      decodeJson sampleSuite sampleSuite.claims i.payload = some i.claims := by decide +kernel
  have hsignature : ∀ i ∈ sampleIssuers, ∃ point ∈ hexDecode i.point, ∃ rs ∈ hexDecode i.rs,
      sampleSuite.decodeBase64 i.signature = some rs ∧
      AtprotoKey.fromDidKey sampleSuite i.didKey = .ok (.secp256k1 point) ∧
      AtprotoKey.verify sampleSuite (.secp256k1 point)
        (asBytes (String.join [sampleHeader, ".", i.payload])) rs = .ok () := by
    decide +kernel
  obtain ⟨point, -, rs, -, hrs, hkey, hverify⟩ := hsignature i hi
  exact ⟨sampleHeader, i.payload, i.signature, "ES256K", rs, .secp256k1 point, sample_segments hi,
    hheader, Or.inl rfl, hrs, hkey, hverify, hclaims i hi⟩

lemma sample_checksOut {i : SampleIssuer} (hi : i ∈ sampleIssuers) :
    sampleAuthServer.ChecksOut i.presentation ⟨i.iss, some "n1", 1000060⟩ := by
  have hresolve : ∀ i ∈ sampleIssuers,
      i.presentation.resolve i.iss false = some i.didKey := by decide +kernel
  exact ⟨i.iss, i.didKey, i.claims, sample_atprotoIss hi, Or.inl (hresolve i hi),
    sample_signedClaims hi, ⟨rfl, rfl, rfl, (by decide : 1000000 < 1000060)⟩, rfl⟩

lemma alice_checksOut : sampleAuthServer.ChecksOut aliceIssuer.presentation aliceVerified :=
  sample_checksOut (by simp [sampleIssuers])

lemma bob_checksOut : sampleAuthServer.ChecksOut bobIssuer.presentation bobVerified :=
  sample_checksOut (by simp [sampleIssuers])

/-- The first of the two is granted, the second is not. -/
lemma sample_answers : sampleAuthServer.answers samplePresentations =
    [(.authenticated "did:plc:alice", some "n1"), (.anonymous, none)] := by
  have halice := AuthServer.verified_eq_some_iff.2 alice_checksOut
  have hbob := AuthServer.verified_eq_some_iff.2 bob_checksOut
  rw [AuthServer.answers, samplePresentations, answersTo, answersTo, answersTo,
    verifyServiceAuthFull_of_jti halice rfl, verifyServiceAuthFull_of_jti hbob rfl]
  decide +kernel

lemma samplePresentations_clock :
    samplePresentations.Pairwise fun p q => p.nowUnixS ≤ q.nowUnixS := by
  simp [samplePresentations, SampleIssuer.presentation]

/-- Bob's token is refused for the sake of Alice's. -/
theorem bob_refused_after_alice :
    ¬ sampleAuthServer.Granted samplePresentations 1 bobVerified := by
  rw [granted_iff_jti_unused sampleAuthServer samplePresentations samplePresentations_clock 1
    bobIssuer.presentation bobVerified "n1" rfl bob_checksOut rfl]
  intro hunused
  have hdead : aliceVerified.expUnixS ≤ bobIssuer.presentation.nowUnixS :=
    hunused 0 aliceIssuer.presentation aliceVerified (by omega) rfl alice_checksOut rfl
      (by rw [AuthServer.Granted, sample_answers]; rfl)
  exact absurd hdead (by decide)

/-- Were single use kept per issuer, Bob's token would be granted. -/
theorem single_use_is_not_per_issuer :
    ¬ ∀ (S : AuthServer) (ps : List Presentation),
      (ps.Pairwise fun p q => p.nowUnixS ≤ q.nowUnixS) →
      ∀ n p v jti, ps[n]? = some p → S.ChecksOut p v → v.jti = some jti →
        (S.Granted ps n v ↔ ∀ m q w, m < n → ps[m]? = some q → S.ChecksOut q w → w.did = v.did →
          w.jti = some jti → S.Granted ps m w → w.expUnixS ≤ p.nowUnixS) := by
  intro hclaim
  have hbob := hclaim sampleAuthServer samplePresentations samplePresentations_clock 1
    bobIssuer.presentation bobVerified "n1" rfl bob_checksOut rfl
  have hrefused : ¬ sampleAuthServer.Granted samplePresentations 1 bobVerified := by
    rw [AuthServer.Granted, sample_answers]
    decide
  refine hrefused (hbob.2 ?_)
  -- the only token before Bob's is Alice's
  intro m q w hm hq hw hdid
  obtain rfl : m = 0 := by omega
  obtain rfl : aliceIssuer.presentation = q := Option.some.inj hq
  have hw' := alice_checksOut
  rw [← AuthServer.verified_eq_some_iff] at hw hw'
  obtain rfl := Option.some.inj (hw'.symm.trans hw)
  exact absurd hdid (by decide)

end Ciss
