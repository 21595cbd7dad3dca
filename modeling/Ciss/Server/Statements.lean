import Ciss.Framework.HashTable
import Ciss.Framework.Linked
import Ciss.Server.Canonical
import Ciss.Server.Identity

/-!
# Balance-forward statements

Each period closes into a statement that carries the hash of the one before it, so that an edit to
a historical figure breaks the chain at exactly that link.  A statement is a body and the hash of
the body's canonical JSON; `verifyChain` reads a list of statements from genesis and reports the
first position whose link, hash or period number is wrong.

The canonical JSON of a body determines the body (`StatementBody.toCanonicalBytes_injective`), so a
changed body has another hash.  An edit is then found where it is made, unless the new statement
carries the hash of its new body: then the next statement still names the old one.
-/

namespace Ciss

/-! ## The program -/

/-- The `prev_statement_hash` of the first statement. -/
def genesisStatement : String :=
  "0000000000000000000000000000000000000000000000000000000000000000"

/-- The signed content of a period-closing statement.  All money is integer cents; grace is a
credit, so negative or zero. -/
structure StatementBody where
  period : UInt64
  periodStartDay : UInt64
  periodEndDay : UInt64
  openingRoot : String
  closingRoot : String
  byteDays : UInt64
  rentCents : UInt64
  postageBytes : UInt64
  postageCents : UInt64
  auditCount : UInt64
  auditBytes : UInt64
  auditCents : UInt64
  auditTier : String
  graceCents : Int64
  feesCents : UInt64
  totalCents : UInt64
  prevStatementHash : String
  deriving DecidableEq, Repr

/-- `serde_json`'s number for an `i64`: a `NegInt` holds negative integers only. -/
def Value.ofI64 (n : Int64) : Value := if n.toInt < 0 then .negInt n else .posInt n.toUInt64

namespace StatementBody

/-- The serialized members, in field order. -/
def fields (b : StatementBody) : List (String × Value) :=
  [("period", .posInt b.period), ("period_start_day", .posInt b.periodStartDay),
    ("period_end_day", .posInt b.periodEndDay), ("opening_root", .string b.openingRoot),
    ("closing_root", .string b.closingRoot), ("byte_days", .posInt b.byteDays),
    ("rent_cents", .posInt b.rentCents), ("postage_bytes", .posInt b.postageBytes),
    ("postage_cents", .posInt b.postageCents), ("audit_count", .posInt b.auditCount),
    ("audit_bytes", .posInt b.auditBytes), ("audit_cents", .posInt b.auditCents),
    ("audit_tier", .string b.auditTier), ("grace_cents", .ofI64 b.graceCents),
    ("fees_cents", .posInt b.feesCents), ("total_cents", .posInt b.totalCents),
    ("prev_statement_hash", .string b.prevStatementHash)]

def toCanonicalBytes (b : StatementBody) : Bytes := canonicalString (.object b.fields)

end StatementBody

/-- A statement: its body plus a hash, which `verifyChain` re-derives. -/
structure Statement where
  body : StatementBody
  hash : String
  deriving DecidableEq, Repr

/-- Build a statement: hash the canonical body. -/
def buildStatement (C : Crypto) (body : StatementBody) : Statement where
  body := body
  hash := C.sha256Hex body.toCanonicalBytes

/-- The outcome of verifying a statement chain. -/
inductive ChainResult where
  | ok
  | failed (position : Nat) (reason : String)
  deriving DecidableEq, Repr

namespace ChainResult

/-- The position that failed, if any. -/
def failedAt : ChainResult → Option Nat
  | .failed position _ => some position
  | .ok => none

def isOk : ChainResult → Bool
  | .ok => true
  | .failed _ _ => false

end ChainResult

/-- What is wrong with the statement at position `i`, the first check that fails being named. -/
def statementFault (C : Crypto) (expectedPrev : String) (i : Nat) (s : Statement) :
    Option String :=
  if s.body.prevStatementHash ≠ expectedPrev then some "prev_statement_hash breaks the chain"
  else if C.sha256Hex s.body.toCanonicalBytes ≠ s.hash then
    some "statement body edited (hash mismatch)"
  else if s.body.period.toNat ≠ i then some "period number out of sequence"
  else none

/-- The loop of `verify_chain`, from position `i` on. -/
def verifyChainFrom (C : Crypto) (expectedPrev : String) (i : Nat) : List Statement → ChainResult
  | [] => .ok
  | s :: rest =>
      match statementFault C expectedPrev i s with
      | some reason => .failed i reason
      | none => verifyChainFrom C s.hash (i + 1) rest

/-- Verify the statement chain from genesis, reporting the exact link that fails. -/
def verifyChain (C : Crypto) (statements : List Statement) : ChainResult :=
  verifyChainFrom C genesisStatement 0 statements

/-! ## The canonical body determines the body -/

namespace Value

variable {f g : List (String × Value)}

/-- The members of two objects with the same data agree under each key. -/
lemma Same.member (h : Same (.object f) (.object g)) (hkeys : (f.map Prod.fst).Nodup) {k : String}
    {v w : Value} (hv : (k, v) ∈ f) (hw : (k, w) ∈ g) : Same v w := by
  cases h with
  | refl =>
      have hvw := List.inj_on_of_nodup_map hkeys hv hw rfl
      rw [(Prod.mk.inj hvw).2]
      exact .refl _
  | object _ _ _ hvalues => exact hvalues k v w hv hw

lemma Same.posInt_inj {m n : UInt64} (h : Same (.posInt m) (.posInt n)) : m = n := by
  cases h
  rfl

lemma Same.string_inj {a b : String} (h : Same (.string a) (.string b)) : a = b := by
  cases h
  rfl

lemma integral_ofI64 (n : Int64) : Integral (.ofI64 n) := by
  unfold ofI64
  split
  · exact .negInt n ‹_›
  · exact .posInt _

lemma Same.ofI64_inj {m n : Int64} (h : Same (.ofI64 m) (.ofI64 n)) : m = n := by
  unfold ofI64 at h
  split_ifs at h
  · cases h
    rfl
  · cases h
  · cases h
  · have hback := congrArg UInt64.toInt64 h.posInt_inj
    simpa using hback

end Value

namespace StatementBody

lemma nodup_keys (b : StatementBody) : (b.fields.map Prod.fst).Nodup := by
  show ["period", "period_start_day", "period_end_day", "opening_root", "closing_root",
    "byte_days", "rent_cents", "postage_bytes", "postage_cents", "audit_count", "audit_bytes",
    "audit_cents", "audit_tier", "grace_cents", "fees_cents", "total_cents",
    "prev_statement_hash"].Nodup
  decide +kernel

lemma integral_fields (b : StatementBody) : Value.Integral (.object b.fields) := by
  refine .object _ b.nodup_keys ?_
  simp only [fields, List.forall_mem_cons, List.not_mem_nil, false_implies, implies_true, and_true,
    Value.Integral.posInt, Value.Integral.string, Value.integral_ofI64]

/-- **The canonical JSON of a body determines the body.** -/
theorem toCanonicalBytes_injective : Function.Injective toCanonicalBytes := by
  intro a b h
  have hsame := (canonicalString_eq_iff a.integral_fields b.integral_fields).mp h
  have hint : ∀ k m n, (k, .posInt m) ∈ a.fields → (k, .posInt n) ∈ b.fields → m = n :=
    fun k m n hm hn => (hsame.member a.nodup_keys hm hn).posInt_inj
  have hstr : ∀ k s t, (k, .string s) ∈ a.fields → (k, .string t) ∈ b.fields → s = t :=
    fun k s t hs ht => (hsame.member a.nodup_keys hs ht).string_inj
  have hgrace : a.graceCents = b.graceCents :=
    (hsame.member a.nodup_keys (k := "grace_cents") (by simp [fields]) (by simp [fields])).ofI64_inj
  cases a
  cases b
  simp only [mk.injEq]
  refine ⟨?_, ?_, ?_, ?_, ?_, ?_, ?_, ?_, ?_, ?_, ?_, ?_, ?_, hgrace, ?_, ?_, ?_⟩
  · exact hint "period" _ _ (by simp [fields]) (by simp [fields])
  · exact hint "period_start_day" _ _ (by simp [fields]) (by simp [fields])
  · exact hint "period_end_day" _ _ (by simp [fields]) (by simp [fields])
  · exact hstr "opening_root" _ _ (by simp [fields]) (by simp [fields])
  · exact hstr "closing_root" _ _ (by simp [fields]) (by simp [fields])
  · exact hint "byte_days" _ _ (by simp [fields]) (by simp [fields])
  · exact hint "rent_cents" _ _ (by simp [fields]) (by simp [fields])
  · exact hint "postage_bytes" _ _ (by simp [fields]) (by simp [fields])
  · exact hint "postage_cents" _ _ (by simp [fields]) (by simp [fields])
  · exact hint "audit_count" _ _ (by simp [fields]) (by simp [fields])
  · exact hint "audit_bytes" _ _ (by simp [fields]) (by simp [fields])
  · exact hint "audit_cents" _ _ (by simp [fields]) (by simp [fields])
  · exact hstr "audit_tier" _ _ (by simp [fields]) (by simp [fields])
  · exact hint "fees_cents" _ _ (by simp [fields]) (by simp [fields])
  · exact hint "total_cents" _ _ (by simp [fields]) (by simp [fields])
  · exact hstr "prev_statement_hash" _ _ (by simp [fields]) (by simp [fields])

end StatementBody

/-! ## Verification, one statement at a time -/

section

variable {C : Crypto} {s : Statement} {rest statements : List Statement} {prev : String} {i : Nat}

/-- A statement passes when it links, its body has its hash and its period is its position. -/
lemma statementFault_eq_none : statementFault C prev i s = none ↔
    s.body.prevStatementHash = prev ∧ C.sha256Hex s.body.toCanonicalBytes = s.hash ∧
      s.body.period.toNat = i := by
  unfold statementFault
  split_ifs with hprev hhash hperiod
  · simp [hprev]
  · simp [hhash]
  · simp [hperiod]
  · simp only [not_not] at hprev hhash hperiod
    simp [hprev, hhash, hperiod]

/-- A built statement passes when its link and its period are right. -/
lemma statementFault_buildStatement {body : StatementBody} (hprev : body.prevStatementHash = prev)
    (hperiod : body.period.toNat = i) : statementFault C prev i (buildStatement C body) = none :=
  statementFault_eq_none.mpr ⟨hprev, rfl, hperiod⟩

lemma verifyChainFrom_cons_of_none (h : statementFault C prev i s = none) :
    verifyChainFrom C prev i (s :: rest) = verifyChainFrom C s.hash (i + 1) rest := by
  rw [verifyChainFrom, h]

lemma failedAt_verifyChainFrom_cons (h : statementFault C prev i s ≠ none) :
    (verifyChainFrom C prev i (s :: rest)).failedAt = some i := by
  obtain ⟨reason, hreason⟩ := Option.ne_none_iff_exists'.mp h
  rw [verifyChainFrom, hreason]
  rfl

/-- An accepted list passes at its first statement and from there on. -/
lemma verifyChainFrom_cons_eq_ok :
    verifyChainFrom C prev i (s :: rest) = .ok ↔
      statementFault C prev i s = none ∧ verifyChainFrom C s.hash (i + 1) rest = .ok := by
  cases hfault : statementFault C prev i s with
  | none => rw [verifyChainFrom_cons_of_none hfault, and_iff_right rfl]
  | some reason => simp [verifyChainFrom, hfault]

/-- An accepted list is linked by its hashes, and every hash is its body's. -/
lemma linkedFrom_of_verifyChainFrom (h : verifyChainFrom C prev i statements = .ok) :
    LinkedFrom Statement.hash (fun s => s.body.prevStatementHash) (fun s => s.body.period.toNat)
        prev i statements ∧
      ∀ s ∈ statements, C.sha256Hex s.body.toCanonicalBytes = s.hash := by
  induction statements generalizing prev i with
  | nil => exact ⟨trivial, by simp⟩
  | cons s rest ih =>
      obtain ⟨hfault, hrest⟩ := verifyChainFrom_cons_eq_ok.mp h
      obtain ⟨hprev, hhash, hperiod⟩ := statementFault_eq_none.mp hfault
      obtain ⟨hlinked, hhashes⟩ := ih hrest
      refine ⟨⟨hprev, hperiod, hlinked⟩, ?_⟩
      intro t ht
      obtain rfl | ht := List.mem_cons.mp ht
      · exact hhash
      · exact hhashes t ht

/-! ## Edits -/

/-- A statement is determined by its hash where the hash is its body's. -/
lemma statement_eq_of_hash_eq (hsha : Function.Injective C.sha256Hex) {s t : Statement}
    (hs : C.sha256Hex s.body.toCanonicalBytes = s.hash)
    (ht : C.sha256Hex t.body.toCanonicalBytes = t.hash) (h : s.hash = t.hash) : s = t := by
  have hbody : s.body = t.body :=
    StatementBody.toCanonicalBytes_injective (hsha (hs.trans (h.trans ht.symm)))
  cases s
  cases t
  simp only at hbody h
  rw [hbody, h]

/-- Another statement in the first place of an accepted list is found there, or at the next
statement, which names the hash of the old one, or it is the last and hashes to its hash. -/
lemma verifyChainFrom_replace (hsha : Function.Injective C.sha256Hex) {new : Statement}
    (h : verifyChainFrom C prev i (s :: rest) = .ok) (hnew : new ≠ s) :
    (verifyChainFrom C prev i (new :: rest)).failedAt = some i ∨
      (verifyChainFrom C prev i (new :: rest)).failedAt = some (i + 1) ∨
      (verifyChainFrom C prev i (new :: rest) = .ok ∧ rest = [] ∧
        new.hash = C.sha256Hex new.body.toCanonicalBytes) := by
  obtain ⟨hfault, hrest⟩ := verifyChainFrom_cons_eq_ok.mp h
  obtain ⟨-, hhash, -⟩ := statementFault_eq_none.mp hfault
  by_cases hfault' : statementFault C prev i new = none
  · obtain ⟨-, hhash', -⟩ := statementFault_eq_none.mp hfault'
    rw [verifyChainFrom_cons_of_none hfault']
    cases rest with
    | nil => exact Or.inr (Or.inr ⟨rfl, rfl, hhash'.symm⟩)
    | cons t rest =>
        refine Or.inr (Or.inl (failedAt_verifyChainFrom_cons ?_))
        intro hnext
        obtain ⟨hprev, -, -⟩ :=
          statementFault_eq_none.mp (verifyChainFrom_cons_eq_ok.mp hrest).1
        obtain ⟨hprev', -, -⟩ := statementFault_eq_none.mp hnext
        exact hnew (statement_eq_of_hash_eq hsha hhash' hhash (hprev'.symm.trans hprev))
  · exact Or.inl (failedAt_verifyChainFrom_cons hfault')

/-- The same anywhere in the list, by induction on the statements before the edit. -/
lemma verifyChainFrom_set (hsha : Function.Injective C.sha256Hex) {new : Statement} {k : Nat}
    (hk : k < statements.length) (h : verifyChainFrom C prev i statements = .ok)
    (hnew : statements[k]? ≠ some new) :
    (verifyChainFrom C prev i (statements.set k new)).failedAt = some (i + k) ∨
      (verifyChainFrom C prev i (statements.set k new)).failedAt = some (i + k + 1) ∨
      (verifyChainFrom C prev i (statements.set k new) = .ok ∧ k + 1 = statements.length ∧
        new.hash = C.sha256Hex new.body.toCanonicalBytes) := by
  induction statements generalizing prev i k with
  | nil => simp at hk
  | cons s rest ih =>
      cases k with
      | zero =>
          have hne : new ≠ s := by
            rintro rfl
            exact hnew rfl
          obtain hat | hnext | ⟨hok, hlast, hhash⟩ := verifyChainFrom_replace hsha h hne
          · exact Or.inl hat
          · exact Or.inr (Or.inl hnext)
          · exact Or.inr (Or.inr ⟨hok, by simp [hlast], hhash⟩)
      | succ k =>
          obtain ⟨hfault, hrest⟩ := verifyChainFrom_cons_eq_ok.mp h
          have hset := ih (by simpa using hk) hrest (by simpa using hnew)
          rw [List.set_cons_succ, verifyChainFrom_cons_of_none hfault,
            show i + (k + 1) = i + 1 + k by omega]
          obtain hat | hnext | ⟨hok, hlast, hhash⟩ := hset
          · exact Or.inl hat
          · exact Or.inr (Or.inl hnext)
          · exact Or.inr (Or.inr ⟨hok, by simp [← hlast], hhash⟩)

/-- **Statement edits are located.**  Putting another statement in one place of an accepted list
makes verification fail there or at the next position, unless it is the last place and the new
statement has the hash of its body; and an accepted list is determined by its last hash. -/
theorem statement_edits_located (hsha : Function.Injective C.sha256Hex) :
    (∀ (statements : List Statement) (i : Nat) (new : Statement), i < statements.length →
      verifyChain C statements = .ok → statements[i]? ≠ some new →
        (verifyChain C (statements.set i new)).failedAt = some i ∨
        (verifyChain C (statements.set i new)).failedAt = some (i + 1) ∨
        (verifyChain C (statements.set i new) = .ok ∧ i + 1 = statements.length ∧
          new.hash = C.sha256Hex new.body.toCanonicalBytes)) ∧
    (∀ statements statements' : List Statement, verifyChain C statements = .ok →
      verifyChain C statements' = .ok →
      statements.getLast?.map Statement.hash = statements'.getLast?.map Statement.hash →
        statements = statements') := by
  refine ⟨?_, ?_⟩
  · intro statements i new hi hok hnew
    simpa [verifyChain] using verifyChainFrom_set hsha hi hok hnew
  · intro statements statements' hok hok' hlast
    obtain ⟨hlinked, hhashes⟩ := linkedFrom_of_verifyChainFrom hok
    obtain ⟨hlinked', hhashes'⟩ := linkedFrom_of_verifyChainFrom hok'
    refine List.forall₂_eq_eq_eq ▸ forall₂_of_getLast?_hash_eq ?_ hlinked hlinked' hlast
    intro s hs t ht hhash
    have hst := statement_eq_of_hash_eq hsha (hhashes s hs) (hhashes' t ht) hhash
    exact ⟨by rw [hst], by rw [hst], hst⟩

end

/-! ## Two periods and an edit -/

namespace TwoPeriods

def firstHash : String := "5dbf11b48ddaa6e6e005b023bad6d33f214488af90184d8419573c11ca01628a"

/-- A period of thirty days in which nothing happened. -/
def body (period : UInt64) (prev : String) : StatementBody where
  period := period
  periodStartDay := period * 30
  periodEndDay := period * 30 + 30
  openingRoot := "r"
  closingRoot := "r"
  byteDays := 0
  rentCents := 0
  postageBytes := 0
  postageCents := 0
  auditCount := 0
  auditBytes := 0
  auditCents := 0
  auditTier := "none"
  graceCents := 0
  feesCents := 0
  totalCents := 0
  prevStatementHash := prev

/-- The first period with its rent raised by a cent. -/
def editedBody : StatementBody := { body 0 genesisStatement with rentCents := 1 }

/-- SHA-256 on the three bodies. -/
def statementCrypto : Crypto where
  sha256Hex := tabulatedHash
    [((body 0 genesisStatement).toCanonicalBytes, firstHash),
      ((body 1 firstHash).toCanonicalBytes,
        "8cdc794a6ea53e877ca008fc6e6ad7eef58a7112e41a30f9fdd34485f132f4f2"),
      (editedBody.toCanonicalBytes,
        "e33a578cf37dc315352a13fd5786da9f43924538bed9ee70c360bc5fd312cbf7")]
  isPublicKey _ := false
  verifyStrict _ _ _ := false

lemma injective_statementCrypto : Function.Injective statementCrypto.sha256Hex := by
  exact tabulatedHash_injective (distinctDigests_of_take 2 (by decide +kernel) (by decide +kernel))

lemma hash_buildStatement_first :
    (buildStatement statementCrypto (body 0 genesisStatement)).hash = firstHash := by
  simp only [buildStatement, statementCrypto, tabulatedHash_cons_self]

/-- The two periods, each built on the one before. -/
def chain : List Statement :=
  [buildStatement statementCrypto (body 0 genesisStatement),
    buildStatement statementCrypto (body 1 firstHash)]

lemma verifyChain_chain : verifyChain statementCrypto chain = .ok := by
  refine verifyChainFrom_cons_eq_ok.mpr ⟨statementFault_buildStatement rfl rfl, ?_⟩
  refine verifyChainFrom_cons_eq_ok.mpr ⟨statementFault_buildStatement ?_ rfl, rfl⟩
  exact hash_buildStatement_first.symm

/-- The edited first period, hashed anew, is found at its place or at the next. -/
theorem statement_edits_located_rent :
    (verifyChain statementCrypto
        (chain.set 0 (buildStatement statementCrypto editedBody))).failedAt = some 0 ∨
      (verifyChain statementCrypto
        (chain.set 0 (buildStatement statementCrypto editedBody))).failedAt = some 1 := by
  have hnew : chain[0]? ≠ some (buildStatement statementCrypto editedBody) := by
    intro h
    have hrent := congrArg (Option.map fun s : Statement => s.body.rentCents) h
    exact absurd hrent (by decide)
  obtain hat | hnext | ⟨-, hlast, -⟩ := (statement_edits_located injective_statementCrypto).1 chain
    0 (buildStatement statementCrypto editedBody) (by decide) verifyChain_chain hnew
  · exact Or.inl hat
  · exact Or.inr hnext
  · exact absurd hlast (by decide)

end TwoPeriods

end Ciss
