import Ciss.Chain.Store
import Ciss.Server.Ledger

/-!
# The kind registry

Every assertion is of a registered kind: a read policy, one of the four dials, a flag, or an entry
of a `chain.counter`.  A kind declares how its records are kept (`Kind.spec`), parses and validates
its body, and folds the parsed body into the text that signatures bind.

`kindBody` is the parsing half of the source's `kind_fold` and `KindBody.fold` the folding half;
`kindFold` is the function itself, by the kind's tag.  The JSON is read as `serde_json::from_value`
reads it: a struct from an object or from an array of its fields, a unit variant from its name or
from an object with the one member `name: null`, an absent optional field as `None`.
-/

namespace Ciss

/-! ## Declarations -/

/-- Does history exist, and how? -/
inductive Retention where
  /-- Latest write wins; the prior value is gone. -/
  | setting
  /-- Write-once per key, never updated. -/
  | immutable
  /-- Append-only rows. -/
  | log
  /-- Append-only; each entry binds its predecessor's hash. -/
  | chain
  deriving DecidableEq, Repr

/-- Is true removal offered? -/
inductive Erasure where
  | erasable
  | permanent
  deriving DecidableEq, Repr

/-- The registered kinds. -/
inductive Kind where
  | policy
  | ceilingDial
  | periodDial
  | accountModeDial
  | receiptModeDial
  | flag
  | chainCounter
  deriving DecidableEq, Repr

/-- What the substrate reads off a kind's declaration. -/
structure KindSpec where
  retention : Retention
  erasure : Erasure
  /-- The largest serialized body, in bytes. -/
  bodyCeiling : Nat
  deriving DecidableEq, Repr

/-- The policy body ceiling, in bytes. -/
def policyBodyCeilingBytes : Nat := 64 * 1024

namespace Kind

/-- The kind's tag, part of the signing domain. -/
def tag : Kind → String
  | .policy => "policy"
  | .ceilingDial => "dial.ceiling"
  | .periodDial => "dial.period"
  | .accountModeDial => "dial.account-mode"
  | .receiptModeDial => "dial.receipt-mode"
  | .flag => "kv.flag"
  | .chainCounter => chainCounterKind

/-- The kind's declaration. -/
def spec : Kind → KindSpec
  | .policy => ⟨.setting, .permanent, policyBodyCeilingBytes⟩
  | .ceilingDial | .periodDial | .accountModeDial | .receiptModeDial =>
      ⟨.setting, .permanent, smallBodyCeilingBytes⟩
  | .flag => ⟨.setting, .erasable, smallBodyCeilingBytes⟩
  | .chainCounter => ⟨.chain, .permanent, smallBodyCeilingBytes⟩

/-- The registry, in its order. -/
def registry : List Kind :=
  [.policy, .ceilingDial, .periodDial, .accountModeDial, .receiptModeDial, .flag, .chainCounter]

/-- The registered kind with the given tag. -/
def ofTag? (tag : String) : Option Kind := registry.find? fun k => k.tag = tag

end Kind

/-! ## Bodies -/

/-- The read-visibility class of a target. -/
inductive ReadClass where
  | world
  | grantees
  | owner
  deriving DecidableEq, Repr

/-- The tag of a read class, in the signing fold and on the wire. -/
def ReadClass.tag : ReadClass → String
  | .world => "world"
  | .grantees => "grantees"
  | .owner => "owner"

/-- A policy body: the class, and the readers of a `grantees` policy. -/
structure PolicyBody where
  readClass : ReadClass
  readers : List String
  deriving DecidableEq, Repr

/-- A ceiling dial: the at-rest cap in bytes and the per-period postage cap in cents. -/
structure CeilingDialBody where
  atRestBytes : Option Nat
  spendCents : Option Nat
  deriving DecidableEq, Repr

/-- An account-mode dial. -/
structure AccountModeBody where
  mode : AccountMode
  deriving DecidableEq, Repr

/-- A receipt-mode dial. -/
structure ReceiptModeBody where
  mode : ReceiptMode
  deriving DecidableEq, Repr

/-- A flag. -/
structure FlagBody where
  set : Bool
  deriving DecidableEq, Repr

/-- A body as its kind parses it. -/
inductive KindBody where
  | policy (body : PolicyBody)
  | ceilingDial (body : CeilingDialBody)
  | periodDial
  | accountModeDial (body : AccountModeBody)
  | receiptModeDial (body : ReceiptModeBody)
  | flag (body : FlagBody)
  | chainCounter (step : ChainStep)
  deriving DecidableEq, Repr

/-! ## Folds -/

/-- The longest explicit reader list. -/
def maxReaders : Nat := 1024

/-- Readers in the order of their bytes. -/
def sortReaders (readers : List String) : List String :=
  readers.insertionSort fun a b => (byteCompare a b).isLE = true

/-- The canonical fold of a policy body: the readers sorted and counted. -/
def policyBodyFold (body : PolicyBody) : String :=
  String.join ["class=", body.readClass.tag, ";readers=", body.readers.length.repr, ":",
    ",".intercalate (sortReaders body.readers)]

/-- The readers fit the class: none for `world` and `owner`, and for `grantees` a bounded list of
distinct valid DIDs. -/
def policyBodyValid (body : PolicyBody) : Bool :=
  match body.readClass with
  | .world | .owner => body.readers.isEmpty
  | .grantees =>
      body.readers.length ≤ maxReaders &&
        (body.readers.all fun r => (Did.parse r).isOk) && decide body.readers.Nodup

/-- An optional number of a ceiling dial. -/
def foldOpt (v : Option Nat) : String := v.elim "none" Nat.repr

/-- The canonical fold of a ceiling dial. -/
def ceilingBodyFold (body : CeilingDialBody) : String :=
  String.join ["at_rest_bytes=", foldOpt body.atRestBytes, ";spend_cents=", foldOpt body.spendCents]

/-- The canonical fold of a period dial, whose body is empty. -/
def periodBodyFold : String := "new_period"

/-- The canonical fold of an account-mode dial. -/
def accountModeBodyFold (body : AccountModeBody) : String :=
  match body.mode with
  | .active => "mode=active"
  | .drawdown => "mode=drawdown"

/-- The canonical fold of a receipt-mode dial. -/
def receiptModeBodyFold (body : ReceiptModeBody) : String :=
  match body.mode with
  | .unilateral => "mode=unilateral"
  | .bilateral => "mode=bilateral"

/-- The canonical fold of a flag. -/
def flagBodyFold (body : FlagBody) : String :=
  String.join ["set=", if body.set then "true" else "false"]

/-- The canonical fold of a body, what the assertion signature binds. -/
def KindBody.fold : KindBody → String
  | .policy body => policyBodyFold body
  | .ceilingDial body => ceilingBodyFold body
  | .periodDial => periodBodyFold
  | .accountModeDial body => accountModeBodyFold body
  | .receiptModeDial body => receiptModeBodyFold body
  | .flag body => flagBodyFold body
  | .chainCounter step => step.fold

/-! ## Bodies on the wire -/

namespace Value

/-- The value as a boolean. -/
def asBool : Value → Option Bool
  | .bool b => some b
  | _ => none

/-- The value as a list of strings. -/
def asStrings : Value → Option (List String)
  | .array items => items.mapM asString
  | _ => none

/-- The name of a unit variant. -/
def asUnitVariant : Value → Option String
  | .string name => some name
  | .object [(name, .null)] => some name
  | _ => none

/-- The fields of a struct whose fields are all optional: an object may leave some out. -/
def optionalFields (names : List String) : Value → Option (List (Option Value))
  | .array items => if items.length = names.length then some (items.map some) else none
  | .object fields =>
      if fields.all (fun f => names.contains f.1) then some (names.map (fields.lookup ·)) else none
  | _ => none

/-- An optional `u64`: absent, `null` or a number. -/
def asOptionalU64 : Option Value → Option (Option Nat)
  | none | some .null => some none
  | some v => v.asU64.map some

end Value

/-- A read class from JSON. -/
def ReadClass.fromValue (v : Value) : Option ReadClass := do
  let name ← v.asUnitVariant
  [ReadClass.world, .grantees, .owner].find? fun c => c.tag = name

/-- A policy body from JSON. -/
def PolicyBody.fromValue (v : Value) : Option PolicyBody := do
  match ← v.structFields ["read_class", "readers"] with
  | [readClass, readers] => return ⟨← ReadClass.fromValue readClass, ← readers.asStrings⟩
  | _ => none

/-- A ceiling dial from JSON. -/
def CeilingDialBody.fromValue (v : Value) : Option CeilingDialBody := do
  match ← v.optionalFields ["at_rest_bytes", "spend_cents"] with
  | [atRest, spend] => return ⟨← Value.asOptionalU64 atRest, ← Value.asOptionalU64 spend⟩
  | _ => none

/-- An account mode from JSON. -/
def AccountMode.fromValue (v : Value) : Option AccountMode := do
  let name ← v.asUnitVariant
  if name = "active" then return .active
  else if name = "drawdown" then return .drawdown
  else none

/-- An account-mode dial from JSON. -/
def AccountModeBody.fromValue (v : Value) : Option AccountModeBody := do
  match ← v.structFields ["mode"] with
  | [mode] => return ⟨← AccountMode.fromValue mode⟩
  | _ => none

/-- A receipt mode from JSON. -/
def ReceiptMode.fromValue (v : Value) : Option ReceiptMode := do
  let name ← v.asUnitVariant
  if name = "unilateral" then return .unilateral
  else if name = "bilateral" then return .bilateral
  else none

/-- A receipt-mode dial from JSON. -/
def ReceiptModeBody.fromValue (v : Value) : Option ReceiptModeBody := do
  match ← v.structFields ["mode"] with
  | [mode] => return ⟨← ReceiptMode.fromValue mode⟩
  | _ => none

/-- A flag from JSON. -/
def FlagBody.fromValue (v : Value) : Option FlagBody := do
  match ← v.structFields ["set"] with
  | [set] => return ⟨← set.asBool⟩
  | _ => none

/-- The body is the empty object. -/
def Value.isEmptyObject : Value → Bool
  | .object fields => fields.isEmpty
  | _ => false

/-! ## The registry's arms -/

/-- The length of a content address. -/
def contentAddrHexLen : Nat := 64

/-- Whether a text is a content address: 64 lowercase hex digits. -/
def isContentAddr (raw : String) : Bool :=
  raw.utf8ByteSize = contentAddrHexLen && isLowerHex raw.toList

/-- The arm of a kind that takes no subkey: refuse one, then parse. -/
def dialArm (subkey : Option String) (noSubkey invalid : String) (parsed : Option KindBody) :
    Except ServerError KindBody :=
  if subkey.isSome then .error (.badAssertion noSubkey)
  else
    match parsed with
    | none => .error (.badAssertion invalid)
    | some body => .ok body

/-- Parse and validate a kind's body. -/
def kindBody (kind : Kind) (subkey : Option String) (body : Value) :
    Except ServerError KindBody :=
  match kind with
  | .policy =>
      if subkey.any fun sk => !isContentAddr sk then
        .error (.badAssertion "policy subkey is not a content address")
      else
        match PolicyBody.fromValue body with
        | none => .error (.badAssertion "body is not a valid policy body")
        | some parsed =>
            if !policyBodyValid parsed then
              .error (.badAssertion "policy readers do not fit the read class")
            else .ok (.policy parsed)
  | .ceilingDial =>
      dialArm subkey "the ceiling dial takes no subkey" "body is not a valid ceiling dial"
        ((CeilingDialBody.fromValue body).map .ceilingDial)
  | .periodDial =>
      dialArm subkey "the period dial takes no subkey" "the period dial body is empty (\x7b\x7d)"
        (if body.isEmptyObject then some .periodDial else none)
  | .accountModeDial =>
      dialArm subkey "the account-mode dial takes no subkey"
        "body is not a valid account-mode dial"
        ((AccountModeBody.fromValue body).map .accountModeDial)
  | .receiptModeDial =>
      dialArm subkey "the receipt-mode dial takes no subkey"
        "body is not a valid receipt-mode dial"
        ((ReceiptModeBody.fromValue body).map .receiptModeDial)
  | .flag =>
      if !subkeyValid subkey then .error (.badAssertion "kv kinds require a valid subkey")
      else
        match FlagBody.fromValue body with
        | none => .error (.badAssertion "body is not a valid kv flag")
        | some parsed => .ok (.flag parsed)
  | .chainCounter =>
      if !subkeyValid subkey then .error (.badAssertion "chain.counter requires a valid subkey")
      else
        match ChainStep.fromValue body with
        | none => .error (.badAssertion "body is not a valid chain.counter entry")
        | some step => .ok (.chainCounter step)

/-- `kind_fold`: parse and validate the body of a kind, and fold it. -/
def kindFold (kind : String) (subkey : Option String) (body : Value) :
    Except ServerError String :=
  match Kind.ofTag? kind with
  | none => .error (.badAssertion "unknown assertion kind")
  | some k => (kindBody k subkey body).map KindBody.fold

/-! ## What a kind admits -/

/-- The kind a parsed body is of. -/
def KindBody.kind : KindBody → Kind
  | .policy _ => .policy
  | .ceilingDial _ => .ceilingDial
  | .periodDial => .periodDial
  | .accountModeDial _ => .accountModeDial
  | .receiptModeDial _ => .receiptModeDial
  | .flag _ => .flag
  | .chainCounter _ => .chainCounter

section

variable {kind : Kind} {subkey : Option String} {v : Value} {body : KindBody}

lemma dialArm_ok {noSubkey invalid : String} {parsed : Option KindBody}
    (h : dialArm subkey noSubkey invalid parsed = .ok body) : subkey = none ∧ parsed = some body := by
  unfold dialArm at h
  split_ifs at h with hsub
  refine ⟨by simpa using hsub, ?_⟩
  split at h
  · cases h
  · cases h
    rfl

/-- **What a kind admits.**  A policy is valid and its subkey a content address, a dial has no
subkey, and the other kinds have a valid one; the parsed body is of its kind. -/
lemma kindBody_ok (h : kindBody kind subkey v = .ok body) :
    body.kind = kind ∧
      match body with
      | .policy parsed => (subkey.all isContentAddr) = true ∧ policyBodyValid parsed = true
      | .flag _ | .chainCounter _ => subkeyValid subkey = true
      | _ => subkey = none := by
  unfold kindBody at h
  cases kind with
  | policy =>
      dsimp only at h
      split_ifs at h with hsub
      split at h
      · cases h
      · split_ifs at h with hvalid
        cases h
        refine ⟨rfl, ?_, by simpa using hvalid⟩
        rcases subkey with _ | sk
        · rfl
        · simpa using hsub
  | ceilingDial =>
      obtain ⟨hsub, hparsed⟩ := dialArm_ok h
      obtain ⟨parsed, -, rfl⟩ := Option.map_eq_some_iff.mp hparsed
      exact ⟨rfl, hsub⟩
  | periodDial =>
      obtain ⟨hsub, hparsed⟩ := dialArm_ok h
      split_ifs at hparsed
      obtain rfl := Option.some.inj hparsed
      exact ⟨rfl, hsub⟩
  | accountModeDial =>
      obtain ⟨hsub, hparsed⟩ := dialArm_ok h
      obtain ⟨parsed, -, rfl⟩ := Option.map_eq_some_iff.mp hparsed
      exact ⟨rfl, hsub⟩
  | receiptModeDial =>
      obtain ⟨hsub, hparsed⟩ := dialArm_ok h
      obtain ⟨parsed, -, rfl⟩ := Option.map_eq_some_iff.mp hparsed
      exact ⟨rfl, hsub⟩
  | flag =>
      dsimp only at h
      split_ifs at h with hsub
      split at h
      · cases h
      · cases h
        exact ⟨rfl, by simpa using hsub⟩
  | chainCounter =>
      dsimp only at h
      split_ifs at h with hsub
      split at h
      · cases h
      · cases h
        exact ⟨rfl, by simpa using hsub⟩

lemma Kind.ofTag?_tag (k : Kind) : Kind.ofTag? k.tag = some k := by
  cases k
  all_goals decide

lemma Kind.tag_of_ofTag? {tag : String} {k : Kind} (h : Kind.ofTag? tag = some k) : k.tag = tag := by
  have := List.find?_some h
  simpa using this

end

end Ciss
