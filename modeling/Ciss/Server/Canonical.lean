import Ciss.Framework.Readable
import Ciss.Server.Assertion

/-!
# Canonical JSON

The one byte string every hash and signature of receipts, ledgers and statements is taken over:
object keys are sorted at every level and no whitespace is written.  The text is kept as its bytes,
as `serde_json` writes it.

A value as the crate builds it has distinct keys in every object and, where its text is signed,
only integer numbers (`Value.Integral`).  Two such values are the same data when they differ at most
in the order in which an object lists its keys (`Value.Same`).  Reading the text back decides this:
no canonical text, followed by a comma or a closing bracket, can be taken for another
(`unmistakable_canonicalString`), which makes the text of an array tell its items and the text of an
object its members.
-/

namespace Ciss

/-! ## The text -/

/-- The members of an object in the order of their keys' bytes. -/
def byKey (members : List (String × Bytes)) : List (String × Bytes) :=
  members.insertionSort fun f g => (byteCompare f.1 g.1).isLE = true

/-- An object without whitespace and its keys sorted, its values already written.  The keys of a
map are distinct, so that sorting its members is sorting its keys. -/
def canonicalObject (members : List (String × Bytes)) : Bytes :=
  renderObject ((byKey members).map fun f => renderField f.1 f.2)

/-- A scalar, as `serde_json` writes it. -/
def encodeScalar (v : Value) : Bytes := v.render

/-- Recursively render a JSON value with object keys sorted and no whitespace. -/
def canonicalString : Value → Bytes
  | .object map => canonicalObject (canonicalMembers map)
  | .array items => asBytes "[" ++ (asBytes ",").intercalate (canonicalItems items) ++ asBytes "]"
  | scalar => encodeScalar scalar
where
  /-- The texts of an array's items. -/
  canonicalItems : List Value → List Bytes
    | [] => []
    | v :: vs => canonicalString v :: canonicalItems vs
  /-- The texts of an object's members. -/
  canonicalMembers : List (String × Value) → List (String × Bytes)
    | [] => []
    | (k, v) :: fs => (k, canonicalString v) :: canonicalMembers fs

lemma canonicalItems_eq_map (items : List Value) :
    canonicalString.canonicalItems items = items.map canonicalString := by
  induction items with
  | nil => rfl
  | cons v vs ih => rw [canonicalString.canonicalItems, ih, List.map_cons]

lemma canonicalMembers_eq_map (map : List (String × Value)) :
    canonicalString.canonicalMembers map = map.map fun f => (f.1, canonicalString f.2) := by
  induction map with
  | nil => rfl
  | cons f fs ih => rw [canonicalString.canonicalMembers, ih, List.map_cons]

namespace Value

/-- A value as the map type keeps it, its numbers integers. -/
inductive Integral : Value → Prop where
  | null : Integral .null
  | bool (b : Bool) : Integral (.bool b)
  | posInt (n : UInt64) : Integral (.posInt n)
  | negInt (n : Int64) (hneg : n.toInt < 0) : Integral (.negInt n)
  | string (s : String) : Integral (.string s)
  | array (items : List Value) (hitems : ∀ v ∈ items, Integral v) : Integral (.array items)
  | object (map : List (String × Value)) (hkeys : (map.map Prod.fst).Nodup)
      (hvalues : ∀ f ∈ map, Integral f.2) : Integral (.object map)

/-- The same data: equal up to the order in which objects list their keys. -/
inductive Same : Value → Value → Prop where
  | refl (v : Value) : Same v v
  | array (xs ys : List Value) (hlength : xs.length = ys.length)
      (hitems : ∀ (i : Nat) (v w : Value), xs[i]? = some v → ys[i]? = some w → Same v w) :
      Same (.array xs) (.array ys)
  | object (f g : List (String × Value)) (hkeys : (f.map Prod.fst).Perm (g.map Prod.fst))
      (hvalues : ∀ k v w, (k, v) ∈ f → (k, w) ∈ g → Same v w) : Same (.object f) (.object g)

end Value

/-! ## Reading strings -/

/-- The byte that `\` and this byte stand for. -/
def shortEscape (c : UInt8) : UInt8 :=
  if c = 98 then 8 else if c = 116 then 9 else if c = 110 then 10 else if c = 102 then 12
  else if c = 114 then 13 else c

/-- The value of a lowercase hexadecimal digit. -/
def hexDigitValue (c : UInt8) : Nat := if c.toNat < 58 then c.toNat - 48 else c.toNat - 87

/-- The first byte of a string body, its escape undone, with what follows. -/
def unescape : Bytes → Option (UInt8 × Bytes)
  | [] => none
  | b :: r =>
      if b ≠ 92 then some (b, r)
      else
        match r with
        | [] => none
        | c :: r =>
            if c ≠ 117 then some (shortEscape c, r)
            else
              match r with
              | _ :: _ :: h :: l :: r =>
                  some (UInt8.ofNat (16 * hexDigitValue h + hexDigitValue l), r)
              | _ => none

lemma unescape_escapeByte (b : UInt8) (s : Bytes) : unescape (escapeByte b ++ s) = some (b, s) := by
  have hb : b = UInt8.ofNat b.toNat := by simp
  have hhex : ∀ n < 32, UInt8.ofNat (16 * hexDigitValue (hexDigitByte (n / 16)) +
      hexDigitValue (hexDigitByte (n % 16))) = UInt8.ofNat n := by decide
  unfold escapeByte
  dsimp only
  split_ifs with h32 h8 h9 h10 h12 h13 h34 h92
  · rw [hb, h8]; rfl
  · rw [hb, h9]; rfl
  · rw [hb, h10]; rfl
  · rw [hb, h12]; rfl
  · rw [hb, h13]; rfl
  · show some (UInt8.ofNat _, s) = _
    rw [hhex _ h32, ← hb]
  · rw [hb, h34]; rfl
  · rw [hb, h92]; rfl
  · have hne : b ≠ 92 := by
      rintro rfl
      exact h92 rfl
    simp [unescape, hne]

lemma escapeByte_append_inj (a b : UInt8) (s t : Bytes)
    (h : escapeByte a ++ s = escapeByte b ++ t) : a = b ∧ s = t := by
  have hread := congrArg unescape h
  rw [unescape_escapeByte, unescape_escapeByte] at hread
  simpa using hread

/-- No byte of a string body is written as a quote. -/
lemma avoids_escapeByte (b : UInt8) : Avoids 34 (escapeByte b) := by
  intro s t h
  have hread := unescape_escapeByte b s
  rw [h] at hread
  have hquote : b = 34 := by
    have : unescape (34 :: t) = some (34, t) := rfl
    rw [this] at hread
    simpa using (congrArg (Option.map Prod.fst) hread).symm
  have hescape : escapeByte 34 = [92, 34] := by decide
  rw [hquote, hescape] at h
  simp at h

lemma renderString_eq (s : String) :
    renderString s = 34 :: ((asBytes s).flatMap escapeByte ++ [34]) := by
  have hquote : asBytes "\"" = [34] := by decide
  rw [renderString, hquote]
  simp

/-- **Reading a string** leaves the string and the rest. -/
lemma renderString_append_inj {a b : String} {s t : Bytes}
    (h : renderString a ++ s = renderString b ++ t) : a = b ∧ s = t := by
  rw [renderString_eq, renderString_eq, List.cons_append, List.cons_append, List.cons.injEq,
    List.append_assoc, List.append_assoc] at h
  obtain ⟨hbytes, hst⟩ := flatMap_append_inj escapeByte_append_inj avoids_escapeByte h.2
  exact ⟨asBytes_injective hbytes, hst⟩

lemma renderField_append_inj {a b : String} {u v s t : Bytes}
    (h : renderField a u ++ s = renderField b v ++ t) : a = b ∧ u ++ s = v ++ t := by
  unfold renderField at h
  simp only [List.append_assoc] at h
  obtain ⟨hab, hrest⟩ := renderString_append_inj h
  exact ⟨hab, List.append_cancel_left hrest⟩

/-! ## Reading numbers -/

/-- The bytes of a decimal numeral are digits. -/
lemma digit_of_mem_natRepr {n : Nat} {b : UInt8} (hb : b ∈ asBytes n.repr) :
    48 ≤ b.toNat ∧ b.toNat ≤ 57 := by
  rw [asBytes_eq_flatMap] at hb
  obtain ⟨c, hc, hb⟩ := List.mem_flatMap.mp hb
  rw [Nat.toList_repr] at hc
  have hdigit := Nat.isDigit_of_mem_toDigits (by omega) (by omega) hc
  have hval : 48 ≤ c.val.toNat ∧ c.val.toNat ≤ 57 := by
    simpa [Char.isDigit, UInt32.le_iff_toNat_le] using hdigit
  have hone : String.utf8EncodeChar c = [UInt8.ofNat c.val.toNat] := by
    unfold String.utf8EncodeChar
    dsimp only
    rw [if_pos (by omega)]
  rw [hone, List.mem_singleton] at hb
  have htoNat : b.toNat = c.val.toNat := by
    rw [hb, UInt8.toNat_ofNat']
    omega
  omega

lemma exists_cons_natRepr (n : Nat) : ∃ b r, asBytes n.repr = b :: r ∧ 48 ≤ b.toNat ∧
    b.toNat ≤ 57 := by
  cases hr : asBytes n.repr with
  | nil =>
      have hempty : n.repr = "" := asBytes_injective (hr.trans (by decide))
      exact absurd hempty Nat.repr_ne_empty
  | cons b r =>
      have hb : b ∈ asBytes n.repr := by rw [hr]; exact List.mem_cons_self
      exact ⟨b, r, rfl, digit_of_mem_natRepr hb⟩

/-- A negative numeral is a minus sign and the numeral of its size. -/
lemma asBytes_intRepr_of_neg {i : Int} (h : i < 0) :
    asBytes i.repr = 45 :: asBytes i.natAbs.repr := by
  cases i with
  | ofNat n => exact absurd h (Int.not_lt.mpr (Int.natCast_nonneg n))
  | negSucc n =>
      show asBytes ("-" ++ (n + 1).repr) = _
      rw [asBytes_append]
      rfl

/-! ## Reading values -/

/-- The bytes that may follow a value. -/
def EndsValue (b : UInt8) : Prop := b = 44 ∨ b = 93 ∨ b = 125

lemma endsValue_comma : EndsValue 44 := Or.inl rfl

lemma endsValue_bracket : EndsValue 93 := Or.inr (Or.inl rfl)

lemma endsValue_brace : EndsValue 125 := Or.inr (Or.inr rfl)

/-- What the first byte of a text tells of the value. -/
inductive Shape where
  | null
  | bool
  | posInt
  | negInt
  | string
  | array
  | object
  | other

def Value.shape : Value → Shape
  | .null => .null
  | .bool _ => .bool
  | .posInt _ => .posInt
  | .negInt _ => .negInt
  | .float _ => .other
  | .string _ => .string
  | .array _ => .array
  | .object _ => .object

def Shape.ofByte (b : UInt8) : Shape :=
  if b = 110 then .null else if b = 116 ∨ b = 102 then .bool
  else if 48 ≤ b.toNat ∧ b.toNat ≤ 57 then .posInt else if b = 45 then .negInt
  else if b = 34 then .string else if b = 91 then .array else if b = 123 then .object else .other

section

variable {v w : Value}

lemma canonicalString_array (items : List Value) :
    canonicalString (.array items) =
      91 :: ([44].intercalate (items.map canonicalString) ++ [93]) := by
  have hopen : asBytes "[" = [91] := by decide
  have hcomma : asBytes "," = [44] := by decide
  have hclose : asBytes "]" = [93] := by decide
  rw [canonicalString, canonicalItems_eq_map, hopen, hcomma, hclose]
  simp

/-- The members of an object, as its text lists them. -/
def canonicalFields (members : List (String × Bytes)) : List Bytes :=
  (byKey members).map fun f => renderField f.1 f.2

lemma canonicalObject_eq (members : List (String × Bytes)) :
    canonicalObject members = 123 :: ([44].intercalate (canonicalFields members) ++ [125]) := by
  have hopen : asBytes "\x7b" = [123] := by decide
  have hcomma : asBytes "," = [44] := by decide
  have hclose : asBytes "\x7d" = [125] := by decide
  rw [canonicalObject, renderObject, hopen, hcomma, hclose]
  simp [canonicalFields]

lemma canonicalString_object (map : List (String × Value)) :
    canonicalString (.object map) =
      canonicalObject (map.map fun f => (f.1, canonicalString f.2)) := by
  rw [canonicalString, canonicalMembers_eq_map]

/-- The first byte of a canonical text tells what the value is. -/
lemma exists_cons_canonicalString (hv : v.Integral) :
    ∃ b r, canonicalString v = b :: r ∧ Shape.ofByte b = v.shape := by
  cases hv with
  | null => exact ⟨110, asBytes "ull", by decide, rfl⟩
  | bool b =>
      cases b with
      | false => exact ⟨102, asBytes "alse", by decide, rfl⟩
      | true => exact ⟨116, asBytes "rue", by decide, rfl⟩
  | posInt n =>
      obtain ⟨b, r, hr, hdigit⟩ := exists_cons_natRepr n.toNat
      refine ⟨b, r, hr, ?_⟩
      have hb : ∀ c : UInt8, c.toNat < 48 ∨ 57 < c.toNat → b ≠ c := by
        rintro c hc rfl
        omega
      unfold Shape.ofByte
      rw [if_neg (hb 110 (by decide)), if_neg, if_pos hdigit]
      · rfl
      · exact not_or.mpr ⟨hb 116 (by decide), hb 102 (by decide)⟩
  | negInt n hneg =>
      exact ⟨45, asBytes n.toInt.natAbs.repr, asBytes_intRepr_of_neg hneg, rfl⟩
  | string s => exact ⟨34, _, renderString_eq s, rfl⟩
  | array items hitems => exact ⟨91, _, canonicalString_array items, rfl⟩
  | object map hkeys hvalues =>
      exact ⟨123, _, (canonicalString_object map).trans (canonicalObject_eq _), rfl⟩

/-- Values of different kinds begin differently. -/
lemma shape_eq_of_append_eq {s t : Bytes} (hv : v.Integral) (hw : w.Integral)
    (h : canonicalString v ++ s = canonicalString w ++ t) : v.shape = w.shape := by
  obtain ⟨b, r, hr, hb⟩ := exists_cons_canonicalString hv
  obtain ⟨c, q, hq, hc⟩ := exists_cons_canonicalString hw
  rw [hr, hq, List.cons_append, List.cons_append, List.cons.injEq] at h
  rw [← hb, ← hc, h.1]

lemma unmistakable_of_shape (hv : v.Integral) (hw : w.Integral)
    (h : v.shape = w.shape → Unmistakable EndsValue (canonicalString v) (canonicalString w)) :
    Unmistakable EndsValue (canonicalString v) (canonicalString w) :=
  fun s t hs ht heq => h (shape_eq_of_append_eq hv hw heq) s t hs ht heq

/-- No value begins with a closing bracket. -/
lemma avoids_canonicalString {q : UInt8} (hq : Shape.ofByte q = .other) (hv : v.Integral) :
    Avoids q (canonicalString v) := by
  obtain ⟨b, r, hr, hb⟩ := exists_cons_canonicalString hv
  rw [hr]
  refine avoids_cons ?_
  rintro rfl
  rw [hq] at hb
  cases hv <;> simp [Value.shape] at hb

/-- Numerals and the literals hold no byte that may follow a value. -/
lemma not_endsValue_of_digit {b : UInt8} (h : 48 ≤ b.toNat ∧ b.toNat ≤ 57) : ¬ EndsValue b := by
  rintro (rfl | rfl | rfl)
  · exact absurd h (by decide)
  · exact absurd h (by decide)
  · exact absurd h (by decide)

lemma unmistakable_natRepr (m n : Nat) :
    Unmistakable EndsValue (asBytes m.repr) (asBytes n.repr) :=
  unmistakable_of_not_stop (fun _ hb => not_endsValue_of_digit (digit_of_mem_natRepr hb))
    fun _ hb => not_endsValue_of_digit (digit_of_mem_natRepr hb)

lemma unmistakable_renderString (a b : String) :
    Unmistakable EndsValue (renderString a) (renderString b) := by
  intro s t _ _ h
  rw [(renderString_append_inj h).1]

end

/-! ### Objects -/

section

variable {f g : List (String × Bytes)}

lemma mem_canonicalFields {u : Bytes} :
    u ∈ canonicalFields f ↔ ∃ k x, (k, x) ∈ f ∧ renderField k x = u := by
  simp [canonicalFields, byKey, (List.perm_insertionSort _ _).mem_iff]

/-- A member is told from a member under another key by the key, and from one under its own key by
the value. -/
lemma unmistakable_renderField {a b : String} {x y : Bytes}
    (h : a = b → Unmistakable EndsValue x y) :
    Unmistakable EndsValue (renderField a x) (renderField b y) := by
  intro s t hs ht heq
  obtain ⟨hab, hrest⟩ := renderField_append_inj heq
  rw [hab, h hab s t hs ht hrest]

lemma avoids_renderField {q : UInt8} (hq : q ≠ 34) (k : String) (x : Bytes) :
    Avoids q (renderField k x) := by
  rw [renderField, renderString_eq, List.cons_append, List.cons_append]
  exact avoids_cons (Ne.symm hq)

lemma renderField_inj {a b : String} {x y : Bytes} (h : renderField a x = renderField b y) :
    a = b ∧ x = y := by
  have happend : renderField a x ++ [] = renderField b y ++ [] := by rw [h]
  obtain ⟨hab, hxy⟩ := renderField_append_inj happend
  exact ⟨hab, by simpa using hxy⟩

/-- The texts of the members tell the members. -/
lemma perm_of_canonicalFields_eq (h : canonicalFields f = canonicalFields g) : f.Perm g := by
  have hinj : Function.Injective fun m : String × Bytes => renderField m.1 m.2 := by
    intro m n hmn
    obtain ⟨hkey, hvalue⟩ := renderField_inj hmn
    exact Prod.ext hkey hvalue
  have hsorted : byKey f = byKey g := hinj.list_map h
  have hf : (byKey f).Perm f := List.perm_insertionSort _ f
  have hg : (byKey g).Perm g := List.perm_insertionSort _ g
  rw [hsorted] at hf
  exact hf.symm.trans hg

/-- **Reading an object** leaves its members, in the order of their keys, and the rest. -/
theorem canonicalObject_append_inj {s t : Bytes}
    (hread : ∀ k x y, (k, x) ∈ f → (k, y) ∈ g → Unmistakable EndsValue x y)
    (h : canonicalObject f ++ s = canonicalObject g ++ t) :
    canonicalFields f = canonicalFields g ∧ s = t := by
  rw [canonicalObject_eq, canonicalObject_eq, List.cons_append, List.cons_append,
    List.cons.injEq, List.append_assoc, List.append_assoc] at h
  refine intercalate_append_inj endsValue_comma endsValue_brace (by decide) ?_ ?_ ?_ h.2
  · intro u hu v hv
    obtain ⟨a, x, hx, rfl⟩ := mem_canonicalFields.mp hu
    obtain ⟨b, y, hy, rfl⟩ := mem_canonicalFields.mp hv
    refine unmistakable_renderField ?_
    rintro rfl
    exact hread a x y hx hy
  · intro u hu
    obtain ⟨a, x, hx, rfl⟩ := mem_canonicalFields.mp hu
    exact avoids_renderField (by decide) a x
  · intro v hv
    obtain ⟨b, y, hy, rfl⟩ := mem_canonicalFields.mp hv
    exact avoids_renderField (by decide) b y

lemma unmistakable_canonicalObject
    (hread : ∀ k x y, (k, x) ∈ f → (k, y) ∈ g → Unmistakable EndsValue x y) :
    Unmistakable EndsValue (canonicalObject f) (canonicalObject g) := by
  intro s t _ _ h
  obtain ⟨hfields, -⟩ := canonicalObject_append_inj hread h
  rw [canonicalObject_eq, canonicalObject_eq, hfields]

/-- **The text of an object tells its members.** -/
theorem perm_of_canonicalObject_eq
    (hread : ∀ k x y, (k, x) ∈ f → (k, y) ∈ g → Unmistakable EndsValue x y)
    (h : canonicalObject f = canonicalObject g) : f.Perm g := by
  have happend : canonicalObject f ++ [] = canonicalObject g ++ [] := by rw [h]
  exact perm_of_canonicalFields_eq (canonicalObject_append_inj hread happend).1

/-- The text does not depend on the order of the members. -/
lemma canonicalObject_eq_of_perm (hkeys : (f.map Prod.fst).Nodup) (h : f.Perm g) :
    canonicalObject f = canonicalObject g := by
  rw [canonicalObject, canonicalObject, byKey, byKey,
    insertionSort_byteCompare_eq_of_perm Prod.fst hkeys h]

end

/-! ### Arrays -/

section

variable {xs ys : List Value}

/-- **Reading an array** leaves the texts of its items and the rest. -/
theorem canonicalString_array_append_inj {s t : Bytes} (hxs : ∀ v ∈ xs, v.Integral)
    (hys : ∀ w ∈ ys, w.Integral)
    (hread : ∀ v ∈ xs, ∀ w ∈ ys,
      Unmistakable EndsValue (canonicalString v) (canonicalString w))
    (h : canonicalString (.array xs) ++ s = canonicalString (.array ys) ++ t) :
    xs.map canonicalString = ys.map canonicalString ∧ s = t := by
  rw [canonicalString_array, canonicalString_array, List.cons_append, List.cons_append,
    List.cons.injEq, List.append_assoc, List.append_assoc] at h
  refine intercalate_append_inj endsValue_comma endsValue_bracket (by decide) ?_ ?_ ?_ h.2
  · intro u hu v hv
    obtain ⟨x, hx, rfl⟩ := List.mem_map.mp hu
    obtain ⟨y, hy, rfl⟩ := List.mem_map.mp hv
    exact hread x hx y hy
  · intro u hu
    obtain ⟨x, hx, rfl⟩ := List.mem_map.mp hu
    exact avoids_canonicalString rfl (hxs x hx)
  · intro v hv
    obtain ⟨y, hy, rfl⟩ := List.mem_map.mp hv
    exact avoids_canonicalString rfl (hys y hy)

end

section

variable {v w : Value}

lemma unmistakable_self (u : Bytes) : Unmistakable EndsValue u u := fun _ _ _ _ _ => rfl

lemma unmistakable_bool (a b : Bool) :
    Unmistakable EndsValue (canonicalString (.bool a)) (canonicalString (.bool b)) := by
  cases a <;> cases b
  · exact unmistakable_self _
  · exact unmistakable_of_head_ne (by decide)
  · exact unmistakable_of_head_ne (by decide)
  · exact unmistakable_self _

lemma unmistakable_negInt {m n : Int64} (hm : m.toInt < 0) (hn : n.toInt < 0) :
    Unmistakable EndsValue (canonicalString (.negInt m)) (canonicalString (.negInt n)) := by
  show Unmistakable EndsValue (asBytes m.toInt.repr) (asBytes n.toInt.repr)
  rw [asBytes_intRepr_of_neg hm, asBytes_intRepr_of_neg hn]
  intro s t hs ht h
  rw [List.cons_append, List.cons_append, List.cons.injEq] at h
  rw [unmistakable_natRepr _ _ s t hs ht h.2]

/-- **Reading a value**: where a value may end, no canonical text can be taken for another.  By
induction on the value, the texts of its items or members being read in turn. -/
theorem unmistakable_canonicalString (hv : v.Integral) (hw : w.Integral) :
    Unmistakable EndsValue (canonicalString v) (canonicalString w) := by
  induction hv generalizing w with
  | null =>
      refine unmistakable_of_shape .null hw fun hshape => ?_
      cases hw with
      | null => exact unmistakable_self _
      | _ => simp [Value.shape] at hshape
  | bool a =>
      refine unmistakable_of_shape (.bool a) hw fun hshape => ?_
      cases hw with
      | bool b => exact unmistakable_bool a b
      | _ => simp [Value.shape] at hshape
  | posInt m =>
      refine unmistakable_of_shape (.posInt m) hw fun hshape => ?_
      cases hw with
      | posInt n => exact unmistakable_natRepr m.toNat n.toNat
      | _ => simp [Value.shape] at hshape
  | negInt m hm =>
      refine unmistakable_of_shape (.negInt m hm) hw fun hshape => ?_
      cases hw with
      | negInt n hn => exact unmistakable_negInt hm hn
      | _ => simp [Value.shape] at hshape
  | string a =>
      refine unmistakable_of_shape (.string a) hw fun hshape => ?_
      cases hw with
      | string b => exact unmistakable_renderString a b
      | _ => simp [Value.shape] at hshape
  | array xs hxs ih =>
      refine unmistakable_of_shape (.array xs hxs) hw fun hshape => ?_
      cases hw with
      | array ys hys =>
          intro s t _ _ h
          obtain ⟨hitems, -⟩ := canonicalString_array_append_inj hxs hys
            (fun x hx y hy => ih x hx (hys y hy)) h
          rw [canonicalString_array, canonicalString_array, hitems]
      | _ => simp [Value.shape] at hshape
  | object f hkeys hf ih =>
      refine unmistakable_of_shape (.object f hkeys hf) hw fun hshape => ?_
      cases hw with
      | object g hkeys' hg =>
          rw [canonicalString_object, canonicalString_object]
          refine unmistakable_canonicalObject ?_
          intro k x y hx hy
          obtain ⟨m, hm, hmx⟩ := List.mem_map.mp hx
          obtain ⟨n, hn, hny⟩ := List.mem_map.mp hy
          rw [← (Prod.mk.inj hmx).2, ← (Prod.mk.inj hny).2]
          exact ih m hm (hg n hn)
      | _ => simp [Value.shape] at hshape

/-! ## The text tells the value -/

/-- Objects whose members have the same texts agree under every key. -/
lemma value_eq_of_perm {f g : List (String × Bytes)} (hkeys : (f.map Prod.fst).Nodup)
    (h : f.Perm g) {k : String} {x y : Bytes} (hx : (k, x) ∈ f) (hy : (k, y) ∈ g) : x = y := by
  have hpair := List.inj_on_of_nodup_map hkeys hx (h.mem_iff.mpr hy) rfl
  exact congrArg Prod.snd hpair

lemma keys_canonicalMembers (f : List (String × Value)) :
    (f.map fun m => (m.1, canonicalString m.2)).map Prod.fst = f.map Prod.fst := by
  rw [List.map_map]
  rfl

/-- Values with one text are the same data.  By induction on the value. -/
theorem same_of_canonicalString_eq (hv : v.Integral) (hw : w.Integral)
    (h : canonicalString v = canonicalString w) : v.Same w := by
  induction hv generalizing w with
  | null =>
      have hshape := shape_eq_of_append_eq .null hw (congrArg (· ++ []) h)
      cases hw with
      | null => exact .refl _
      | _ => simp [Value.shape] at hshape
  | bool a =>
      have hshape := shape_eq_of_append_eq (.bool a) hw (congrArg (· ++ []) h)
      cases hw with
      | bool b =>
          have hab : a = b := by
            cases a <;> cases b <;> first | rfl | exact absurd h (by decide)
          rw [hab]
          exact .refl _
      | _ => simp [Value.shape] at hshape
  | posInt m =>
      have hshape := shape_eq_of_append_eq (.posInt m) hw (congrArg (· ++ []) h)
      cases hw with
      | posInt n =>
          have hrepr : m.toNat.repr = n.toNat.repr := asBytes_injective h
          rw [UInt64.toNat_inj.mp (Nat.repr_inj.mp hrepr)]
          exact .refl _
      | _ => simp [Value.shape] at hshape
  | negInt m hm =>
      have hshape := shape_eq_of_append_eq (.negInt m hm) hw (congrArg (· ++ []) h)
      cases hw with
      | negInt n hn =>
          have hrepr : m.toInt.repr = n.toInt.repr := asBytes_injective h
          rw [Int64.toInt_inj.mp (Int.repr_inj.mp hrepr)]
          exact .refl _
      | _ => simp [Value.shape] at hshape
  | string a =>
      have hshape := shape_eq_of_append_eq (.string a) hw (congrArg (· ++ []) h)
      cases hw with
      | string b =>
          rw [(renderString_append_inj (congrArg (· ++ []) h)).1]
          exact .refl _
      | _ => simp [Value.shape] at hshape
  | array xs hxs ih =>
      have hshape := shape_eq_of_append_eq (.array xs hxs) hw (congrArg (· ++ []) h)
      cases hw with
      | array ys hys =>
          obtain ⟨hitems, -⟩ := canonicalString_array_append_inj hxs hys
            (fun x hx y hy => unmistakable_canonicalString (hxs x hx) (hys y hy))
            (congrArg (· ++ []) h)
          refine .array xs ys (by simpa using congrArg List.length hitems) ?_
          intro i v w hv hw
          have htext : canonicalString v = canonicalString w := by
            have hi := congrArg (fun l => l[i]?) hitems
            simpa [hv, hw] using hi
          exact ih v (List.mem_of_getElem? hv) (hys w (List.mem_of_getElem? hw)) htext
      | _ => simp [Value.shape] at hshape
  | object f hkeys hf ih =>
      have hshape := shape_eq_of_append_eq (.object f hkeys hf) hw (congrArg (· ++ []) h)
      cases hw with
      | object g hkeys' hg =>
          rw [canonicalString_object, canonicalString_object] at h
          have hperm := perm_of_canonicalObject_eq ?_ h
          · have hkeysPerm := hperm.map Prod.fst
            rw [keys_canonicalMembers, keys_canonicalMembers] at hkeysPerm
            refine .object f g hkeysPerm ?_
            intro k v w hv hw
            refine ih (k, v) hv (hg (k, w) hw) ?_
            exact value_eq_of_perm (by rwa [keys_canonicalMembers]) hperm
              (List.mem_map_of_mem hv) (List.mem_map_of_mem hw)
          · intro k x y hx hy
            obtain ⟨m, hm, hmx⟩ := List.mem_map.mp hx
            obtain ⟨n, hn, hny⟩ := List.mem_map.mp hy
            rw [← (Prod.mk.inj hmx).2, ← (Prod.mk.inj hny).2]
            exact unmistakable_canonicalString (hf m hm) (hg n hn)
      | _ => simp [Value.shape] at hshape

/-- Members whose keys and texts are found in another map have their texts listed there. -/
lemma mem_members_of_mem {f g : List (String × Value)} {m : String × Bytes}
    (hkeys : ∀ k ∈ f.map Prod.fst, k ∈ g.map Prod.fst)
    (htexts : ∀ k v w, (k, v) ∈ f → (k, w) ∈ g → canonicalString v = canonicalString w)
    (hm : m ∈ f.map fun n => (n.1, canonicalString n.2)) :
    m ∈ g.map fun n => (n.1, canonicalString n.2) := by
  obtain ⟨⟨k, v⟩, hv, rfl⟩ := List.mem_map.mp hm
  obtain ⟨⟨k', w⟩, hw, hk⟩ := List.mem_map.mp (hkeys k (List.mem_map_of_mem (f := Prod.fst) hv))
  obtain rfl : k' = k := hk
  rw [htexts k' v w hv hw]
  exact List.mem_map_of_mem (f := fun n : String × Value => (n.1, canonicalString n.2)) hw

/-- The same data has one text.  By induction on what makes the two values the same. -/
theorem canonicalString_eq_of_same (hv : v.Integral) (hw : w.Integral) (h : v.Same w) :
    canonicalString v = canonicalString w := by
  induction h with
  | refl v => rfl
  | array xs ys hlength hitems ih =>
      cases hv with
      | array _ hxs =>
          cases hw with
          | array _ hys =>
              have hmap : xs.map canonicalString = ys.map canonicalString := by
                refine List.ext_getElem (by simpa using hlength) ?_
                intro i hi hi'
                rw [List.getElem_map, List.getElem_map]
                rw [List.length_map] at hi hi'
                exact ih i xs[i] ys[i] (List.getElem?_eq_getElem hi) (List.getElem?_eq_getElem hi')
                  (hxs _ (List.getElem_mem hi)) (hys _ (List.getElem_mem hi'))
              rw [canonicalString_array, canonicalString_array, hmap]
  | object f g hkeys hvalues ih =>
      cases hv with
      | object _ hf hfs =>
          cases hw with
          | object _ hg hgs =>
              have htexts : ∀ k v w, (k, v) ∈ f → (k, w) ∈ g →
                  canonicalString v = canonicalString w :=
                fun k v w hv hw => ih k v w hv hw (hfs (k, v) hv) (hgs (k, w) hw)
              rw [canonicalString_object, canonicalString_object]
              refine canonicalObject_eq_of_perm (by rwa [keys_canonicalMembers]) ?_
              refine (List.perm_ext_iff_of_nodup ?_ ?_).mpr fun m => ⟨?_, ?_⟩
              · exact List.Nodup.of_map Prod.fst (by rwa [keys_canonicalMembers])
              · exact List.Nodup.of_map Prod.fst (by rwa [keys_canonicalMembers])
              · exact mem_members_of_mem (fun k => hkeys.mem_iff.mp) htexts
              · exact mem_members_of_mem (fun k => hkeys.mem_iff.mpr)
                  fun k w v hw hv => (htexts k v w hv hw).symm

/-- **Canonical JSON is canonical and injective.**  Two values of null, booleans, integers,
strings, arrays and objects have one canonical text exactly when they are equal up to the order of
the keys of their objects. -/
theorem canonicalString_eq_iff (hv : v.Integral) (hw : w.Integral) :
    canonicalString v = canonicalString w ↔ v.Same w :=
  ⟨same_of_canonicalString_eq hv hw, canonicalString_eq_of_same hv hw⟩

end

/-! ## A document and its reordering -/

namespace Reordered

/-- `{"b":[null,-1],"a":{"say":"\"hi\"","n":2}}`. -/
def document : Value :=
  .object [("b", .array [.null, .negInt (-1)]),
    ("a", .object [("say", .string "\"hi\""), ("n", .posInt 2)])]

/-- The same members, listed in key order. -/
def sorted : Value :=
  .object [("a", .object [("n", .posInt 2), ("say", .string "\"hi\"")]),
    ("b", .array [.null, .negInt (-1)])]

lemma integral_inner {f : List (String × Value)} (hkeys : (f.map Prod.fst).Nodup)
    (h : ∀ m ∈ f, m.2 = .posInt 2 ∨ m.2 = .string "\"hi\"") : Value.Integral (.object f) := by
  refine .object f hkeys ?_
  intro m hm
  obtain hm | hm := h m hm
  · rw [hm]
    exact .posInt 2
  · rw [hm]
    exact .string _

lemma integral_items : Value.Integral (.array [.null, .negInt (-1)]) := by
  refine .array _ ?_
  intro v hv
  simp only [List.mem_cons, List.not_mem_nil, or_false] at hv
  obtain rfl | rfl := hv
  · exact .null
  · exact .negInt (-1) (by decide)

lemma integral_document : document.Integral := by
  refine .object _ (by decide) ?_
  intro m hm
  simp only [List.mem_cons, List.not_mem_nil, or_false] at hm
  obtain rfl | rfl := hm
  · exact integral_items
  · exact integral_inner (by decide) (by simp)

lemma integral_sorted : sorted.Integral := by
  refine .object _ (by decide) ?_
  intro m hm
  simp only [List.mem_cons, List.not_mem_nil, or_false] at hm
  obtain rfl | rfl := hm
  · exact integral_inner (by decide) (by simp)
  · exact integral_items

/-- The two documents are the same data, as their texts show. -/
theorem canonicalString_eq_iff_sorted : document.Same sorted :=
  (canonicalString_eq_iff integral_document integral_sorted).mp (by decide +kernel)

end Reordered

end Ciss
