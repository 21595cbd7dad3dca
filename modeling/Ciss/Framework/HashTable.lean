import Mathlib.Data.List.Nodup
import Ciss.Framework.Delimited

/-!
# A collision-free hash that agrees with a given table

Collision resistance is used as an injectivity hypothesis on a hash parameter.  No function
into 64-digit hex is injective, so an instance of such a hypothesis is a function that takes
the real digests on the finitely many inputs that matter and an injective rendering of the
input everywhere else.  `tabulatedHash table` is that function: it looks its input up in
`table`, and renders an input that is not listed as `x` followed by one character per byte.

`tabulatedHash_injective` holds as soon as the listed digests are distinct and none of them
begins with `x`, which no hex digest does.

Where a statement also reads the digest as hexadecimal text (`HexHash`), `tabulatedHex` spells the
inputs that are not listed in hexadecimal digits as well, at a length no digest has.
-/

namespace Ciss

/-- One character per byte. -/
def latinOne (b : Bytes) : String := String.ofList (b.map Char.ofUInt8)

lemma latinOne_injective : Function.Injective latinOne := by
  intro a b h
  have hl : a.map Char.ofUInt8 = b.map Char.ofUInt8 := by
    simpa [latinOne] using congrArg String.toList h
  have hchar : Function.Injective Char.ofUInt8 := by
    intro u v huv
    have hval : u.toUInt32 = v.toUInt32 := congrArg Char.val huv
    exact UInt8.toUInt32_inj.mp hval
  exact hchar.list_map hl

/-- The digest listed for `b`, or an injective rendering of `b`. -/
def tabulatedHash (table : List (Bytes × String)) (b : Bytes) : String :=
  (table.lookup b).getD ("x" ++ latinOne b)

/-- The first byte of `x`. -/
def xByte : UInt8 := 0x78

lemma head?_asBytes_x (s : String) : (asBytes ("x" ++ s)).head? = some xByte := by
  have hx : asBytes "x" = [xByte] := by decide
  simp [asBytes_append, hx]

/-- The digests are distinct and none begins with `x`. -/
def DistinctDigests (table : List (Bytes × String)) : Prop :=
  (table.map Prod.snd).Nodup ∧ ∀ h ∈ table.map Prod.snd, (asBytes h).head? ≠ some xByte

instance (table : List (Bytes × String)) : Decidable (DistinctDigests table) :=
  inferInstanceAs (Decidable (_ ∧ _))

/-- Digests that differ in their first bytes are distinct. -/
lemma distinctDigests_of_take {table : List (Bytes × String)} (n : Nat)
    (h : (table.map fun x => (asBytes x.2).take n).Nodup)
    (hx : ∀ x ∈ table, (asBytes x.2).head? ≠ some xByte) : DistinctDigests table := by
  refine ⟨List.Nodup.of_map (fun s => (asBytes s).take n) ?_, ?_⟩
  · rwa [List.map_map]
  · rintro s hs
    obtain ⟨x, hmem, rfl⟩ := List.mem_map.mp hs
    exact hx x hmem

lemma mem_of_lookup_eq_some {β : Type*} {table : List (Bytes × β)} {b : Bytes} {h : β}
    (hl : table.lookup b = some h) : (b, h) ∈ table := by
  obtain ⟨l₁, l₂, rfl, -⟩ := List.lookup_eq_some_iff.mp hl
  simp

theorem tabulatedHash_injective {table : List (Bytes × String)} (ht : DistinctDigests table) :
    Function.Injective (tabulatedHash table) := by
  obtain ⟨hnodup, hx⟩ := ht
  have hrender : ∀ b : Bytes, (asBytes ("x" ++ latinOne b)).head? = some xByte :=
    fun b => head?_asBytes_x _
  intro a b h
  unfold tabulatedHash at h
  rcases ha : table.lookup a with _ | u <;> rcases hb : table.lookup b with _ | v
  · rw [ha, hb] at h
    exact latinOne_injective ((String.append_right_inj "x").mp h)
  · rw [ha, hb] at h
    have hmem := List.mem_map_of_mem (f := Prod.snd) (mem_of_lookup_eq_some hb)
    refine absurd ?_ (hx v hmem)
    rw [← show "x" ++ latinOne a = v from h]
    exact hrender a
  · rw [ha, hb] at h
    have hmem := List.mem_map_of_mem (f := Prod.snd) (mem_of_lookup_eq_some ha)
    refine absurd ?_ (hx u hmem)
    rw [show u = "x" ++ latinOne b from h]
    exact hrender b
  · rw [ha, hb] at h
    have huv : u = v := h
    subst huv
    have hinj := List.inj_on_of_nodup_map hnodup
    have := hinj (mem_of_lookup_eq_some ha) (mem_of_lookup_eq_some hb) rfl
    exact congrArg Prod.fst this

/-- The digest listed first. -/
lemma tabulatedHash_cons_self (table : List (Bytes × String)) (b : Bytes) (h : String) :
    tabulatedHash ((b, h) :: table) b = h := by
  simp [tabulatedHash]

/-- A tabulated hash avoids a value that is not listed and does not begin with `x`. -/
lemma tabulatedHash_ne {table : List (Bytes × String)} {v : String}
    (hv : v ∉ table.map Prod.snd) (hx : (asBytes v).head? ≠ some xByte) (b : Bytes) :
    tabulatedHash table b ≠ v := by
  intro h
  unfold tabulatedHash at h
  rcases hb : table.lookup b with _ | u
  · rw [hb] at h
    refine hx ?_
    rw [← show "x" ++ latinOne b = v from h]
    exact head?_asBytes_x _
  · rw [hb] at h
    have hu : u = v := h
    exact hv (hu ▸ List.mem_map_of_mem (f := Prod.snd) (mem_of_lookup_eq_some hb))

/-! ## Hexadecimal digests -/

/-- A lowercase hexadecimal digit. -/
def isLowerHexDigit (c : Char) : Bool := c.isDigit || ('a' ≤ c && c ≤ 'f')

/-- What statements about signed and hashed texts take from a hash function: it has no collisions
and its digests are lowercase hexadecimal. -/
structure HexHash (hash : Bytes → String) : Prop where
  injective : Function.Injective hash
  hex : ∀ b, ∀ c ∈ (hash b).toList, isLowerHexDigit c = true

lemma HexHash.free {hash : Bytes → String} (h : HexHash hash) {c : Char}
    (hc : isLowerHexDigit c = false) (b : Bytes) : free c (hash b) := by
  intro hmem
  rw [h.hex b c hmem] at hc
  cases hc

/-- The byte of a lowercase hexadecimal digit. -/
def isLowerHexByte (b : UInt8) : Bool :=
  48 ≤ b.toNat && b.toNat ≤ 57 || 97 ≤ b.toNat && b.toNat ≤ 102

/-- A text whose bytes are those of lowercase hexadecimal digits has no other characters: the
bytes of any other character are outside these ranges. -/
lemma isLowerHexDigit_of_bytes {s : String} (h : (asBytes s).all isLowerHexByte = true) {c : Char}
    (hc : c ∈ s.toList) : isLowerHexDigit c = true := by
  have hbytes : ∀ b ∈ String.utf8EncodeChar c, isLowerHexByte b = true :=
    fun b hb => List.all_eq_true.mp h b (mem_asBytes_of_mem hc hb)
  have hval : isLowerHexByte (UInt8.ofNat c.val.toNat) = true ∧ c.val.toNat < 128 := by
    unfold String.utf8EncodeChar at hbytes
    dsimp only at hbytes
    split_ifs at hbytes with h1 h2 h3
    · refine ⟨hbytes _ ?_, by omega⟩
      simp [UInt8.ofNat]
    all_goals
      exfalso
      have hfirst := hbytes _ (List.mem_cons_self)
      simp only [isLowerHexByte, Bool.or_eq_true, Bool.and_eq_true, decide_eq_true_eq] at hfirst
      simp at hfirst
      omega
  obtain ⟨hbyte, hlt⟩ := hval
  have hnat : (UInt8.ofNat c.val.toNat).toNat = c.val.toNat := by
    rw [UInt8.toNat_ofNat']
    omega
  simp only [isLowerHexByte, hnat, Bool.or_eq_true, Bool.and_eq_true, decide_eq_true_eq] at hbyte
  simp only [isLowerHexDigit, Char.isDigit, Bool.or_eq_true, Bool.and_eq_true, decide_eq_true_eq,
    Char.le_def, UInt32.le_iff_toNat_le]
  exact hbyte

/-- A hexadecimal spelling of a byte string that is longer than any digest: zeros, and then every
byte as that many `a` and a `b`. -/
def spell (b : Bytes) : String :=
  String.ofList (List.replicate 65 '0' ++ b.flatMap fun x => List.replicate x.toNat 'a' ++ ['b'])

lemma spell_injective : Function.Injective spell := by
  intro a b h
  have hlist : (a.flatMap fun x => List.replicate x.toNat 'a' ++ ['b']) =
      b.flatMap fun x => List.replicate x.toNat 'a' ++ ['b'] :=
    List.append_cancel_left (String.ofList_injective h)
  have hfree : ∀ n : Nat, 'b' ∉ List.replicate n 'a' := by
    intro n hmem
    exact absurd (List.eq_of_mem_replicate hmem) (by decide)
  clear h
  induction a generalizing b with
  | nil =>
      cases b with
      | nil => rfl
      | cons y b => simp at hlist
  | cons x a ih =>
      cases b with
      | nil => simp at hlist
      | cons y b =>
          simp only [List.flatMap_cons, List.append_assoc, List.singleton_append] at hlist
          obtain ⟨hxy, hab⟩ := append_cons_inj_of_free (hfree _) (hfree _) hlist
          have hlen : x.toNat = y.toNat := by simpa using congrArg List.length hxy
          rw [UInt8.toNat_inj.mp hlen, ih hab]

lemma spell_hex (b : Bytes) : ∀ c ∈ (spell b).toList, isLowerHexDigit c = true := by
  intro c hc
  simp only [spell, String.toList_ofList, List.mem_append, List.mem_flatMap,
    List.mem_singleton] at hc
  rcases hc with hc | ⟨x, -, hc | rfl⟩
  · rw [List.eq_of_mem_replicate hc]
    decide
  · rw [List.eq_of_mem_replicate hc]
    decide
  · decide

lemma length_asBytes_spell (b : Bytes) : 65 ≤ (asBytes (spell b)).length := by
  refine Nat.le_trans ?_ (length_toList_le_asBytes (spell b))
  rw [spell, String.toList_ofList, List.length_append, List.length_replicate]
  omega

/-- The digest listed for `b`, or the spelling of `b`. -/
def tabulatedHex (table : List (Bytes × String)) (b : Bytes) : String :=
  (table.lookup b).getD (spell b)

/-- The listed digests are distinct, and each is 64 lowercase hexadecimal digits. -/
def HexDigests (table : List (Bytes × String)) : Prop :=
  (table.map fun x => asBytes x.2).Nodup ∧
    ∀ x ∈ table, (asBytes x.2).length = 64 ∧ (asBytes x.2).all isLowerHexByte = true

instance (table : List (Bytes × String)) : Decidable (HexDigests table) :=
  inferInstanceAs (Decidable (_ ∧ _))

theorem hexHash_tabulatedHex {table : List (Bytes × String)} (ht : HexDigests table) :
    HexHash (tabulatedHex table) := by
  obtain ⟨hnodup, hdigest⟩ := ht
  have hne : ∀ {a b : Bytes} {v : String}, table.lookup b = some v → spell a ≠ v := by
    intro a b v hb heq
    have hlong := length_asBytes_spell a
    rw [heq, (hdigest _ (mem_of_lookup_eq_some hb)).1] at hlong
    omega
  refine ⟨?_, ?_⟩
  · intro a b h
    unfold tabulatedHex at h
    rcases ha : table.lookup a with _ | u <;> rcases hb : table.lookup b with _ | v
    · rw [ha, hb] at h
      exact spell_injective h
    · rw [ha, hb] at h
      exact absurd h (hne hb)
    · rw [ha, hb] at h
      exact absurd h.symm (hne ha)
    · rw [ha, hb] at h
      have huv : u = v := h
      subst huv
      have hinj := List.inj_on_of_nodup_map hnodup
      have := hinj (mem_of_lookup_eq_some ha) (mem_of_lookup_eq_some hb) rfl
      exact congrArg Prod.fst this
  · intro b c hc
    unfold tabulatedHex at hc
    rcases hb : table.lookup b with _ | v
    · rw [hb] at hc
      exact spell_hex b c hc
    · rw [hb] at hc
      exact isLowerHexDigit_of_bytes (hdigest _ (mem_of_lookup_eq_some hb)).2 hc

/-! ## A reader for given texts -/

/-- A reader that knows the texts of the listed values. -/
def readBack {α : Type*} (text : α → Bytes) (values : List α) (bytes : Bytes) : Option α :=
  values.find? fun x => text x = bytes

lemma mem_of_readBack {α : Type*} {text : α → Bytes} {values : List α} {bytes : Bytes} {x : α}
    (h : readBack text values bytes = some x) : x ∈ values :=
  List.mem_of_find?_eq_some h

/-- Values with different texts are read back. -/
lemma readBack_of_nodup {α : Type*} {text : α → Bytes} {values : List α} {x : α}
    (h : (values.map text).Nodup) (hx : x ∈ values) : readBack text values (text x) = some x := by
  unfold readBack
  induction values with
  | nil => cases hx
  | cons y values ih =>
      obtain ⟨hy, hvalues⟩ := List.nodup_cons.mp h
      rcases List.mem_cons.mp hx with rfl | hx
      · simp
      · have hne : text y ≠ text x := fun heq => hy (heq ▸ List.mem_map_of_mem hx)
        rw [List.find?_cons_of_neg (by simpa using hne)]
        exact ih hvalues hx

end Ciss
