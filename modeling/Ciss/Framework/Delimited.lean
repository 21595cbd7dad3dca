import Mathlib.Algebra.GroupWithZero.Nat
import Mathlib.Data.List.Lex
import Mathlib.Data.List.Sort
import Std.Data.String.ToNat
import Std.Data.String.ToInt

/-!
# Delimiter-joined text

Signed and hashed preimages are built by joining fields with a delimiter character.  Such a
join is injective in a field exactly as long as the delimiter cannot occur inside it; this
module has that argument once, for one field at a time, so that a preimage of any number of
fields is taken apart from the left (`sep_inj`) or, when it is the first fields that may hold the
delimiter, from the right (`sep_inj_right`).

`free c s` says the character `c` does not occur in `s`.  Decimal numerals are free of every
character that is neither a digit nor the minus sign (`free_natRepr`, `free_intRepr`), and two
numerals that print alike are equal (Lean's own `Nat.repr_inj` and `Int.repr_inj`).

`asBytes` is the UTF-8 encoding the hash functions read, and `byteCompare` the order of strings by
these bytes.  `mem_asBytes_of_mem` reads characters off the bytes, for checks that are made on the
bytes of a text.
-/

namespace Ciss

/-- A byte string. -/
abbrev Bytes := List UInt8

/-- The UTF-8 bytes of a string. -/
def asBytes (s : String) : Bytes := s.toUTF8.data.toList

lemma asBytes_injective : Function.Injective asBytes := by
  intro a b h
  have hdata : a.toUTF8.data = b.toUTF8.data := Array.toList_inj.mp h
  exact String.toByteArray_inj.mp (ByteArray.ext hdata)

lemma asBytes_append (a b : String) : asBytes (a ++ b) = asBytes a ++ asBytes b := by
  simp [asBytes, String.toByteArray_append]

lemma asBytes_eq_flatMap (s : String) : asBytes s = s.toList.flatMap String.utf8EncodeChar := by
  unfold asBytes
  rw [String.toUTF8, ← String.utf8Encode_toList]
  simp [List.utf8Encode]

/-- The bytes of every character of a text are bytes of the text. -/
lemma mem_asBytes_of_mem {s : String} {c : Char} {b : UInt8} (hc : c ∈ s.toList)
    (hb : b ∈ String.utf8EncodeChar c) : b ∈ asBytes s := by
  rw [asBytes_eq_flatMap]
  exact List.mem_flatMap.mpr ⟨c, hc, hb⟩

lemma length_toList_le_asBytes (s : String) : s.toList.length ≤ (asBytes s).length := by
  rw [asBytes_eq_flatMap, List.length_flatMap]
  simp only [String.length_utf8EncodeChar]
  induction s.toList with
  | nil => simp
  | cons c cs ih =>
      have hpos := c.utf8Size_pos
      rw [List.length_cons, List.map_cons, List.sum_cons]
      omega

/-- The order of strings by their bytes. -/
def byteCompare (a b : String) : Ordering := compareOn asBytes a b

instance : Std.TransCmp byteCompare := inferInstanceAs (Std.TransCmp (compareOn asBytes))

instance : Std.LawfulEqCmp byteCompare where
  eq_of_compare h := asBytes_injective (Std.LawfulEqOrd.compare_eq_iff_eq.mp h)

lemma byteCompare_eq_iff {a b : String} : byteCompare a b = .eq ↔ a = b :=
  Std.LawfulEqCmp.compare_eq_iff_eq

section

variable {α : Type*} (key : α → String)

/-- Sorting by the bytes of a key. -/
lemma pairwise_insertionSort_byteCompare (l : List α) :
    (l.insertionSort fun a b => (byteCompare (key a) (key b)).isLE = true).Pairwise
      fun a b => (byteCompare (key a) (key b)).isLE = true := by
  have : Std.Total fun a b : α => (byteCompare (key a) (key b)).isLE = true := by
    refine ⟨fun a b => ?_⟩
    have hswap : byteCompare (key b) (key a) = (byteCompare (key a) (key b)).swap :=
      Std.OrientedCmp.eq_swap
    rw [hswap]
    cases byteCompare (key a) (key b) <;> simp
  have : IsTrans α fun a b => (byteCompare (key a) (key b)).isLE = true :=
    ⟨fun a b c => Std.TransCmp.isLE_trans⟩
  exact List.pairwise_insertionSort _ l

/-- Two lists with the same members, in which no two members share a key, are sorted alike. -/
lemma insertionSort_byteCompare_eq_of_perm {l l' : List α} (hkeys : (l.map key).Nodup)
    (h : l.Perm l') :
    (l.insertionSort fun a b => (byteCompare (key a) (key b)).isLE = true) =
      l'.insertionSort fun a b => (byteCompare (key a) (key b)).isLE = true := by
  have hperm := List.perm_insertionSort fun a b : α => (byteCompare (key a) (key b)).isLE = true
  refine List.Perm.eq_of_pairwise ?_ (pairwise_insertionSort_byteCompare key l)
    (pairwise_insertionSort_byteCompare key l') ?_
  · intro a b ha hb hab hba
    have hkey : key a = key b := byteCompare_eq_iff.mp (Std.OrientedCmp.isLE_antisymm hab hba)
    exact List.inj_on_of_nodup_map hkeys ((hperm l).mem_iff.mp ha)
      (h.mem_iff.mpr ((hperm l').mem_iff.mp hb)) hkey
  · exact ((hperm l).trans h).trans (hperm l').symm

end

/-- The character `c` does not occur in `s`. -/
def free (c : Char) (s : String) : Prop := c ∉ s.toList

instance (c : Char) (s : String) : Decidable (free c s) :=
  inferInstanceAs (Decidable (c ∉ s.toList))

lemma free_append {c : Char} {s t : String} : free c (s ++ t) ↔ free c s ∧ free c t := by
  simp [free, not_or]

lemma append_cons_inj_of_free {α : Type*} {c : α} {a b x y : List α} (ha : c ∉ a) (hb : c ∉ b)
    (h : a ++ c :: x = b ++ c :: y) : a = b ∧ x = y := by
  induction a generalizing b with
  | nil =>
      cases b with
      | nil => simpa using h
      | cons d b =>
          simp only [List.nil_append, List.cons_append, List.cons.injEq] at h
          exact absurd h.1 (fun hcd => hb (by simp [hcd]))
  | cons e a ih =>
      cases b with
      | nil =>
          simp only [List.nil_append, List.cons_append, List.cons.injEq] at h
          exact absurd h.1 (fun hec => ha (by simp [hec]))
      | cons d b =>
          simp only [List.cons_append, List.cons.injEq] at h
          obtain ⟨hab, hxy⟩ :=
            ih (List.not_mem_of_not_mem_cons ha) (List.not_mem_of_not_mem_cons hb) h.2
          exact ⟨by rw [h.1, hab], hxy⟩

/-- **Taking a field off the left.**  If the delimiter does not occur in the first fields, two
joins that are equal have equal first fields and equal rests. -/
theorem sep_inj {c : Char} {a b : String} {x y : List Char} (ha : free c a) (hb : free c b)
    (h : a.toList ++ c :: x = b.toList ++ c :: y) : a = b ∧ x = y := by
  obtain ⟨hab, hxy⟩ := append_cons_inj_of_free ha hb h
  exact ⟨String.toList_inj.mp hab, hxy⟩

/-- **Taking a field off the right.**  If the delimiter does not occur in the last fields, two
joins that are equal have equal last fields and equal rests. -/
theorem sep_inj_right {c : Char} {a b : String} {x y : List Char} (ha : free c a) (hb : free c b)
    (h : x ++ c :: a.toList = y ++ c :: b.toList) : a = b ∧ x = y := by
  have hrev : a.toList.reverse ++ c :: x.reverse = b.toList.reverse ++ c :: y.reverse := by
    have := congrArg List.reverse h
    simpa using this
  obtain ⟨hab, hxy⟩ := append_cons_inj_of_free (by simpa [free] using ha)
    (by simpa [free] using hb) hrev
  exact ⟨String.toList_inj.mp (List.reverse_injective hab), List.reverse_injective hxy⟩

/-- **Taking a join apart.**  Two lists of equally many parts without the delimiter that join to
one text are equal. -/
theorem intercalate_inj {c : Char} {l l' : List String} (hlen : l.length = l'.length)
    (hl : ∀ s ∈ l, free c s) (hl' : ∀ s ∈ l', free c s)
    (h : [c].intercalate (l.map String.toList) = [c].intercalate (l'.map String.toList)) :
    l = l' := by
  induction l generalizing l' with
  | nil => exact (List.length_eq_zero_iff.mp hlen.symm).symm
  | cons a l ih =>
      obtain ⟨b, l', rfl⟩ := List.exists_cons_of_length_eq_add_one hlen.symm
      have hlen : l.length = l'.length := by simpa using hlen
      by_cases hnil : l = []
      · have hnil' : l' = [] := List.length_eq_zero_iff.mp (by rw [← hlen, hnil]; rfl)
        subst hnil hnil'
        have hab : a = b := by simpa [String.toList_inj] using h
        rw [hab]
      · have hnil' : l' ≠ [] := by
          rintro rfl
          exact hnil (List.length_eq_zero_iff.mp hlen)
        rw [List.map_cons, List.map_cons, List.intercalate_cons_of_ne_nil (by simpa using hnil),
          List.intercalate_cons_of_ne_nil (by simpa using hnil'), List.append_assoc,
          List.append_assoc] at h
        obtain ⟨hab, hrest⟩ := sep_inj (hl a (by simp)) (hl' b (by simp)) h
        rw [hab, ih hlen (fun s hs => hl s (by simp [hs])) (fun s hs => hl' s (by simp [hs])) hrest]

/-! ## Decimal numerals -/

lemma free_natRepr {c : Char} (hc : c.isDigit = false) (n : Nat) : free c n.repr := by
  intro hmem
  rw [Nat.toList_repr] at hmem
  have := Nat.isDigit_of_mem_toDigits (by omega) (by omega) hmem
  simp [hc] at this

lemma free_intRepr {c : Char} (hc : c.isDigit = false) (hneg : c ≠ '-') (i : Int) :
    free c i.repr := by
  cases i with
  | ofNat n => exact free_natRepr hc n
  | negSucc n =>
      show free c ("-" ++ (n + 1).repr)
      rw [free_append]
      exact ⟨by simpa [free] using hneg, free_natRepr hc _⟩

end Ciss
