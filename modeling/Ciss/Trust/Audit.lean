import Mathlib.Algebra.Order.Field.Basic
import Mathlib.Algebra.Order.Field.Rat
import Mathlib.Data.Finset.Card
import Mathlib.Data.Finset.Range
import Mathlib.Data.List.Sort
import Mathlib.Data.Nat.Factorial.Cast
import Mathlib.Data.Nat.Size
import Mathlib.Tactic.Linarith
import Mathlib.Tactic.Positivity
import Ciss.Framework.Shuffle
import Ciss.Trust.ContentStore
import Ciss.Server.Manifest

/-!
# The spot check

An audit draws `k` leaves of a manifest without replacement, retrieves each and fingerprints it.
The draws come from a seeded generator, `mulberry32`; `sampleIndices` is the partial Fisher-Yates
shuffle over them.  An offset that leads out of the pool, and an index without a leaf, end it with
`none`: there the code panics.

`Rng.int_lt` says that every offset of the generator is in range, although it is computed with
rounding, so that the sample is what the generator's own draws take (`sample_indices_distinct`).
What a sample is worth is a count over all draws (`Framework/Shuffle`), each of them a run of the
shuffle over a source that yields it: each set of `k` leaves is drawn equally often
(`each_sample_equally_often`), and an audit misses the leaves that are lost or tampered in at most
the share `(1 - f) ^ k` of the draws (`audit_detects`), in exact arithmetic.
-/

namespace Ciss

/-! ## The generator -/

/-- The rounding of a whole number to the 53 bits of a double: to nearest, ties to even. -/
def roundF64 (m : Nat) : Nat :=
  let s := m.size - 53
  let q := m / 2 ^ s
  let r := m % 2 ^ s
  if 2 * r < 2 ^ s ∨ 2 * r = 2 ^ s ∧ q % 2 = 0 then q * 2 ^ s else (q + 1) * 2 ^ s

/-- The state of the generator. -/
structure Rng where
  state : UInt32
  deriving DecidableEq, Repr

namespace Rng

/-- A generator from the first four bytes of the seed's digest. -/
def new (C : Crypto) (seed : String) : Rng :=
  match hexDecode (C.sha256Hex (asBytes seed)) with
  | some (a :: b :: c :: d :: _) =>
      ⟨a.toUInt32 ||| b.toUInt32 <<< 8 ||| c.toUInt32 <<< 16 ||| d.toUInt32 <<< 24⟩
  | _ => ⟨0⟩

/-- The numerator, over `2 ^ 32`, of the next number in `[0, 1)`. -/
def next (rng : Rng) : UInt32 × Rng :=
  let state := rng.state + 0x6d2b79f5
  let t := (state ^^^ state >>> 15) * (1 ||| state)
  let t := (t + (t ^^^ t >>> 7) * (0x3d ||| t)) ^^^ t
  (t ^^^ t >>> 14, ⟨state⟩)

/-- The next whole number below `n`: a product of doubles, cut off. -/
def int (rng : Rng) (n : Nat) : Nat × Rng :=
  (roundF64 (rng.next.1.toNat * roundF64 n) / 2 ^ 32, rng.next.2)

end Rng

/-- `min k n` distinct indices below `n`, in ascending order, drawn from any source of offsets. -/
def sampleIndicesFrom {σ : Type} (int : σ → Nat → Nat × σ) (s : σ) (n k : Nat) :
    Option (List Nat × σ) :=
  let count := min k n
  (shuffleFrom int count 0 (List.range n) s).map fun pool =>
    ((pool.1.take count).insertionSort (· ≤ ·), pool.2)

/-- The sample of the generator. -/
def Rng.sampleIndices (rng : Rng) (n k : Nat) : Option (List Nat × Rng) :=
  sampleIndicesFrom Rng.int rng n k

/-! ## Offsets in range -/

/-- Half a unit is at most one part in `2 ^ 53` of a number that has 52 bits above the unit. -/
lemma half_unit_le {up unit m : Nat} (hup : 2 * up ≤ 2 * m + unit) (hunit : unit * 2 ^ 52 ≤ m) :
    up * 2 ^ 53 ≤ m * (2 ^ 53 + 1) := by
  linarith

/-- Rounding adds at most one part in `2 ^ 53`. -/
lemma roundF64_le (m : Nat) : roundF64 m * 2 ^ 53 ≤ m * (2 ^ 53 + 1) := by
  simp only [roundF64]
  set s := m.size - 53 with hs
  have hdiv : 2 ^ s * (m / 2 ^ s) + m % 2 ^ s = m := Nat.div_add_mod m (2 ^ s)
  have hdown : m / 2 ^ s * 2 ^ s ≤ m := Nat.div_mul_le_self m _
  split_ifs with hround
  · exact Nat.mul_le_mul hdown (Nat.le_succ _)
  · have hhalf : 2 ^ s ≤ 2 * (m % 2 ^ s) := by
      by_contra h
      exact hround (Or.inl (by omega))
    have hs0 : s ≠ 0 := by
      intro h0
      rw [h0, pow_zero, Nat.mod_one] at hhalf
      omega
    have hunit : 2 ^ s * 2 ^ 52 ≤ m := by
      rw [← Nat.pow_add]
      exact Nat.lt_size.mp (by omega)
    have hup : 2 * ((m / 2 ^ s + 1) * 2 ^ s) ≤ 2 * m + 2 ^ s := by
      rw [Nat.add_mul, Nat.one_mul, Nat.mul_comm (m / 2 ^ s)]
      omega
    exact half_unit_le hup hunit

namespace Rng

lemma div_lt_of_lt {m n : Nat} (h : m < n * 2 ^ 32) : m / 2 ^ 32 < n :=
  (Nat.div_lt_iff_lt_mul (Nat.two_pow_pos 32)).mpr h

/-- What two roundings add is less than what a numerator below `2 ^ 32` lacks. -/
lemma product_lt {numerator entries rounded n : Nat} (hn : 0 < n) (hnum : numerator < 2 ^ 32)
    (hentries : entries * 2 ^ 53 ≤ n * (2 ^ 53 + 1))
    (hrounded : rounded * 2 ^ 53 ≤ numerator * entries * (2 ^ 53 + 1)) :
    rounded < n * 2 ^ 32 := by
  have hbound : rounded * 2 ^ 106 ≤ (2 ^ 32 - 1) * (2 ^ 53 + 1) * (2 ^ 53 + 1) * n := by
    calc rounded * 2 ^ 106
        = rounded * 2 ^ 53 * 2 ^ 53 := by ring
      _ ≤ numerator * entries * (2 ^ 53 + 1) * 2 ^ 53 := Nat.mul_le_mul_right _ hrounded
      _ = numerator * (entries * 2 ^ 53) * (2 ^ 53 + 1) := by ring
      _ ≤ (2 ^ 32 - 1) * (n * (2 ^ 53 + 1)) * (2 ^ 53 + 1) :=
          Nat.mul_le_mul_right _ (Nat.mul_le_mul (Nat.le_sub_one_of_lt hnum) hentries)
      _ = (2 ^ 32 - 1) * (2 ^ 53 + 1) * (2 ^ 53 + 1) * n := by ring
  omega

lemma int_fst (rng : Rng) (n : Nat) :
    (rng.int n).1 = roundF64 (rng.next.1.toNat * roundF64 n) / 2 ^ 32 := by
  rw [int]

/-- **An offset stays in range**, for any number of entries. -/
lemma int_lt (rng : Rng) {n : Nat} (hn : 0 < n) : (rng.int n).1 < n := by
  have hrounded : roundF64 (rng.next.1.toNat * roundF64 n) < n * 2 ^ 32 :=
    product_lt hn rng.next.1.toNat_lt (roundF64_le n) (roundF64_le _)
  rw [int_fst]
  exact div_lt_of_lt hrounded

end Rng

/-! ## The sample -/

/-- What the draws take from `n` indices, in ascending order. -/
def sampleOf (n : Nat) (ds : List Nat) : List Nat :=
  (drawAll (List.range n) ds).insertionSort (· ≤ ·)

lemma perm_sampleOf (n : Nat) (ds : List Nat) :
    (sampleOf n ds).Perm (drawAll (List.range n) ds) := List.perm_insertionSort _ _

lemma nodup_drawAll_range (n : Nat) (ds : List Nat) : (drawAll (List.range n) ds).Nodup := by
  obtain ⟨l, hperm, hsub⟩ := drawAll_subperm (List.range n) ds
  exact hperm.nodup_iff.mp (List.nodup_range.sublist hsub)

lemma lt_of_mem_sampleOf {n i : Nat} {ds : List Nat} (h : i ∈ sampleOf n ds) : i < n :=
  List.mem_range.mp ((drawAll_subperm _ ds).subset ((perm_sampleOf n ds).mem_iff.mp h))

lemma length_sampleOf {n k : Nat} {ds : List Nat} (h : ds ∈ allDraws n k) (hk : k ≤ n) :
    (sampleOf n ds).length = k := by
  rw [(perm_sampleOf n ds).length_eq, length_drawAll, List.length_range, (mem_allDraws.mp h).1]
  exact Nat.min_eq_right hk

lemma pairwise_sampleOf (n : Nat) (ds : List Nat) : (sampleOf n ds).Pairwise (· < ·) := by
  have hsorted : (sampleOf n ds).Pairwise (· ≤ ·) := List.pairwise_insertionSort _ _
  have hnodup : (sampleOf n ds).Nodup :=
    (perm_sampleOf n ds).nodup_iff.mpr (nodup_drawAll_range n ds)
  exact (hsorted.and hnodup).imp fun h => lt_of_le_of_ne h.1 h.2

/-- **The sample is what the draws take**, from any source whose offsets can be drawn. -/
lemma sampleIndicesFrom_eq {σ : Type} {int : σ → Nat → Nat × σ} {s : σ} {n k : Nat}
    (h : draws int (min k n) n s ∈ allDraws n (min k n)) :
    sampleIndicesFrom int s n k =
      some (sampleOf n (draws int (min k n) n s), drawn int (min k n) n s) := by
  have hlen : (drawAll (List.range n) (draws int (min k n) n s)).length = min k n := by
    rw [← (perm_sampleOf n _).length_eq]
    exact length_sampleOf h (Nat.min_le_right k n)
  obtain ⟨left, hrun⟩ := shuffleFrom_eq int s [] (List.range n) (by rwa [List.length_range])
  rw [List.nil_append, List.nil_append, List.length_nil, List.length_range] at hrun
  simp only [sampleIndicesFrom, hrun, Option.map_some]
  rw [List.take_append_of_le_length hlen.ge, List.take_of_length_le hlen.le, sampleOf]

lemma Rng.draws_mem (rng : Rng) (n k : Nat) :
    draws Rng.int (min k n) n rng ∈ allDraws n (min k n) :=
  draws_mem_allDraws _ (fun rng _ => rng.int_lt) (Nat.min_le_right k n)

/-- A draw is the sample of the source that yields it. -/
lemma sampleIndicesFrom_yields {n k : Nat} {ds : List Nat} (h : ds ∈ allDraws n (min k n)) :
    sampleIndicesFrom yields ds n k = some (sampleOf n ds, []) := by
  have hlen : min k n = ds.length := (mem_allDraws.mp h).1.symm
  have hdraws : draws yields (min k n) n ds = ds := by rw [hlen, draws_yields]
  rw [sampleIndicesFrom_eq (by rwa [hdraws]), hdraws, hlen, drawn_yields]

/-- **The sample, of any generator.**  Every offset of the generator is below the number of entries
it is drawn for, in every state, although it comes from rounded products.  So `sampleIndices` never
leaves the pool: for every `n` and `k` it gives what the generator's own `min k n` offsets take, and
these are distinct indices below `n`, in ascending order. -/
theorem sample_indices_distinct (rng : Rng) (n k : Nat) :
    let ds := draws Rng.int (min k n) n rng
    (∀ m, 0 < m → (rng.int m).1 < m) ∧ ds ∈ allDraws n (min k n) ∧
      rng.sampleIndices n k = some (sampleOf n ds, drawn Rng.int (min k n) n rng) ∧
      (sampleOf n ds).Pairwise (· < ·) ∧ (sampleOf n ds).length = min k n ∧
      ∀ i ∈ sampleOf n ds, i < n :=
  ⟨fun _ => rng.int_lt, rng.draws_mem n k, sampleIndicesFrom_eq (rng.draws_mem n k),
    pairwise_sampleOf n _, length_sampleOf (rng.draws_mem n k) (Nat.min_le_right k n),
    fun _ => lt_of_mem_sampleOf⟩

/-- **Each sample equally often.**  Over a source that yields it, the shuffle takes what a draw
takes.  Whatever `k` of the `n` indices are given, `k!` of the draws give them as their sample: the
same number for every choice. -/
theorem each_sample_equally_often (n k : Nat) (chosen : Finset Nat) (hin : ∀ i ∈ chosen, i < n)
    (hk : chosen.card = k) :
    (∀ ds ∈ allDraws n k, sampleIndicesFrom yields ds n k = some (sampleOf n ds, [])) ∧
      (allDraws n k).countP (fun ds => (sampleOf n ds).toFinset = chosen) = k.factorial := by
  have hcount : (List.range n).countP (fun i => decide (i ∈ chosen)) = k := by
    rw [List.countP_eq_length_filter, ← hk, ← List.toFinset_card_of_nodup
      (List.nodup_range.filter _)]
    congr 1
    ext i
    simpa using hin i
  have hle : k ≤ (List.range n).length := by
    rw [← hcount]
    exact List.countP_le_length
  have hkn : k ≤ n := by rwa [List.length_range] at hle
  refine ⟨fun ds hds => sampleIndicesFrom_yields (by rwa [Nat.min_eq_left hkn]), ?_⟩
  have hall := countP_allDraws (List.range n) (fun i => decide (i ∈ chosen)) hle
  rw [hcount, Nat.descFactorial_self, List.length_range] at hall
  rw [← hall]
  refine List.countP_congr fun ds hds => ?_
  have hperm := perm_sampleOf n ds
  have hcard : (sampleOf n ds).toFinset.card = k := by
    rw [List.toFinset_card_of_nodup (hperm.nodup_iff.mpr (nodup_drawAll_range n ds)),
      length_sampleOf hds hkn]
  rw [decide_eq_true_iff, List.all_eq_true]
  constructor
  · intro heq i hi
    rw [← heq]
    simpa using hperm.mem_iff.mpr hi
  · intro hsub
    refine Finset.eq_of_subset_of_card_le ?_ (by rw [hcard, hk])
    intro i hi
    exact of_decide_eq_true (hsub i (hperm.mem_iff.mp (List.mem_toFinset.mp hi)))

/-- Two of the six draws of two out of three indices give the first and the last. -/
theorem each_sample_equally_often_two :
    (∀ ds ∈ allDraws 3 2, sampleIndicesFrom yields ds 3 2 = some (sampleOf 3 ds, [])) ∧
      (allDraws 3 2).countP (fun ds => (sampleOf 3 ds).toFinset = {0, 2}) = Nat.factorial 2 :=
  each_sample_equally_often 3 2 {0, 2} (by decide) rfl

/-! ## The audit -/

/-- The outcome of one spot-check audit. -/
structure AuditOutcome where
  sampled : List String
  passed : Bool
  bytesRead : Nat
  failures : List String
  deriving DecidableEq, Repr

section

variable (C : Crypto) (leaves : List ManifestLeaf) (store : ContentStore)

/-- The retrieval of a leaf verifies. -/
def ManifestLeaf.intact (leaf : ManifestLeaf) : Bool :=
  (store.retrieveVerified C leaf.cid).toOption.isSome

/-- The outcome of an audit of the sampled addresses. -/
def auditOutcome (sampled : List String) : AuditOutcome :=
  let failures := sampled.filter fun cid => (store.retrieveVerified C cid).toOption.isNone
  { sampled := sampled
    passed := failures.isEmpty
    bytesRead := store.auditReadCost sampled
    failures := failures }

/-- Run one `k`-item audit against a store, with any source of offsets. -/
def auditSampleFrom {σ : Type} (int : σ → Nat → Nat × σ) (s : σ) (k : Nat) :
    Option (AuditOutcome × σ) := do
  let idxs ← sampleIndicesFrom int s leaves.length k
  let sampled ← idxs.1.mapM fun i => leaves[i]?.map ManifestLeaf.cid
  some (auditOutcome C store sampled, idxs.2)

/-- Run one `k`-item audit against a store. -/
def auditSample (rng : Rng) (k : Nat) : Option (AuditOutcome × Rng) :=
  auditSampleFrom C leaves store Rng.int rng k

/-- The audit of the leaves that the draws take. -/
def auditOf (ds : List Nat) : AuditOutcome :=
  auditOutcome C store ((sampleOf leaves.length ds).filterMap fun i =>
    leaves[i]?.map ManifestLeaf.cid)

end

section

variable {C : Crypto} {leaves : List ManifestLeaf} {store : ContentStore} {ds : List Nat} {k : Nat}

/-- The addresses at indices that have one. -/
lemma mapM_cid {idxs : List Nat} (h : ∀ i ∈ idxs, i < leaves.length) :
    (idxs.mapM fun i => leaves[i]?.map ManifestLeaf.cid) =
      some (idxs.filterMap fun i => leaves[i]?.map ManifestLeaf.cid) := by
  induction idxs with
  | nil => rfl
  | cons i idxs ih =>
      obtain ⟨hi, hidxs⟩ := List.forall_mem_cons.mp h
      rw [List.mapM_cons, ih hidxs, List.getElem?_eq_getElem hi, Option.map_some,
        List.filterMap_cons_some (by rw [List.getElem?_eq_getElem hi]; rfl)]
      rfl

/-- An audit is the audit of what its draws take. -/
lemma auditSampleFrom_eq {σ : Type} {int : σ → Nat → Nat × σ} {s : σ}
    (h : draws int (min k leaves.length) leaves.length s ∈
      allDraws leaves.length (min k leaves.length)) :
    auditSampleFrom C leaves store int s k =
      some (auditOf C leaves store (draws int (min k leaves.length) leaves.length s),
        drawn int (min k leaves.length) leaves.length s) := by
  simp only [auditSampleFrom, sampleIndicesFrom_eq h, Option.bind_eq_bind, Option.bind_some,
    mapM_cid fun i => lt_of_mem_sampleOf, auditOf]

lemma auditSampleFrom_yields (h : ds ∈ allDraws leaves.length (min k leaves.length)) :
    auditSampleFrom C leaves store yields ds k = some (auditOf C leaves store ds, []) := by
  simp only [auditSampleFrom, sampleIndicesFrom_yields h, Option.bind_eq_bind, Option.bind_some,
    mapM_cid fun i => lt_of_mem_sampleOf, auditOf]

/-- An audit passes when every leaf that its draws take is intact. -/
lemma auditOf_passed : (auditOf C leaves store ds).passed = true ↔
    ∀ i ∈ drawAll (List.range leaves.length) ds, ∀ leaf ∈ leaves[i]?,
      leaf.intact C store = true := by
  simp only [auditOf, auditOutcome, List.isEmpty_iff, List.filter_eq_nil_iff, List.mem_filterMap,
    Option.map_eq_some_iff, ManifestLeaf.intact, (perm_sampleOf leaves.length ds).mem_iff]
  constructor
  · intro h i hi leaf hleaf
    simpa [Option.isSome_iff_ne_none] using h leaf.cid ⟨i, hi, leaf, hleaf, rfl⟩
  · rintro h cid ⟨i, hi, leaf, hleaf, rfl⟩
    simpa [Option.isSome_iff_ne_none] using h i hi leaf hleaf

lemma countP_range_getElem? (l : List ManifestLeaf) (p : ManifestLeaf → Bool) :
    (List.range l.length).countP (fun i => l[i]?.any p) = l.countP p := by
  induction l using List.reverseRecOn with
  | nil => rfl
  | append_singleton l leaf ih =>
      rw [List.length_append, List.length_singleton, List.range_succ, List.countP_append,
        List.countP_append, ← ih]
      congr 1
      · refine List.countP_congr fun i hi => ?_
        rw [List.getElem?_append_left (List.mem_range.mp hi)]
      · simp

/-- The draws whose audit passes. -/
lemma countP_passed (hk : k ≤ leaves.length) :
    (allDraws leaves.length k).countP (fun ds => (auditOf C leaves store ds).passed) =
      (leaves.countP (ManifestLeaf.intact C store)).descFactorial k := by
  have hk' : k ≤ (List.range leaves.length).length := by rwa [List.length_range]
  have hall := countP_allDraws (List.range leaves.length)
    (fun i => leaves[i]?.any (ManifestLeaf.intact C store)) hk'
  rw [countP_range_getElem?, List.length_range] at hall
  rw [← hall]
  refine List.countP_congr fun ds _ => ?_
  rw [auditOf_passed, List.all_eq_true]
  constructor
  · intro h i hi
    have hlt : i < leaves.length := List.mem_range.mp ((drawAll_subperm _ ds).subset hi)
    rw [List.getElem?_eq_getElem hlt, Option.any_some]
    exact h i hi _ (List.getElem?_eq_getElem hlt)
  · intro h i hi leaf hleaf
    have hany := h i hi
    rw [Option.mem_def.mp hleaf, Option.any_some] at hany
    exact hany

end

/-- The share of the draws that take something else than `intact` of `n` entries, against
`1 - (1 - f) ^ k` for the share `f` of the others. -/
lemma share_le_failing {intact n k passing failing : Nat} (hle : intact ≤ n)
    (hpassing : passing = intact.descFactorial (min k n))
    (hall : passing + failing = n.descFactorial (min k n)) :
    (1 - (1 - ((n - intact : Nat) : ℚ) / n) ^ k) * n.descFactorial (min k n) ≤ failing := by
  have htotal : (passing : ℚ) + failing = n.descFactorial (min k n) := by exact_mod_cast hall
  rcases Nat.eq_zero_or_pos n with rfl | hn
  · simp
  have hn' : (0 : ℚ) < n := by exact_mod_cast hn
  have hshare : 1 - ((n - intact : Nat) : ℚ) / n = intact / n := by
    rw [Nat.cast_sub hle, one_sub_div hn'.ne', sub_sub_cancel]
  have hmiss : (passing : ℚ) ≤ (intact / n) ^ k * n.descFactorial (min k n) := by
    rcases Nat.le_total k n with hk | hk
    · rw [Nat.min_eq_left hk] at hpassing ⊢
      have hfactor : (intact.descFactorial k : ℚ) * n ^ k ≤ n.descFactorial k * intact ^ k := by
        exact_mod_cast descFactorial_mul_pow_le hle
      rw [hpassing, div_pow, div_mul_eq_mul_div, le_div_iff₀ (pow_pos hn' k)]
      linarith
    · rw [Nat.min_eq_right hk] at hpassing ⊢
      rcases hle.lt_or_eq with hlt | rfl
      · rw [hpassing, Nat.descFactorial_of_lt hlt, Nat.cast_zero]
        positivity
      · rw [hpassing, div_self hn'.ne', one_pow, one_mul]
  rw [hshare, sub_mul, one_mul]
  linarith

/-- **What an audit finds.**  In every state of the generator a `k`-item audit is the audit of the
leaves that the generator's own draws take, and fails exactly when one of these is lost or tampered.
Of all draws, each of them an audit over a source that yields it, the falling factorial of the
intact leaves counts those that miss every lost or tampered leaf, and the others make up at least
the share `1 - (1 - f) ^ k`, in exact arithmetic, where `f` is the share of such leaves. -/
theorem audit_detects (C : Crypto) (leaves : List ManifestLeaf) (store : ContentStore) (k : Nat) :
    let n := leaves.length
    let all := allDraws n (min k n)
    let lost := leaves.countP fun leaf => !leaf.intact C store
    (∀ rng : Rng, let ds := draws Rng.int (min k n) n rng
      ds ∈ all ∧ auditSample C leaves store rng k =
        some (auditOf C leaves store ds, drawn Rng.int (min k n) n rng) ∧
      ((auditOf C leaves store ds).passed = false ↔
        ∃ i ∈ drawAll (List.range n) ds, ∃ leaf ∈ leaves[i]?, leaf.intact C store = false)) ∧
    (∀ ds ∈ all, auditSampleFrom C leaves store yields ds k =
      some (auditOf C leaves store ds, [])) ∧
    all.countP (fun ds => (auditOf C leaves store ds).passed) =
      (leaves.countP (ManifestLeaf.intact C store)).descFactorial (min k n) ∧
    (1 - (1 - (lost : ℚ) / n) ^ k) * all.length ≤
      all.countP fun ds => !(auditOf C leaves store ds).passed := by
  intro n all lost
  have hpassing : all.countP (fun ds => (auditOf C leaves store ds).passed) = _ :=
    countP_passed (Nat.min_le_right k n)
  refine ⟨?_, fun ds => auditSampleFrom_yields, hpassing, ?_⟩
  · intro rng ds
    have hds : ds ∈ all := rng.draws_mem n k
    refine ⟨hds, auditSampleFrom_eq hds, ?_⟩
    rw [← Bool.not_eq_true, auditOf_passed]
    simp [n]
  · have hsplit : n = leaves.countP (ManifestLeaf.intact C store) + lost := by
      change leaves.length = _
      rw [List.length_eq_countP_add_countP (ManifestLeaf.intact C store)]
      simp [lost]
    have hlost : lost = n - leaves.countP (ManifestLeaf.intact C store) := by omega
    have hall : all.countP (fun ds => (auditOf C leaves store ds).passed) +
        all.countP (fun ds => !(auditOf C leaves store ds).passed) = n.descFactorial (min k n) := by
      rw [← length_allDraws, List.length_eq_countP_add_countP fun ds =>
        (auditOf C leaves store ds).passed]
      simp [all]
    rw [length_allDraws, hlost]
    exact share_le_failing List.countP_le_length hpassing hall

end Ciss
