import Mathlib.Logic.Function.Iterate
import Ciss.Framework.HashTable
import Ciss.Server.Manifest

/-!
# What a manifest's root and signature bind

`merkle_root_binds_leaves`: over leaves that are well formed and have distinct addresses, the
Merkle root determines the leaf set.  The tree is built level by level; every text that is hashed
carries a tag, so a digest can be read only as a leaf, as a pair or as an odd child, and a digest
has one height (`Digest.height_unique`).  Equal roots therefore come from equally many levels, and
one level determines the level below it (`merkleLevel_inj`).
-/

namespace Ciss

/-! ## Digests of the tree -/

/-- The hash of a pair. -/
def pairHash (C : Crypto) (x y : String) : String :=
  C.sha256Hex (asBytes (String.join ["node:", x, ":", y]))

/-- The hash of an odd child. -/
def singleHash (C : Crypto) (x : String) : String :=
  C.sha256Hex (asBytes (String.join ["node1:", x]))

/-- A digest of height `n`: of a leaf, or of a node over digests one level below. -/
inductive Digest (C : Crypto) : Nat → String → Prop where
  | leaf (l : ManifestLeaf) : Digest C 0 (leafHash C l)
  | pair {n : Nat} {x y : String} (hx : Digest C n x) (hy : Digest C n y) :
      Digest C (n + 1) (pairHash C x y)
  | single {n : Nat} {x : String} (hx : Digest C n x) : Digest C (n + 1) (singleHash C x)

section

variable {C : Crypto} {l l' : ManifestLeaf} {x x' y y' d : String} {n n' : Nat}
  {level level' : List String}

lemma ManifestLeaf.free_cid (h : l.isValid = true) : free ':' l.cid := by
  unfold ManifestLeaf.isValid at h
  simp only [Bool.and_eq_true] at h
  intro hmem
  have hhex := isLowerHexDigit_of_bytes (s := l.cid) h.1.2 hmem
  exact absurd hhex (by decide)

lemma leafHash_inj (hC : HexHash C.sha256Hex) (hl : l.isValid = true) (hl' : l'.isValid = true)
    (h : leafHash C l = leafHash C l') : l = l' := by
  have htext := congrArg String.toList (asBytes_injective (hC.injective h))
  simp only [String.join_cons, String.join_nil, String.toList_append, String.append_empty] at htext
  obtain ⟨hcid, hsize⟩ := sep_inj (ManifestLeaf.free_cid hl) (ManifestLeaf.free_cid hl')
    (List.append_cancel_left htext)
  cases l
  cases l'
  simp only [ManifestLeaf.mk.injEq]
  exact ⟨hcid, Nat.repr_injective (String.toList_inj.mp hsize)⟩

lemma pairHash_inj (hC : HexHash C.sha256Hex) (hx : free ':' x) (hx' : free ':' x')
    (h : pairHash C x y = pairHash C x' y') : x = x' ∧ y = y' := by
  have htext := congrArg String.toList (asBytes_injective (hC.injective h))
  simp only [String.join_cons, String.join_nil, String.toList_append, String.append_empty] at htext
  obtain ⟨hxx, hyy⟩ := sep_inj hx hx' (List.append_cancel_left htext)
  exact ⟨hxx, String.toList_inj.mp hyy⟩

lemma singleHash_inj (hC : HexHash C.sha256Hex) (h : singleHash C x = singleHash C x') :
    x = x' := by
  have htext := congrArg String.toList (asBytes_injective (hC.injective h))
  simp only [String.join_cons, String.join_nil, String.toList_append, String.append_empty] at htext
  exact String.toList_inj.mp (List.append_cancel_left htext)

/-! The tags keep the four hashed texts apart. -/

lemma leafHash_ne_pairHash (hC : HexHash C.sha256Hex) : leafHash C l ≠ pairHash C x y := by
  intro h
  have htext := congrArg String.toList (asBytes_injective (hC.injective h))
  simp [String.join_cons] at htext

lemma leafHash_ne_singleHash (hC : HexHash C.sha256Hex) : leafHash C l ≠ singleHash C x := by
  intro h
  have htext := congrArg String.toList (asBytes_injective (hC.injective h))
  simp [String.join_cons] at htext

lemma pairHash_ne_singleHash (hC : HexHash C.sha256Hex) : pairHash C x y ≠ singleHash C x' := by
  intro h
  have htext := congrArg String.toList (asBytes_injective (hC.injective h))
  simp [String.join_cons] at htext

lemma Digest.ne_empty (hC : HexHash C.sha256Hex) (h : Digest C n d) :
    d ≠ C.sha256Hex (asBytes "empty-manifest") := by
  intro heq
  cases h with
  | leaf l =>
      have htext := congrArg String.toList (asBytes_injective (hC.injective heq))
      simp [String.join_cons] at htext
  | pair hx hy =>
      have htext := congrArg String.toList (asBytes_injective (hC.injective heq))
      simp [String.join_cons] at htext
  | single hx =>
      have htext := congrArg String.toList (asBytes_injective (hC.injective heq))
      simp [String.join_cons] at htext

/-- A digest is hexadecimal. -/
lemma Digest.free (hC : HexHash C.sha256Hex) (h : Digest C n d) {ch : Char}
    (hch : isLowerHexDigit ch = false) : Ciss.free ch d := by
  cases h with
  | leaf l => exact hC.free hch _
  | pair hx hy => exact hC.free hch _
  | single hx => exact hC.free hch _

/-- A digest has one height. -/
lemma Digest.height_unique (hC : HexHash C.sha256Hex) (h : Digest C n d) (h' : Digest C n' d) :
    n = n' := by
  induction h generalizing n' with
  | leaf l =>
      generalize hd : leafHash C l = d at h'
      cases h' with
      | leaf l' => rfl
      | pair hx hy => exact absurd hd (leafHash_ne_pairHash hC)
      | single hx => exact absurd hd (leafHash_ne_singleHash hC)
  | @pair n x y hx hy ihx ihy =>
      generalize hd : pairHash C x y = d at h'
      cases h' with
      | leaf l' => exact absurd hd.symm (leafHash_ne_pairHash hC)
      | pair hx' hy' =>
          obtain ⟨rfl, -⟩ := pairHash_inj hC (hx.free hC (by decide)) (hx'.free hC (by decide)) hd
          rw [ihx hx']
      | single hx' => exact absurd hd (pairHash_ne_singleHash hC)
  | @single n x hx ih =>
      generalize hd : singleHash C x = d at h'
      cases h' with
      | leaf l' => exact absurd hd.symm (leafHash_ne_singleHash hC)
      | pair hx' hy' => exact absurd hd.symm (pairHash_ne_singleHash hC)
      | single hx' =>
          obtain rfl := singleHash_inj hC hd
          rw [ih hx']

/-! ## Levels -/

lemma merkleLevel_pair (x y : String) (level : List String) :
    merkleLevel C (x :: y :: level) = pairHash C x y :: merkleLevel C level := rfl

lemma merkleLevel_single (x : String) : merkleLevel C [x] = [singleHash C x] := rfl

lemma merkleLevel_digests (h : ∀ d ∈ level, Digest C n d) :
    ∀ d ∈ merkleLevel C level, Digest C (n + 1) d := by
  induction level using merkleLevel.induct with
  | case1 => simp [merkleLevel]
  | case2 x =>
      intro d hd
      rw [merkleLevel_single, List.mem_singleton] at hd
      rw [hd]
      exact .single (h x (List.mem_singleton_self x))
  | case3 x y level ih =>
      intro d hd
      rw [merkleLevel_pair, List.mem_cons] at hd
      rcases hd with rfl | hd
      · exact .pair (h x (by simp)) (h y (by simp))
      · exact ih (fun z hz => h z (by simp [hz])) d hd

/-- One level determines the level below it. -/
lemma merkleLevel_inj (hC : HexHash C.sha256Hex) (h : ∀ d ∈ level, free ':' d)
    (h' : ∀ d ∈ level', free ':' d) (heq : merkleLevel C level = merkleLevel C level') :
    level = level' := by
  induction level using merkleLevel.induct generalizing level' with
  | case1 =>
      rcases level' with _ | ⟨x', _ | ⟨y', level'⟩⟩
      · rfl
      · cases heq
      · cases heq
  | case2 x =>
      rcases level' with _ | ⟨x', _ | ⟨y', level'⟩⟩
      · cases heq
      · rw [merkleLevel_single, merkleLevel_single, List.cons.injEq] at heq
        rw [singleHash_inj hC heq.1]
      · rw [merkleLevel_single, merkleLevel_pair, List.cons.injEq] at heq
        exact absurd heq.1.symm (pairHash_ne_singleHash hC)
  | case3 x y level ih =>
      rcases level' with _ | ⟨x', _ | ⟨y', level'⟩⟩
      · cases heq
      · rw [merkleLevel_single, merkleLevel_pair, List.cons.injEq] at heq
        exact absurd heq.1 (pairHash_ne_singleHash hC)
      · rw [merkleLevel_pair, merkleLevel_pair, List.cons.injEq] at heq
        obtain ⟨rfl, rfl⟩ := pairHash_inj hC (h x (by simp)) (h' x' (by simp)) heq.1
        rw [ih (fun d hd => h d (by simp [hd])) (fun d hd => h' d (by simp [hd])) heq.2]

lemma iterate_merkleLevel_digests (h : ∀ d ∈ level, Digest C n d) (k : Nat) :
    ∀ d ∈ (merkleLevel C)^[k] level, Digest C (n + k) d := by
  induction k with
  | zero => exact h
  | succ k ih =>
      rw [Function.iterate_succ_apply']
      exact merkleLevel_digests ih

lemma iterate_merkleLevel_inj (hC : HexHash C.sha256Hex) (h : ∀ d ∈ level, Digest C n d)
    (h' : ∀ d ∈ level', Digest C n d) (k : Nat)
    (heq : (merkleLevel C)^[k] level = (merkleLevel C)^[k] level') : level = level' := by
  induction k with
  | zero => exact heq
  | succ k ih =>
      rw [Function.iterate_succ_apply', Function.iterate_succ_apply'] at heq
      refine ih (merkleLevel_inj hC ?_ ?_ heq)
      · exact fun d hd => (iterate_merkleLevel_digests h k d hd).free hC (by decide)
      · exact fun d hd => (iterate_merkleLevel_digests h' k d hd).free hC (by decide)

lemma length_merkleLevel (level : List String) :
    (merkleLevel C level).length = (level.length + 1) / 2 := by
  induction level using merkleLevel.induct with
  | case1 => rfl
  | case2 x => simp [merkleLevel_single]
  | case3 x y level ih =>
      rw [merkleLevel_pair, List.length_cons, ih, List.length_cons, List.length_cons]
      omega

/-- The loop ends at a level with one node, after some number of rounds. -/
lemma merkleLoop_eq {fuel : Nat} (hne : level ≠ []) (hfuel : level.length ≤ fuel) :
    ∃ k d, merkleLoop C fuel level = [d] ∧ (merkleLevel C)^[k] level = [d] := by
  induction fuel generalizing level with
  | zero =>
      have hpos := List.length_pos_iff.mpr hne
      omega
  | succ fuel ih =>
      have hpos := List.length_pos_iff.mpr hne
      unfold merkleLoop
      by_cases hlen : level.length > 1
      · rw [if_pos hlen]
        have hlevel := length_merkleLevel (C := C) level
        have hnext : merkleLevel C level ≠ [] := List.length_pos_iff.mp (by omega)
        obtain ⟨k, d, hloop, hiter⟩ := ih hnext (by omega)
        exact ⟨k + 1, d, hloop, hiter⟩
      · rw [if_neg hlen]
        obtain ⟨d, rfl⟩ := List.length_eq_one_iff.mp (show level.length = 1 by omega)
        exact ⟨0, d, rfl, rfl⟩

end

/-! ## The root -/

section

variable {C : Crypto} {leaves leaves' : List ManifestLeaf}

lemma mem_sortLeaves {leaf : ManifestLeaf} : leaf ∈ sortLeaves leaves ↔ leaf ∈ leaves :=
  (List.perm_insertionSort _ _).mem_iff

/-- The root of a leaf set that is not empty is the only digest of its top level. -/
lemma merkleRoot_eq (hne : leaves ≠ []) :
    ∃ k, (merkleLevel C)^[k] ((sortLeaves leaves).map (leafHash C)) = [merkleRoot C leaves] := by
  have hlevel : (sortLeaves leaves).map (leafHash C) ≠ [] := by
    obtain ⟨leaf, hleaf⟩ := List.exists_mem_of_ne_nil leaves hne
    exact List.ne_nil_of_mem (List.mem_map_of_mem (mem_sortLeaves.mpr hleaf))
  obtain ⟨k, d, hloop, hiter⟩ := merkleLoop_eq (C := C) hlevel le_rfl
  refine ⟨k, ?_⟩
  unfold merkleRoot
  rw [if_neg (by simpa using hne)]
  dsimp only
  rw [hloop, hiter]
  rfl

lemma digest_leaves (leaves : List ManifestLeaf) :
    ∀ d ∈ (sortLeaves leaves).map (leafHash C), Digest C 0 d := by
  intro d hd
  obtain ⟨leaf, -, rfl⟩ := List.mem_map.mp hd
  exact .leaf leaf

lemma digest_merkleRoot (hne : leaves ≠ []) : ∃ n, Digest C n (merkleRoot C leaves) := by
  obtain ⟨k, hk⟩ := merkleRoot_eq (C := C) hne
  have htop := iterate_merkleLevel_digests (digest_leaves (C := C) leaves) k
  rw [hk] at htop
  exact ⟨0 + k, htop _ (List.mem_singleton_self _)⟩

/-- Equal roots of leaf sets that are not empty: the sorted leaf hashes are the same list.  The
number of rounds is the height of the root, so both trees have as many levels. -/
lemma leafHashes_eq_of_merkleRoot_eq (hC : HexHash C.sha256Hex) (hne : leaves ≠ [])
    (hne' : leaves' ≠ []) (h : merkleRoot C leaves = merkleRoot C leaves') :
    (sortLeaves leaves).map (leafHash C) = (sortLeaves leaves').map (leafHash C) := by
  obtain ⟨k, hk⟩ := merkleRoot_eq (C := C) hne
  obtain ⟨k', hk'⟩ := merkleRoot_eq (C := C) hne'
  have htop := iterate_merkleLevel_digests (digest_leaves (C := C) leaves) k
  have htop' := iterate_merkleLevel_digests (digest_leaves (C := C) leaves') k'
  rw [hk] at htop
  rw [hk', ← h] at htop'
  have hheight := (htop _ (List.mem_singleton_self _)).height_unique hC
    (htop' _ (List.mem_singleton_self _))
  obtain rfl : k = k' := by omega
  refine iterate_merkleLevel_inj hC (digest_leaves leaves) (digest_leaves leaves') k ?_
  rw [hk, hk', h]

lemma eq_of_map_leafHash_eq (hC : HexHash C.sha256Hex)
    (hvalid : ∀ leaf ∈ leaves, leaf.isValid = true)
    (hvalid' : ∀ leaf ∈ leaves', leaf.isValid = true)
    (h : leaves.map (leafHash C) = leaves'.map (leafHash C)) : leaves = leaves' := by
  induction leaves generalizing leaves' with
  | nil => exact (List.map_eq_nil_iff.mp h.symm).symm
  | cons leaf leaves ih =>
      rcases leaves' with _ | ⟨leaf', leaves'⟩
      · cases h
      · rw [List.map_cons, List.map_cons, List.cons.injEq] at h
        obtain rfl := leafHash_inj hC (hvalid leaf (by simp)) (hvalid' leaf' (by simp)) h.1
        rw [ih (fun x hx => hvalid x (by simp [hx])) (fun x hx => hvalid' x (by simp [hx])) h.2]

end

/-- **The root binds the leaf set.**  Two lists of well-formed leaves without duplicate addresses
have the same root exactly if one is a rearrangement of the other. -/
theorem merkle_root_binds_leaves {C : Crypto} (hC : HexHash C.sha256Hex)
    {leaves leaves' : List ManifestLeaf} (hvalid : ∀ leaf ∈ leaves, leaf.isValid = true)
    (hvalid' : ∀ leaf ∈ leaves', leaf.isValid = true)
    (hdup : hasDuplicateCids leaves = false) (hdup' : hasDuplicateCids leaves' = false) :
    merkleRoot C leaves = merkleRoot C leaves' ↔ leaves.Perm leaves' := by
  constructor
  · intro h
    rcases eq_or_ne leaves [] with rfl | hne
    · rcases eq_or_ne leaves' [] with rfl | hne'
      · rfl
      · obtain ⟨n, hd⟩ := digest_merkleRoot (C := C) hne'
        exact absurd h.symm (hd.ne_empty hC)
    · rcases eq_or_ne leaves' [] with rfl | hne'
      · obtain ⟨n, hd⟩ := digest_merkleRoot (C := C) hne
        exact absurd h (hd.ne_empty hC)
      · have hsorted := eq_of_map_leafHash_eq hC
          (fun leaf hleaf => hvalid leaf (mem_sortLeaves.mp hleaf))
          (fun leaf hleaf => hvalid' leaf (mem_sortLeaves.mp hleaf))
          (leafHashes_eq_of_merkleRoot_eq hC hne hne' h)
        have hperm : leaves.Perm (sortLeaves leaves) := (List.perm_insertionSort _ _).symm
        rw [hsorted] at hperm
        exact hperm.trans (List.perm_insertionSort _ _)
  · intro h
    have hcids : (leaves.map ManifestLeaf.cid).Nodup := by simpa [hasDuplicateCids] using hdup
    have hsort : sortLeaves leaves = sortLeaves leaves' :=
      insertionSort_byteCompare_eq_of_perm ManifestLeaf.cid hcids h
    unfold merkleRoot
    rw [hsort, h.isEmpty_eq]

/-! ### Three objects

Three real objects and the real digests of their tree. -/

/-- The digests of the three leaves, of the two nodes above them, and of the root. -/
def treeDigests : List (Bytes × String) :=
  [(asBytes
      "leaf:ba7816bf8f01cfea414140de5dae2223b00361a396177a9cb410ff61f20015ad:3",
      "4b2f56de15a75730e2f0fd5879944066891062a15c53cbcc8ec4d653e28f933d"),
    (asBytes
      "leaf:3608bca1e44ea6c4d268eb6db02260269892c0b42b86bbf1e77a6fa16c3c9282:3",
      "5cf30ce62e4e821315006ce77cc73b9fec0cb86e4044dfccabaa021feda2e6c9"),
    (asBytes
      "leaf:e3b0c44298fc1c149afbf4c8996fb92427ae41e4649b934ca495991b7852b855:0",
      "251aafde7051bc74246e2aa3636646ae8f7ce3e63665dddce5b9dd4690503a86"),
    (asBytes
      "node:5cf30ce62e4e821315006ce77cc73b9fec0cb86e4044dfccabaa021feda2e6c9:4b2f56de15a75730e2f0fd5879944066891062a15c53cbcc8ec4d653e28f933d",
      "b351b70515396efafae27b3ed0dddd7f82de713bc0fd0a7a8ab43025d8aa60ed"),
    (asBytes
      "node1:251aafde7051bc74246e2aa3636646ae8f7ce3e63665dddce5b9dd4690503a86",
      "4197394c4164f2421491dec1ceeb4fd11af1cd9951507c24e783be7550a5843f"),
    (asBytes
      "node:b351b70515396efafae27b3ed0dddd7f82de713bc0fd0a7a8ab43025d8aa60ed:4197394c4164f2421491dec1ceeb4fd11af1cd9951507c24e783be7550a5843f",
      "e3471b8796c202979474bc9a6433030b3465bcda2ec4eab3e2a6fe4e476ca60c")]

/-- SHA-256 on these texts. -/
def treeCrypto : Crypto where
  sha256Hex := tabulatedHex treeDigests
  isPublicKey := fun _ => false
  verifyStrict := fun _ _ _ => false

/-- The leaves of the objects `abc`, `xyz` and the empty one. -/
def treeLeaves : List ManifestLeaf :=
  [⟨"ba7816bf8f01cfea414140de5dae2223b00361a396177a9cb410ff61f20015ad", 3⟩,
    ⟨"3608bca1e44ea6c4d268eb6db02260269892c0b42b86bbf1e77a6fa16c3c9282", 3⟩,
    ⟨"e3b0c44298fc1c149afbf4c8996fb92427ae41e4649b934ca495991b7852b855", 0⟩]

/-- The root is the same for the reversed list, and another one without the first leaf. -/
theorem merkle_root_binds_leaves_example :
    merkleRoot treeCrypto treeLeaves = merkleRoot treeCrypto treeLeaves.reverse ∧
      merkleRoot treeCrypto treeLeaves ≠ merkleRoot treeCrypto treeLeaves.tail := by
  have hC : HexHash treeCrypto.sha256Hex := hexHash_tabulatedHex (by decide +kernel)
  have hvalid : ∀ leaf ∈ treeLeaves, leaf.isValid = true := by decide +kernel
  have hdup : hasDuplicateCids treeLeaves = false := by decide +kernel
  constructor
  · refine (merkle_root_binds_leaves hC hvalid ?_ hdup (by decide +kernel)).mpr ?_
    · exact fun leaf hleaf => hvalid leaf (List.mem_reverse.mp hleaf)
    · exact (List.reverse_perm treeLeaves).symm
  · intro h
    have hperm := (merkle_root_binds_leaves hC hvalid
      (fun leaf hleaf => hvalid leaf (List.mem_of_mem_tail hleaf)) hdup (by decide +kernel)).mp h
    exact absurd hperm.length_eq (by decide)

/-! ## The signed preimage -/

/-- The text the heads map is flattened to. -/
def joinHeads (entries : List (String × String)) : String :=
  String.join (entries.map fun x => String.join [x.1, "=", x.2, ";"])

/-- The preimage a manifest's signature is checked against. -/
def Manifest.preimage (C : Crypto) (m : Manifest) : String :=
  manifestPreimage C m.signerId m.seq m.leaves.length m.totalBytes m.root m.heads

/-- The signed fields, the heads included, agree. -/
structure Manifest.SameSigned (m m' : Manifest) : Prop where
  signerId : m.signerId = m'.signerId
  seq : m.seq = m'.seq
  leafCount : m.leaves.length = m'.leaves.length
  totalBytes : m.totalBytes = m'.totalBytes
  root : m.root = m'.root
  heads : m.heads = m'.heads

/-- No other map is flattened to the same text: there are no heads, no entry, or one entry with no
`=` in it. -/
def DecodableHeads : Option HeadCids → Prop
  | none => True
  | some map =>
      match map.toList with
      | [] => True
      | [(device, cid)] => free '=' device ∧ free '=' cid
      | _ => False

section

variable {C : Crypto} {m m' : Manifest} {key key' : VerifyingKey}
  {l l' : List (String × String)} {d c : String}

lemma merkleRoot_free (hC : HexHash C.sha256Hex) (leaves : List ManifestLeaf) {ch : Char}
    (hch : isLowerHexDigit ch = false) : free ch (merkleRoot C leaves) := by
  rcases eq_or_ne leaves [] with rfl | hne
  · exact hC.free hch _
  · obtain ⟨n, hd⟩ := digest_merkleRoot (C := C) hne
    exact hd.free hC hch

lemma Manifest.verify_root (h : m.verify C key = true) : merkleRoot C m.leaves = m.root := by
  unfold Manifest.verify at h
  split_ifs at h with h1 h2 h3
  exact not_not.mp h2

/-- The signature check reads the heads through the preimage only. -/
lemma Manifest.verify_withHeads {heads : Option HeadCids} (h : m.verify C key = true)
    (hpre : Manifest.preimage C { m with heads := heads } = m.preimage C) :
    Manifest.verify C { m with heads := heads } key = true := by
  unfold Manifest.preimage at hpre
  unfold Manifest.verify at h ⊢
  dsimp only at hpre ⊢
  rw [hpre]
  exact h

/-- The fields of the preimage up to the root. -/
def manifestBase (signerId : String) (seq leafCount totalBytes : Nat) (root : String) :
    List Char :=
  "ciss/v1/manifest:".toList ++ signerId.toList ++ ':' :: seq.repr.toList ++
    ':' :: leafCount.repr.toList ++ ':' :: totalBytes.repr.toList ++ ':' :: root.toList

lemma toList_manifestPreimage_none (signerId : String) (seq leafCount totalBytes : Nat)
    (root : String) :
    (manifestPreimage C signerId seq leafCount totalBytes root none).toList =
      manifestBase signerId seq leafCount totalBytes root := by
  unfold manifestPreimage manifestBase
  simp [String.join_cons]

lemma toList_manifestPreimage_some (signerId : String) (seq leafCount totalBytes : Nat)
    (root : String) (map : HeadCids) :
    (manifestPreimage C signerId seq leafCount totalBytes root (some map)).toList =
      manifestBase signerId seq leafCount totalBytes root ++
        ':' :: ("heads=" ++ C.sha256Hex (asBytes (joinHeads map.toList))).toList := by
  unfold manifestPreimage manifestBase joinHeads
  simp [String.join_cons]

/-- The signer may hold the delimiter, so the fields are taken off from the right. -/
lemma manifestBase_inj {signerId signerId' root root' : String} {seq seq' n n' total total' : Nat}
    (hroot : free ':' root) (hroot' : free ':' root')
    (h : manifestBase signerId seq n total root = manifestBase signerId' seq' n' total' root') :
    signerId = signerId' ∧ seq = seq' ∧ n = n' ∧ total = total' ∧ root = root' := by
  have hnum : ∀ k : Nat, free ':' k.repr := fun k => free_natRepr (by decide) k
  obtain ⟨h5, h⟩ := sep_inj_right hroot hroot' h
  obtain ⟨h4, h⟩ := sep_inj_right (hnum _) (hnum _) h
  obtain ⟨h3, h⟩ := sep_inj_right (hnum _) (hnum _) h
  obtain ⟨h2, h⟩ := sep_inj_right (hnum _) (hnum _) h
  exact ⟨String.toList_inj.mp (List.append_cancel_left h), Nat.repr_injective h2,
    Nat.repr_injective h3, Nat.repr_injective h4, h5⟩

/-- A preimage without heads ends in the root, one with heads in a field that is no digest. -/
lemma manifestBase_ne_withHeads {signerId signerId' root root' last : String}
    {seq seq' n n' total total' : Nat} (hroot : ∀ ch, isLowerHexDigit ch = false → free ch root)
    (hlast : free ':' last) :
    manifestBase signerId seq n total root ≠
      manifestBase signerId' seq' n' total' root' ++ ':' :: ("heads=" ++ last).toList := by
  intro h
  have hlast' : free ':' ("heads=" ++ last) := free_append.mpr ⟨by decide, hlast⟩
  obtain ⟨heq, -⟩ := sep_inj_right (hroot ':' (by decide)) hlast' h
  have hfree := hroot '=' (by decide)
  rw [heq, free_append] at hfree
  exact absurd hfree.1 (by decide)

/-- Equal preimages of accepted manifests: the fields up to the root agree, and the heads are
flattened to the same text. -/
lemma Manifest.preimage_inj (hC : HexHash C.sha256Hex) (hm : m.verify C key = true)
    (hm' : m'.verify C key' = true) (h : m.preimage C = m'.preimage C) :
    (m.signerId = m'.signerId ∧ m.seq = m'.seq ∧ m.leaves.length = m'.leaves.length ∧
      m.totalBytes = m'.totalBytes ∧ m.root = m'.root) ∧
      m.heads.map (fun map => joinHeads map.toList) =
        m'.heads.map fun map => joinHeads map.toList := by
  have hroot : ∀ ch, isLowerHexDigit ch = false → free ch m.root := by
    intro ch hch
    rw [← Manifest.verify_root hm]
    exact merkleRoot_free hC m.leaves hch
  have hroot₂ : ∀ ch, isLowerHexDigit ch = false → free ch m'.root := by
    intro ch hch
    rw [← Manifest.verify_root hm']
    exact merkleRoot_free hC m'.leaves hch
  have hdigest : ∀ b, free ':' (C.sha256Hex b) := fun b => hC.free (by decide) b
  have hlist := congrArg String.toList h
  unfold Manifest.preimage at hlist
  rcases hheads : m.heads with _ | map <;> rcases hheads' : m'.heads with _ | map'
  · rw [hheads, hheads', toList_manifestPreimage_none, toList_manifestPreimage_none] at hlist
    exact ⟨manifestBase_inj (hroot ':' (by decide)) (hroot₂ ':' (by decide)) hlist, rfl⟩
  · rw [hheads, hheads', toList_manifestPreimage_none, toList_manifestPreimage_some] at hlist
    exact absurd hlist (manifestBase_ne_withHeads hroot (hdigest _))
  · rw [hheads, hheads', toList_manifestPreimage_some, toList_manifestPreimage_none] at hlist
    exact absurd hlist.symm (manifestBase_ne_withHeads hroot₂ (hdigest _))
  · rw [hheads, hheads', toList_manifestPreimage_some, toList_manifestPreimage_some] at hlist
    have hfield : ∀ b, free ':' ("heads=" ++ C.sha256Hex b) :=
      fun b => free_append.mpr ⟨by decide, hdigest b⟩
    obtain ⟨hhash, hbase⟩ := sep_inj_right (hfield _) (hfield _) hlist
    have hjoin := asBytes_injective (hC.injective ((String.append_right_inj _).mp hhash))
    refine ⟨manifestBase_inj (hroot ':' (by decide)) (hroot₂ ':' (by decide)) hbase, ?_⟩
    rw [Option.map_some, Option.map_some, hjoin]

end

/-! ## The flattened heads -/

section

variable {d c : String} {l l' : List (String × String)} {map : HeadCids}

lemma toList_joinHeads_cons (d c : String) (l : List (String × String)) :
    (joinHeads ((d, c) :: l)).toList =
      d.toList ++ '=' :: (c.toList ++ ';' :: (joinHeads l).toList) := by
  unfold joinHeads
  simp [String.join_cons]

lemma length_le_count_joinHeads (l : List (String × String)) :
    l.length ≤ (joinHeads l).toList.count '=' := by
  induction l with
  | nil => simp
  | cons x l ih =>
      obtain ⟨d, c⟩ := x
      rw [toList_joinHeads_cons, List.length_cons]
      simp only [List.count_append, List.count_cons_self]
      have hsemicolon := List.count_cons_of_ne (l := (joinHeads l).toList) (show ';' ≠ '=' by decide)
      omega

/-- One entry without `=` is the only reading of its text: an entry brings an `=` along. -/
lemma eq_singleton_of_joinHeads (hd : free '=' d) (hc : free '=' c)
    (h : joinHeads l = joinHeads [(d, c)]) : l = [(d, c)] := by
  have hlist := congrArg String.toList h
  rw [toList_joinHeads_cons] at hlist
  have hnil : (joinHeads []).toList = [] := rfl
  have hcount : (joinHeads l).toList.count '=' = 1 := by
    rw [hlist, hnil]
    simp [List.count_append, List.count_eq_zero.mpr hd, List.count_eq_zero.mpr hc]
  have hlen := length_le_count_joinHeads l
  rcases l with _ | ⟨⟨d', c'⟩, _ | ⟨x, l⟩⟩
  · cases hcount
  · rw [toList_joinHeads_cons] at hlist hcount
    simp only [hnil, List.count_append, List.count_cons_self] at hcount
    have hd' : free '=' d' := List.count_eq_zero.mp (by omega)
    obtain ⟨hdd, hcc⟩ := sep_inj hd' hd hlist
    have hcc' : c' = c := String.toList_inj.mp (List.append_cancel_right hcc)
    rw [hdd, hcc']
  · rw [hcount] at hlen
    simp at hlen

lemma eq_nil_of_joinHeads (h : joinHeads l = joinHeads []) : l = [] := by
  have hlen := length_le_count_joinHeads l
  rw [h] at hlen
  exact List.length_eq_zero_iff.mp (Nat.le_zero.mp hlen)

/-- The map with one head. -/
def oneHead (device cid : String) : HeadCids := (∅ : HeadCids).insert device cid

lemma toList_oneHead (device cid : String) : (oneHead device cid).toList = [(device, cid)] := by
  have hlen : (oneHead device cid).toList.length = 1 := by
    rw [Std.ExtTreeMap.length_toList, oneHead, Std.ExtTreeMap.size_insert]
    simp
  obtain ⟨x, hx⟩ := List.length_eq_one_iff.mp hlen
  have hmem : (device, cid) ∈ (oneHead device cid).toList := by
    rw [Std.ExtTreeMap.mem_toList_iff_getElem?_eq_some]
    simp [oneHead]
  rw [hx, List.mem_singleton] at hmem
  rw [hx, hmem]

lemma joinHeads_ends (x : String × String) (l : List (String × String)) :
    ∃ t, (joinHeads (x :: l)).toList = t ++ [';'] := by
  induction l generalizing x with
  | nil =>
      refine ⟨x.1.toList ++ '=' :: x.2.toList, ?_⟩
      rw [toList_joinHeads_cons]
      simp [joinHeads]
  | cons y l ih =>
      obtain ⟨t, ht⟩ := ih y
      refine ⟨x.1.toList ++ '=' :: (x.2.toList ++ ';' :: t), ?_⟩
      rw [toList_joinHeads_cons, ht]
      simp

/-- A map with two entries, or with an `=` in its only one, shares its text with another map of
one entry. -/
lemma exists_same_joinHeads (h : ¬ DecodableHeads (some map)) :
    ∃ map' : HeadCids, map' ≠ map ∧ joinHeads map'.toList = joinHeads map.toList := by
  -- another reading of the text as one entry
  have hone : ∀ {d c : String}, map.toList ≠ [(d, c)] →
      (joinHeads [(d, c)]).toList = (joinHeads map.toList).toList →
      ∃ map' : HeadCids, map' ≠ map ∧ joinHeads map'.toList = joinHeads map.toList := by
    intro d c hne htext
    refine ⟨oneHead d c, ?_, ?_⟩
    · rintro rfl
      exact hne (toList_oneHead d c)
    · rw [toList_oneHead]
      exact String.toList_inj.mp htext
  have hnil : (joinHeads []).toList = [] := rfl
  unfold DecodableHeads at h
  dsimp only at h
  rcases hmap : map.toList with _ | ⟨⟨d, c⟩, _ | ⟨x, l⟩⟩
  · simp [hmap] at h
  · rw [hmap] at h hone
    by_cases hd : free '=' d
    · have hc : '=' ∈ c.toList := by
        by_contra hc
        exact h ⟨hd, hc⟩
      obtain ⟨y, z, hyz⟩ := List.append_of_mem hc
      refine hone (d := d ++ "=" ++ String.ofList y) (c := String.ofList z) ?_ ?_
      · intro heq
        have hlen := congrArg (fun l => l.map fun p => p.1.toList.length) heq
        simp at hlen
      · rw [toList_joinHeads_cons, toList_joinHeads_cons, hyz]
        simp
    · obtain ⟨y, z, hyz⟩ := List.append_of_mem (not_not.mp hd)
      refine hone (d := String.ofList y) (c := String.ofList z ++ "=" ++ c) ?_ ?_
      · intro heq
        have hlen := congrArg (fun l => l.map fun p => p.1.toList.length) heq
        simp [hyz] at hlen
      · rw [toList_joinHeads_cons, toList_joinHeads_cons, hyz]
        simp
  · rw [hmap] at hone
    obtain ⟨t, ht⟩ := joinHeads_ends x l
    refine hone (d := d) (c := String.ofList (c.toList ++ ';' :: t)) ?_ ?_
    · simp
    · rw [toList_joinHeads_cons, toList_joinHeads_cons, ht, hnil]
      simp

/-- Device names without `=` and cids without `;` are read back from the text. -/
lemma joinHeads_inj_of_plain (h : ∀ x ∈ l, free '=' x.1 ∧ free ';' x.2)
    (h' : ∀ x ∈ l', free '=' x.1 ∧ free ';' x.2) (heq : joinHeads l = joinHeads l') : l = l' := by
  induction l generalizing l' with
  | nil => exact (eq_nil_of_joinHeads heq.symm).symm
  | cons x l ih =>
      rcases l' with _ | ⟨y, l'⟩
      · exact eq_nil_of_joinHeads heq
      · have hlist := congrArg String.toList heq
        rw [toList_joinHeads_cons, toList_joinHeads_cons] at hlist
        obtain ⟨h1, hlist⟩ := sep_inj (h x (by simp)).1 (h' y (by simp)).1 hlist
        obtain ⟨h2, hlist⟩ := sep_inj (h x (by simp)).2 (h' y (by simp)).2 hlist
        have hrest := ih (fun z hz => h z (by simp [hz])) (fun z hz => h' z (by simp [hz]))
          (String.toList_inj.mp hlist)
        rw [hrest, Prod.ext h1 h2]

end

/-- **When the signature binds the manifest.**  Every accepted manifest with the same preimage has
the same signed fields, exactly if the heads are absent, empty, or one entry without `=`. -/
theorem manifest_signature_binds_iff {C : Crypto} (hC : HexHash C.sha256Hex) {m : Manifest}
    {key : VerifyingKey} (hm : m.verify C key = true) :
    (∀ (m' : Manifest) (key' : VerifyingKey), m'.verify C key' = true →
      m.preimage C = m'.preimage C → m.SameSigned m') ↔ DecodableHeads m.heads := by
  constructor
  · intro h
    rcases hheads : m.heads with _ | map
    · trivial
    · by_contra hdec
      obtain ⟨map', hne, hjoin⟩ := exists_same_joinHeads hdec
      have hpre : Manifest.preimage C { m with heads := some map' } = m.preimage C := by
        unfold Manifest.preimage
        rw [hheads]
        refine String.toList_inj.mp ?_
        rw [toList_manifestPreimage_some, toList_manifestPreimage_some, hjoin]
      have hsame := h _ key (Manifest.verify_withHeads hm hpre) hpre.symm
      have hmaps : m.heads = some map' := hsame.heads
      rw [hheads] at hmaps
      exact hne (Option.some.inj hmaps).symm
  · intro hdec m' key' hm' hpre
    obtain ⟨⟨h1, h2, h3, h4, h5⟩, hheads⟩ := Manifest.preimage_inj hC hm hm' hpre
    refine ⟨h1, h2, h3, h4, h5, ?_⟩
    rcases hmap : m.heads with _ | map <;> rcases hmap' : m'.heads with _ | map'
    · rfl
    · rw [hmap, hmap'] at hheads
      cases hheads
    · rw [hmap, hmap'] at hheads
      cases hheads
    · rw [hmap, hmap', Option.map_some, Option.map_some, Option.some.injEq] at hheads
      rw [hmap] at hdec
      unfold DecodableHeads at hdec
      dsimp only at hdec
      rcases hentries : map.toList with _ | ⟨⟨d, c⟩, _ | ⟨x, l⟩⟩
      · rw [hentries] at hheads
        have hnil := eq_nil_of_joinHeads hheads.symm
        rw [Std.ExtTreeMap.toList_inj.mp (hentries.trans hnil.symm)]
      · rw [hentries] at hheads hdec
        have hone := eq_singleton_of_joinHeads hdec.1 hdec.2 hheads.symm
        rw [Std.ExtTreeMap.toList_inj.mp (hentries.trans hone.symm)]
      · rw [hentries] at hdec
        exact hdec.elim

/-- Over ordinary device names and cids nothing is left open. -/
theorem manifest_signature_binds_plain_heads {C : Crypto} (hC : HexHash C.sha256Hex)
    {m m' : Manifest} {key key' : VerifyingKey} (hm : m.verify C key = true)
    (hm' : m'.verify C key' = true)
    (hplain : ∀ map, m.heads = some map → ∀ x ∈ map.toList, free '=' x.1 ∧ free ';' x.2)
    (hplain' : ∀ map, m'.heads = some map → ∀ x ∈ map.toList, free '=' x.1 ∧ free ';' x.2)
    (h : m.preimage C = m'.preimage C) : m.SameSigned m' := by
  obtain ⟨⟨h1, h2, h3, h4, h5⟩, hheads⟩ := Manifest.preimage_inj hC hm hm' h
  refine ⟨h1, h2, h3, h4, h5, ?_⟩
  rcases hmap : m.heads with _ | map <;> rcases hmap' : m'.heads with _ | map'
  · rfl
  · rw [hmap, hmap'] at hheads
    cases hheads
  · rw [hmap, hmap'] at hheads
    cases hheads
  · rw [hmap, hmap', Option.map_some, Option.map_some, Option.some.injEq] at hheads
    have hlists := joinHeads_inj_of_plain (hplain map hmap) (hplain' map' hmap') hheads
    rw [Std.ExtTreeMap.toList_inj.mp hlists]

/-! ### Two devices under one signature

A manifest of one object and the heads of two devices, with real digests and signatures, and the
manifest a server makes of it by folding the second entry into the first one's cid. -/

/-- The digests of the leaf, and of the two flattened maps. -/
def headsDigests : List (Bytes × String) :=
  [(asBytes
      "leaf:ba7816bf8f01cfea414140de5dae2223b00361a396177a9cb410ff61f20015ad:3",
      "4b2f56de15a75730e2f0fd5879944066891062a15c53cbcc8ec4d653e28f933d"),
    (asBytes
      "laptop=595bb9083a5c27c7ada5260480a729f87cd9d04ee2f54d4f5bfe0fd82a4f63d8;phone=7d5a98de68ad3e78f1206e50a542a2a4744a19a9bab3d60c2f9f0a2799a5c73a;",
      "2cc1be64230cc75a2efe990ab8c82f221122adbd86a13c82c8a2c8afc2982b33"),
    (asBytes
      "laptop=595bb9083a5c27c7ada5260480a729f87cd9d04ee2f54d4f5bfe0fd82a4f63d8;",
      "af8147e6ebee7d28312c7c6ba2288b66a502f394e12c10dd6a5330c1fb9dd0b9")]

/-- The account's key. -/
def headsKey : VerifyingKey :=
  ⟨(hexDecode "ea4a6c63e29c520abef5507b132ec5f9954776aebebe7b92421eea691446d22c").getD []⟩

/-- The account's signatures over the manifest with two heads and over the one with one. -/
def headsSignatures : List (Bytes × String) :=
  [(asBytes
      "ciss/v1/manifest:id:fe812c12f3ab4ce6ac5db69ac352f906cb1b11ef43fb33e252ef7ff552263889:1:1:3:4b2f56de15a75730e2f0fd5879944066891062a15c53cbcc8ec4d653e28f933d:heads=2cc1be64230cc75a2efe990ab8c82f221122adbd86a13c82c8a2c8afc2982b33",
      "616c298f1d6d44e6607e0a6ed7005e26aa226a060fd2b0c8da4dd1cbff819a90e74af948e77703ffe9ac51f62ad0c08f5a9b92892da9947e0da9ea76b45c5a01"),
    (asBytes
      "ciss/v1/manifest:id:fe812c12f3ab4ce6ac5db69ac352f906cb1b11ef43fb33e252ef7ff552263889:1:1:3:4b2f56de15a75730e2f0fd5879944066891062a15c53cbcc8ec4d653e28f933d:heads=af8147e6ebee7d28312c7c6ba2288b66a502f394e12c10dd6a5330c1fb9dd0b9",
      "3c41e0be444dcf7d62c7771285514eddb422a40049eb1aaa71e855a117445c96b6863cc6d713b76e0b768c92acc30d41189ac0f264beb18547fa299c50965001")]

/-- SHA-256 and Ed25519 on these texts. -/
def headsCrypto : Crypto where
  sha256Hex := tabulatedHex headsDigests
  isPublicKey := fun bytes => bytes = headsKey.toBytes
  verifyStrict := fun key message sig =>
    key = headsKey ∧ (headsSignatures.lookup message).bind hexDecode = some sig

/-- A manifest of the object `abc` with the given heads and signature. -/
def headsManifest (heads : HeadCids) (signature : Option (Bytes × String)) : Manifest where
  leaves := [⟨"ba7816bf8f01cfea414140de5dae2223b00361a396177a9cb410ff61f20015ad", 3⟩]
  root := "4b2f56de15a75730e2f0fd5879944066891062a15c53cbcc8ec4d653e28f933d"
  totalBytes := 3
  signerId := "id:fe812c12f3ab4ce6ac5db69ac352f906cb1b11ef43fb33e252ef7ff552263889"
  seq := 1
  signature := (signature.map Prod.snd).getD ""
  heads := some heads

/-- The head of the laptop. -/
def laptopHead : String := "595bb9083a5c27c7ada5260480a729f87cd9d04ee2f54d4f5bfe0fd82a4f63d8"

/-- The head of the phone. -/
def phoneHead : String := "7d5a98de68ad3e78f1206e50a542a2a4744a19a9bab3d60c2f9f0a2799a5c73a"

/-- The heads of two devices. -/
def twoHeads : Manifest :=
  headsManifest ((oneHead "laptop" laptopHead).insert "phone" phoneHead) headsSignatures[0]?

/-- The same text as one head. -/
def foldedHeads : Manifest :=
  headsManifest (oneHead "laptop" (String.join [laptopHead, ";phone=", phoneHead]))
    headsSignatures[0]?

/-- The head of one device. -/
def laptopOnly : Manifest := headsManifest (oneHead "laptop" laptopHead) headsSignatures[1]?

lemma hexHash_headsCrypto : HexHash headsCrypto.sha256Hex :=
  hexHash_tabulatedHex (by decide +kernel)

/-- One head is bound. -/
theorem manifest_signature_binds_iff_example :
    laptopOnly.verify headsCrypto headsKey = true ∧
      ∀ (m' : Manifest) (key' : VerifyingKey), m'.verify headsCrypto key' = true →
        laptopOnly.preimage headsCrypto = m'.preimage headsCrypto → laptopOnly.SameSigned m' := by
  have hverify : laptopOnly.verify headsCrypto headsKey = true := by decide +kernel
  refine ⟨hverify, ?_⟩
  refine (manifest_signature_binds_iff hexHash_headsCrypto hverify).mpr ?_
  show DecodableHeads (some (oneHead "laptop" laptopHead))
  unfold DecodableHeads
  dsimp only
  rw [toList_oneHead]
  exact ⟨by decide +kernel, by decide +kernel⟩

/-- The signature over the heads of two devices is also one over a single head. -/
theorem two_heads_share_signature :
    ¬ ∀ (C : Crypto), HexHash C.sha256Hex → ∀ (m m' : Manifest) (key key' : VerifyingKey),
      m.verify C key = true → m'.verify C key' = true → m.preimage C = m'.preimage C →
        m.SameSigned m' := by
  intro h
  have hsame := h headsCrypto hexHash_headsCrypto twoHeads foldedHeads headsKey headsKey
    (by decide +kernel) (by decide +kernel) (by decide +kernel)
  have hheads : twoHeads.heads ≠ foldedHeads.heads := by decide +kernel
  exact hheads hsame.heads

end Ciss
