import Mathlib.Data.List.Infix
import Ciss.Framework.HashTable
import Ciss.Chain.Entry

/-!
# Tamper evidence of the chain

A chain's head hash commits to the chain.  Two entry lists that recomputation accepts and whose
last entries hash alike agree as far back as the shorter one goes, and two such lists that both
start at genesis are equal.

The argument has three layers.  `entryPreimage_inj` takes the hashed text apart field by field,
which needs the route free of `|`; `ChainStep.fold_inj` does the same for the two body folds and
keeps them apart, which needs the hash fields of a checkpoint free of `;`.  Together they give
`headHash_inj`: an entry is determined by its hash.  `suffix_or_suffix` is then an induction from
the head backwards, each accepted entry naming its predecessor's hash.

The hashed text renders an absent subkey and an empty one alike.  An entry with subkey `""`
therefore has the hash of the same entry without a subkey (`headHash_emptySubkey`), and the
commitment holds for entries whose subkey, when present, is not empty; the kind's registry
refuses an empty subkey before an entry is stored.
-/

namespace Ciss

/-! ## The entries the statements range over -/

/-- A hexadecimal digit. -/
def isHexDigit (c : Char) : Bool :=
  c.isDigit || ('a' ≤ c && c ≤ 'f') || ('A' ≤ c && c ≤ 'F')

/-- A hash field as the server stores it: 64 hex digits.  The genesis marker is one. -/
def IsHashField (s : String) : Prop :=
  (s.length = 64 ∧ ∀ c ∈ s.toList, isHexDigit c = true) ∨ s = genesisPrevHash

instance (s : String) : Decidable (IsHashField s) :=
  decidable_of_iff (s.length = 64 ∧ s.toList.all isHexDigit = true ∨ s = genesisPrevHash)
    (by rw [List.all_eq_true]; rfl)

/-- Every hash field of the body is a hash. -/
def ChainStep.HashFields : ChainStep → Prop
  | .step b => IsHashField b.prevEntryHash
  | .checkpoint b => IsHashField b.chainHeadHash ∧ IsHashField b.prevCheckpoint

instance (s : ChainStep) : Decidable s.HashFields := by
  cases s with
  | step b => exact inferInstanceAs (Decidable (IsHashField _))
  | checkpoint b => exact inferInstanceAs (Decidable (_ ∧ _))

/-- Identifiers without the delimiter, and hash fields that are hashes. -/
structure ChainEntry.Delimited (e : ChainEntry) : Prop where
  did : free '|' e.did
  kind : free '|' e.kind
  subkey : free '|' (e.subkey.getD "")
  hashes : e.step.HashFields

instance (e : ChainEntry) : Decidable e.Delimited :=
  decidable_of_iff (free '|' e.did ∧ free '|' e.kind ∧ free '|' (e.subkey.getD "") ∧
      e.step.HashFields)
    ⟨fun h => ⟨h.1, h.2.1, h.2.2.1, h.2.2.2⟩, fun h => ⟨h.did, h.kind, h.subkey, h.hashes⟩⟩

/-- A list begins with a step (not with a compacted anchor). -/
def BeginsWithStep (es : List ChainEntry) : Prop :=
  ∃ e rest, es = e :: rest ∧ e.step.isCheckpoint = false

/-- Recomputation accepts the list. -/
def Accepted (sha256Hex : Bytes → String) (es : List ChainEntry) : Prop :=
  ∃ total, recomputeTotal sha256Hex es = .ok total

/-! ## The hashed text determines the entry -/

lemma IsHashField.free_semicolon {s : String} (h : IsHashField s) : free ';' s := by
  rcases h with ⟨-, hs⟩ | rfl
  · intro hmem
    have := hs _ hmem
    exact absurd this (by decide)
  · decide

lemma entryPreimage_inj {d d' k k' f f' : String} {sk sk' : Option String} {n n' : Nat}
    (hd : free '|' d) (hd' : free '|' d') (hk : free '|' k) (hk' : free '|' k')
    (hs : free '|' (sk.getD "")) (hs' : free '|' (sk'.getD ""))
    (h : entryPreimage d k sk n f = entryPreimage d' k' sk' n' f') :
    d = d' ∧ k = k' ∧ sk.getD "" = sk'.getD "" ∧ n = n' ∧ f = f' := by
  have hlist : ∀ (d k f : String) (sk : Option String) (n : Nat),
      (entryPreimage d k sk n f).toList = d.toList ++ '|' :: (k.toList ++ '|' ::
        ((sk.getD "").toList ++ '|' :: (n.repr.toList ++ '|' :: f.toList))) := by
    intro d k f sk n
    simp [entryPreimage]
  have hl := congrArg String.toList h
  rw [hlist, hlist] at hl
  obtain ⟨h1, hl⟩ := sep_inj hd hd' hl
  obtain ⟨h2, hl⟩ := sep_inj hk hk' hl
  obtain ⟨h3, hl⟩ := sep_inj hs hs' hl
  obtain ⟨h4, hl⟩ := sep_inj (free_natRepr (by decide) n) (free_natRepr (by decide) n') hl
  exact ⟨h1, h2, h3, Nat.repr_injective h4, String.toList_inj.mp hl⟩

lemma toList_chainCounterBodyFold (b : ChainCounterBody) :
    (chainCounterBodyFold b).toList = "delta=".toList ++ (b.delta.repr.toList ++ ';' ::
      ("total=".toList ++ (b.total.repr.toList ++ ';' ::
        ("prev=".toList ++ b.prevEntryHash.toList)))) := by
  simp [chainCounterBodyFold]

lemma toList_checkpointBodyFold (b : CheckpointBody) :
    (checkpointBodyFold b).toList = "checkpoint;closing_total=".toList ++
      (b.closingTotal.repr.toList ++ ';' :: ("head=".toList ++ (b.chainHeadHash.toList ++ ';' ::
        ("prev_checkpoint=".toList ++ b.prevCheckpoint.toList)))) := by
  simp [checkpointBodyFold]

lemma chainCounterBodyFold_inj {b b' : ChainCounterBody}
    (h : chainCounterBodyFold b = chainCounterBodyFold b') : b = b' := by
  have hl := congrArg String.toList h
  rw [toList_chainCounterBodyFold, toList_chainCounterBodyFold] at hl
  obtain ⟨hdelta, hl⟩ := sep_inj (free_intRepr (by decide) (by decide) _)
    (free_intRepr (by decide) (by decide) _) (List.append_cancel_left hl)
  obtain ⟨htotal, hl⟩ := sep_inj (free_natRepr (by decide) _) (free_natRepr (by decide) _)
    (List.append_cancel_left hl)
  have hprev := String.toList_inj.mp (List.append_cancel_left hl)
  cases b
  cases b'
  simp only [ChainCounterBody.mk.injEq]
  exact ⟨Int.repr_injective hdelta, Nat.repr_injective htotal, hprev⟩

lemma checkpointBodyFold_inj {b b' : CheckpointBody}
    (hb : IsHashField b.chainHeadHash) (hb' : IsHashField b'.chainHeadHash)
    (h : checkpointBodyFold b = checkpointBodyFold b') : b = b' := by
  have hl := congrArg String.toList h
  rw [toList_checkpointBodyFold, toList_checkpointBodyFold] at hl
  obtain ⟨hclosing, hl⟩ := sep_inj (free_natRepr (by decide) _) (free_natRepr (by decide) _)
    (List.append_cancel_left hl)
  obtain ⟨hhead, hl⟩ := sep_inj hb.free_semicolon hb'.free_semicolon (List.append_cancel_left hl)
  have hprev := String.toList_inj.mp (List.append_cancel_left hl)
  cases b
  cases b'
  simp only [CheckpointBody.mk.injEq]
  exact ⟨Nat.repr_injective hclosing, hhead, hprev⟩

/-- A step fold is never a checkpoint fold: they differ in the first character. -/
lemma stepFold_ne_checkpointFold (b : ChainCounterBody) (c : CheckpointBody) :
    chainCounterBodyFold b ≠ checkpointBodyFold c := by
  intro h
  have hl := congrArg (fun s => s.toList.head?) h
  simp [toList_chainCounterBodyFold, toList_checkpointBodyFold] at hl

lemma ChainStep.fold_inj {s s' : ChainStep} (hs : s.HashFields) (hs' : s'.HashFields)
    (h : s.fold = s'.fold) : s = s' := by
  cases s with
  | step b =>
      cases s' with
      | step b' => rw [chainCounterBodyFold_inj h]
      | checkpoint c => exact absurd h (stepFold_ne_checkpointFold b c)
  | checkpoint c =>
      cases s' with
      | step b => exact absurd h.symm (stepFold_ne_checkpointFold b c)
      | checkpoint c' => rw [checkpointBodyFold_inj hs.1 hs'.1 h]

section

variable {sha256Hex : Bytes → String}

/-- Equal hashes: the entries agree in everything but whether an empty subkey is present. -/
lemma headHash_inj_fields (hinj : Function.Injective sha256Hex) {e e' : ChainEntry}
    (he : e.Delimited) (he' : e'.Delimited)
    (h : e.headHash sha256Hex = e'.headHash sha256Hex) :
    e.did = e'.did ∧ e.kind = e'.kind ∧ e.subkey.getD "" = e'.subkey.getD "" ∧
      e.seq = e'.seq ∧ e.step = e'.step := by
  rw [ChainEntry.headHash_eq, ChainEntry.headHash_eq] at h
  obtain ⟨hd, hk, hs, hn, hf⟩ := entryPreimage_inj he.did he'.did he.kind he'.kind
    he.subkey he'.subkey (asBytes_injective (hinj h))
  exact ⟨hd, hk, hs, hn, ChainStep.fold_inj he.hashes he'.hashes hf⟩

/-- Without empty subkeys an entry is determined by its hash. -/
lemma headHash_inj (hinj : Function.Injective sha256Hex) {e e' : ChainEntry}
    (he : e.Delimited) (he' : e'.Delimited) (hs : e.subkey ≠ some "") (hs' : e'.subkey ≠ some "")
    (h : e.headHash sha256Hex = e'.headHash sha256Hex) : e = e' := by
  obtain ⟨hd, hk, hsub, hn, hstep⟩ := headHash_inj_fields hinj he he' h
  have hsubkey : e.subkey = e'.subkey := by
    rcases hes : e.subkey with _ | a <;> rcases hes' : e'.subkey with _ | b <;>
      simp_all
  cases e
  cases e'
  simp only at hd hk hn hstep hsubkey
  subst hd hk hn hstep hsubkey
  rfl

/-- The empty subkey and the absent one hash alike. -/
lemma headHash_emptySubkey (did kind : String) (seq : Nat) (step : ChainStep) :
    ChainEntry.headHash sha256Hex ⟨did, kind, some "", seq, step⟩ =
      ChainEntry.headHash sha256Hex ⟨did, kind, none, seq, step⟩ := by
  rw [ChainEntry.headHash_eq, ChainEntry.headHash_eq]
  rfl

/-! ## From the head back -/

lemma accepted_iff {es : List ChainEntry} :
    Accepted sha256Hex es ↔
      ∃ st, recomputeFrom sha256Hex (none, genesisPrevHash) es = .ok st := by
  unfold Accepted recomputeTotal
  constructor
  · rintro ⟨t, ht⟩
    cases h : recomputeFrom sha256Hex (none, genesisPrevHash) es with
    | error brk => rw [h] at ht; cases ht
    | ok st => exact ⟨st, rfl⟩
  · rintro ⟨st, hst⟩
    exact ⟨_, by rw [hst]⟩

lemma Accepted.of_append {es es' : List ChainEntry} (h : Accepted sha256Hex (es ++ es')) :
    Accepted sha256Hex es := by
  obtain ⟨st, hst⟩ := accepted_iff.mp h
  rw [recomputeFrom_append] at hst
  cases hes : recomputeFrom sha256Hex (none, genesisPrevHash) es with
  | error brk => rw [hes] at hst; cases hst
  | ok st₁ => exact accepted_iff.mpr ⟨st₁, hes⟩

/-- In an accepted list every entry but the first names the hash of the one before it. -/
lemma Accepted.link {es es' : List ChainEntry} {p e : ChainEntry}
    (h : Accepted sha256Hex (es ++ [p] ++ e :: es')) : e.step.link = p.headHash sha256Hex := by
  have hsplit : Accepted sha256Hex (((es ++ [p]) ++ [e]) ++ es') := by simpa using h
  obtain ⟨st, hst⟩ := accepted_iff.mp hsplit.of_append
  obtain ⟨st₁, hst₁, he, -⟩ := recomputeFrom_concat_ok hst
  obtain ⟨_, -, -, hp⟩ := recomputeFrom_concat_ok hst₁
  have hst₁' : st₁ = (some (p.asPrev sha256Hex), st₁.2) := Prod.ext hp rfl
  rw [hst₁'] at he
  exact (recomputeEntry_some_ok he).2.1

/-- In an accepted list a leading step names the genesis marker. -/
lemma Accepted.head_link {e : ChainEntry} {es : List ChainEntry}
    (h : Accepted sha256Hex (e :: es)) (hstep : e.step.isCheckpoint = false) :
    e.step.link = genesisPrevHash := by
  have hsplit : Accepted sha256Hex (([] ++ [e]) ++ es) := by simpa using h
  obtain ⟨st, hst⟩ := accepted_iff.mp hsplit.of_append
  obtain ⟨st₁, hst₁, he, -⟩ := recomputeFrom_concat_ok hst
  rw [recomputeFrom_nil] at hst₁
  cases hst₁
  exact (recomputeEntry_none_ok he hstep).2.1

/-- **The head commits to the tail.**  Induction on one list from its head backwards: equal
heads name equal predecessors, until one of the lists runs out. -/
lemma suffix_or_suffix (hinj : Function.Injective sha256Hex) {xs ys : List ChainEntry}
    {x y : ChainEntry}
    (hxs : ∀ e ∈ xs ++ [x], e.Delimited ∧ e.subkey ≠ some "")
    (hys : ∀ e ∈ ys ++ [y], e.Delimited ∧ e.subkey ≠ some "")
    (hx : Accepted sha256Hex (xs ++ [x])) (hy : Accepted sha256Hex (ys ++ [y]))
    (h : x.headHash sha256Hex = y.headHash sha256Hex) :
    xs ++ [x] <:+ ys ++ [y] ∨ ys ++ [y] <:+ xs ++ [x] := by
  induction xs using List.reverseRecOn generalizing ys x y with
  | nil =>
      obtain ⟨hxd, hxk⟩ := hxs x (by simp)
      obtain ⟨hyd, hyk⟩ := hys y (by simp)
      rw [headHash_inj hinj hxd hyd hxk hyk h]
      exact Or.inl (List.suffix_append ys [y])
  | append_singleton as a ih =>
      obtain ⟨hxd, hxk⟩ := hxs x (by simp)
      obtain ⟨hyd, hyk⟩ := hys y (by simp)
      obtain rfl := headHash_inj hinj hxd hyd hxk hyk h
      rcases List.eq_nil_or_concat ys with rfl | ⟨bs, b, rfl⟩
      · exact Or.inr (List.suffix_append (as ++ [a]) [x])
      · rw [List.concat_eq_append] at *
        have hlink : a.headHash sha256Hex = b.headHash sha256Hex := by
          rw [← Accepted.link hx, ← Accepted.link hy]
        have hih := ih (fun e he => hxs e (List.mem_append_left _ he))
          (fun e he => hys e (List.mem_append_left _ he))
          hx.of_append hy.of_append hlink
        rcases hih with hs | hs
        · exact Or.inl (List.suffix_append_inj_of_length_eq rfl |>.mpr ⟨hs, rfl⟩)
        · exact Or.inr (List.suffix_append_inj_of_length_eq rfl |>.mpr ⟨hs, rfl⟩)

/-- An accepted list that begins at genesis is not a proper suffix of an accepted list. -/
lemma eq_of_suffix_of_beginsWithStep (hgen : ∀ b, sha256Hex b ≠ genesisPrevHash)
    {xs ys : List ChainEntry} (hx : Accepted sha256Hex xs) (hy : Accepted sha256Hex ys)
    (hstep : BeginsWithStep xs) (hs : xs <:+ ys) : xs = ys := by
  obtain ⟨t, rfl⟩ := hs
  obtain ⟨e, rest, rfl, he⟩ := hstep
  rcases List.eq_nil_or_concat t with rfl | ⟨t', p, rfl⟩
  · rfl
  · rw [List.concat_eq_append] at hy
    have hlink := Accepted.link hy
    rw [hx.head_link he, ChainEntry.headHash_eq] at hlink
    exact absurd hlink.symm (hgen _)

/-- **The head hash commits to the chain.**  For a collision-free hash that never yields the
genesis marker: of two accepted non-empty lists of well-formed entries whose last entries hash
alike the shorter is a suffix of the longer, and they are equal if both begin with a step; and a
step never hashes like a checkpoint. -/
theorem head_hash_commits (sha256Hex : Bytes → String) (hinj : Function.Injective sha256Hex)
    (hgen : ∀ b, sha256Hex b ≠ genesisPrevHash) :
    (∀ (xs ys : List ChainEntry) (hx : xs ≠ []) (hy : ys ≠ []),
      (∀ e ∈ xs, e.Delimited ∧ e.subkey ≠ some "") →
      (∀ e ∈ ys, e.Delimited ∧ e.subkey ≠ some "") →
      Accepted sha256Hex xs → Accepted sha256Hex ys →
      (xs.getLast hx).headHash sha256Hex = (ys.getLast hy).headHash sha256Hex →
      (xs.length ≤ ys.length → xs <:+ ys) ∧
        (BeginsWithStep xs → BeginsWithStep ys → xs = ys)) ∧
    (∀ e f : ChainEntry, e.Delimited → f.Delimited →
      e.step.isCheckpoint = false → f.step.isCheckpoint = true →
      e.headHash sha256Hex ≠ f.headHash sha256Hex) := by
  refine ⟨?_, ?_⟩
  · intro xs ys hx hy hxs hys hax hay hlast
    have hxe : xs.dropLast ++ [xs.getLast hx] = xs := List.dropLast_append_getLast hx
    have hye : ys.dropLast ++ [ys.getLast hy] = ys := List.dropLast_append_getLast hy
    have hsuf : xs <:+ ys ∨ ys <:+ xs := by
      rw [← hxe] at hxs hax
      rw [← hye] at hys hay
      rw [← hxe, ← hye]
      exact suffix_or_suffix hinj hxs hys hax hay hlast
    refine ⟨?_, ?_⟩
    · intro hlen
      rcases hsuf with hs | hs
      · exact hs
      · exact (hs.eq_of_length_le hlen) ▸ List.suffix_refl _
    · intro hbx hby
      rcases hsuf with hs | hs
      · exact eq_of_suffix_of_beginsWithStep hgen hax hay hbx hs
      · exact (eq_of_suffix_of_beginsWithStep hgen hay hax hby hs).symm
  · intro e f he hf hes hfs hhash
    have hstep := (headHash_inj_fields hinj he hf hhash).2.2.2.2
    rw [hstep, hfs] at hes
    cases hes

/-! ### A compacted chain and its full history

The entries are `+100`, a checkpoint over it, and `-30`, with their SHA-256 digests. -/

/-- The genesis step of the example chain. -/
def exampleGenesis : ChainEntry :=
  ⟨"did:x", chainCounterKind, some "acct", 1, .step ⟨100, 100, genesisPrevHash⟩⟩

/-- The checkpoint over `exampleGenesis`. -/
def exampleCheckpoint : ChainEntry :=
  ⟨"did:x", chainCounterKind, some "acct", 2, .checkpoint
    ⟨100, "c832d221af867f2092ad2d284be2fae798f10795f4aa1d636107ab322ca3354d", genesisPrevHash⟩⟩

/-- The step after `exampleCheckpoint`. -/
def exampleCorrection : ChainEntry :=
  ⟨"did:x", chainCounterKind, some "acct", 3, .step
    ⟨-30, 70, "d0a9617182f2283d45433c2d7905e0c3c38d965b024994533d3a0997c372b0e5"⟩⟩

/-- The SHA-256 digests of the example entries. -/
def exampleDigests : List (Bytes × String) :=
  [(asBytes (entryPreimage "did:x" chainCounterKind (some "acct") 1 exampleGenesis.step.fold),
      "c832d221af867f2092ad2d284be2fae798f10795f4aa1d636107ab322ca3354d"),
    (asBytes (entryPreimage "did:x" chainCounterKind (some "acct") 2 exampleCheckpoint.step.fold),
      "d0a9617182f2283d45433c2d7905e0c3c38d965b024994533d3a0997c372b0e5"),
    (asBytes (entryPreimage "did:x" chainCounterKind (some "acct") 3 exampleCorrection.step.fold),
      "3392856b014b774411464ba275ae0d724a818d92d0125f14ca854a8b6870a215")]

theorem head_hash_commits_example :
    [exampleCheckpoint, exampleCorrection] <:+
      [exampleGenesis, exampleCheckpoint, exampleCorrection] := by
  have hinj : Function.Injective (tabulatedHash exampleDigests) :=
    tabulatedHash_injective (by decide +kernel)
  have hgen : ∀ b, tabulatedHash exampleDigests b ≠ genesisPrevHash :=
    tabulatedHash_ne (by decide +kernel) (by decide +kernel)
  exact ((head_hash_commits (tabulatedHash exampleDigests) hinj hgen).1
    [exampleCheckpoint, exampleCorrection]
    [exampleGenesis, exampleCheckpoint, exampleCorrection] (by simp) (by simp)
    (by decide +kernel) (by decide +kernel) ⟨70, by decide +kernel⟩ ⟨70, by decide +kernel⟩
    (by decide +kernel)).1 (by decide)

/-- The empty subkey is rendered like the absent one: two different one-entry lists, both
accepted, both beginning with a step and with every identifier free of `|`, share a head
hash. -/
theorem empty_subkey_shares_head_hash :
    ∃ (sha256Hex : Bytes → String) (x y : ChainEntry),
      Function.Injective sha256Hex ∧ (∀ b, sha256Hex b ≠ genesisPrevHash) ∧
      x.Delimited ∧ y.Delimited ∧ Accepted sha256Hex [x] ∧ Accepted sha256Hex [y] ∧
      x.headHash sha256Hex = y.headHash sha256Hex ∧
      BeginsWithStep [x] ∧ BeginsWithStep [y] ∧ ¬ [x] <:+ [y] ∧ [x] ≠ [y] := by
  refine ⟨tabulatedHash [],
    ⟨"did:x", chainCounterKind, none, 1, .step ⟨100, 100, genesisPrevHash⟩⟩,
    ⟨"did:x", chainCounterKind, some "", 1, .step ⟨100, 100, genesisPrevHash⟩⟩,
    tabulatedHash_injective (by decide), tabulatedHash_ne (by decide) (by decide +kernel),
    by decide +kernel, by decide +kernel, ⟨100, rfl⟩, ⟨100, rfl⟩,
    (headHash_emptySubkey _ _ _ _).symm, ⟨_, _, rfl, rfl⟩, ⟨_, _, rfl, rfl⟩, ?_, by decide +kernel⟩
  rw [List.suffix_cons_iff]
  decide +kernel

end

end Ciss
