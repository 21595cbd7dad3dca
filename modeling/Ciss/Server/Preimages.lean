import Ciss.Chain.Tamper
import Ciss.Server.Kinds
import Ciss.Server.ManifestBinding
import Ciss.Sync.Manifest

/-!
# What assertion signatures bind

A record, its attestation and its acknowledgment are signed over colon-joined texts, and a DID in
such a text has colons of its own; so does the reader list of a policy.  `assertion_texts_bind` says
that the texts can be taken apart all the same, for every record whose body its kind admits and
whose structure `verify` accepts (`Admissible`), and that no text belongs to two of the message
types that the same keys sign.

All folds but a policy's are free of colons, so the text is taken apart from the right, where the
fields before the DID are.  A policy's text is first cut at its first `=`, which stands behind the
DID, the subkey and the seq.  An attestation names the DID twice, and the two are of one length.
-/

namespace Ciss

/-! ## Characters of identifiers -/

section

variable {raw : List Char} {c : Char} {s : String}

lemma isMsidChar_of_isLowerHex (h : isLowerHex raw = true) (hc : c ∈ raw) :
    isMsidChar c = true := by
  have hhex := List.all_eq_true.mp h c hc
  simp only [Bool.or_eq_true, Bool.and_eq_true, decide_eq_true_eq] at hhex
  unfold isMsidChar Char.isAlphanum Char.isAlpha Char.isLower
  rcases hhex with hdigit | ⟨hge, hle⟩
  · simp [hdigit]
  · have hz : c ≤ 'z' := Char.le_trans hle (show 'f' ≤ 'z' by decide)
    have hlower : c.val ≥ 97 ∧ c.val ≤ 122 := ⟨hge, hz⟩
    simp [hlower.1, hlower.2]

/-- A DID is written in the characters of a method-specific identifier. -/
lemma isMsidChar_of_isValidDid (h : isValidDid raw = true) (hc : c ∈ raw) :
    isMsidChar c = true := by
  unfold isValidDid at h
  split at h
  · rename_i rest hid
    have happ := List.append_eq_of_isPrefixOf?_eq_some hid
    rw [← happ] at hc
    simp only [Bool.and_eq_true] at h
    rcases List.mem_append.mp hc with hc | hc
    · exact List.all_eq_true.mp (by decide : "id:".toList.all isMsidChar = true) c hc
    · exact isMsidChar_of_isLowerHex h.2 hc
  · split at h
    · cases h
    · rename_i rest hdid
      have happ := List.append_eq_of_isPrefixOf?_eq_some hdid
      rw [← happ] at hc
      rcases List.mem_append.mp hc with hc | hc
      · exact List.all_eq_true.mp (by decide : "did:".toList.all isMsidChar = true) c hc
      · split at h
        · cases h
        · rename_i method colon msid hspan
          rw [List.span_eq_takeWhile_dropWhile, Prod.mk.injEq] at hspan
          have hsplit : method ++ colon :: msid = rest := by
            rw [← hspan.1, ← hspan.2, List.takeWhile_append_dropWhile]
          have hcolon : colon = ':' := by
            have hnot := List.head?_dropWhile_not (fun x => x ≠ ':') rest
            rw [hspan.2] at hnot
            simpa using hnot
          simp only [Bool.and_eq_true, List.all_eq_true] at h
          rw [← hsplit] at hc
          rcases List.mem_append.mp hc with hc | hc
          · have hmethod := h.1.2 c hc
            unfold isMsidChar Char.isAlphanum Char.isAlpha
            rcases Bool.or_eq_true_iff.mp hmethod with hlower | hdigit
            · simp [hlower]
            · simp [hdigit]
          · rcases List.mem_cons.mp hc with rfl | hc
            · rw [hcolon]
              decide
            · exact h.2.2 c hc

lemma Did.parse_valid (h : (Did.parse s).isOk = true) : isValidDid s.toList = true ∧ s ≠ "" := by
  unfold Did.parse at h
  split_ifs at h with hempty hlen hvalid
  · cases h
  · cases h
  · refine ⟨hvalid, ?_⟩
    rintro rfl
    exact hempty rfl
  · cases h

/-- A DID has no character outside that alphabet. -/
lemma Did.free (h : (Did.parse s).isOk = true) (hc : isMsidChar c = false) : free c s := by
  intro hmem
  rw [isMsidChar_of_isValidDid (Did.parse_valid h).1 hmem] at hc
  cases hc

end

/-! ## Folds -/

/-- Two bodies say the same: the readers of a policy are a set. -/
def KindBody.Same : KindBody → KindBody → Prop
  | .policy p, .policy p' => p.readClass = p'.readClass ∧ p.readers.Perm p'.readers
  | b, b' => b = b'

/-- The hash fields of a chain body are hashes. -/
def KindBody.HashFields : KindBody → Prop
  | .chainCounter step => step.HashFields
  | _ => True

/-- A policy body that its kind admits. -/
def KindBody.Valid : KindBody → Prop
  | .policy p => policyBodyValid p = true
  | _ => True

section

variable {b b' : KindBody} {p p' : PolicyBody}

lemma IsHashField.free_colon {s : String} (h : IsHashField s) : free ':' s := by
  rcases h with ⟨-, hs⟩ | rfl
  · intro hmem
    exact absurd (hs _ hmem) (by decide)
  · decide

lemma foldOpt_free {c : Char} (hc : c.isDigit = false) (hnone : free c "none") (v : Option Nat) :
    free c (foldOpt v) := by
  rcases v with _ | n
  · exact hnone
  · exact free_natRepr hc n

lemma foldOpt_injective : Function.Injective foldOpt := by
  have hne : ∀ n : Nat, "none" ≠ n.repr := by
    intro n h
    have hn : free 'n' "none" := h ▸ free_natRepr (by decide) n
    exact absurd hn (by decide)
  intro v v' h
  rcases v with _ | n <;> rcases v' with _ | n'
  · rfl
  · exact absurd h (hne n')
  · exact absurd h.symm (hne n)
  · exact congrArg some (Nat.repr_injective h)

lemma ceilingBodyFold_inj {c c' : CeilingDialBody} (h : ceilingBodyFold c = ceilingBodyFold c') :
    c = c' := by
  have hfold : ∀ x : CeilingDialBody, (ceilingBodyFold x).toList = "at_rest_bytes=".toList ++
      ((foldOpt x.atRestBytes).toList ++ ';' ::
        ("spend_cents=".toList ++ (foldOpt x.spendCents).toList)) := by
    intro x
    simp [ceilingBodyFold]
  have hl := congrArg String.toList h
  rw [hfold, hfold] at hl
  obtain ⟨hrest, hl⟩ := sep_inj (foldOpt_free (by decide) (by decide) _)
    (foldOpt_free (by decide) (by decide) _) (List.append_cancel_left hl)
  have hspend := String.toList_inj.mp (List.append_cancel_left hl)
  cases c
  cases c'
  simp only [CeilingDialBody.mk.injEq]
  exact ⟨foldOpt_injective hrest, foldOpt_injective hspend⟩

lemma policyBodyValid_readers (h : policyBodyValid p = true) {r : String} (hr : r ∈ p.readers) :
    free ',' r := by
  unfold policyBodyValid at h
  split at h
  · rw [List.isEmpty_iff.mp h] at hr
    cases hr
  · rw [List.isEmpty_iff.mp h] at hr
    cases hr
  · simp only [Bool.and_eq_true, List.all_eq_true] at h
    exact Did.free (h.1.2 r hr) (by decide)

lemma toList_policyBodyFold (p : PolicyBody) :
    (policyBodyFold p).toList = "class".toList ++ '=' :: (p.readClass.tag.toList ++ ';' ::
      ("readers=".toList ++ (p.readers.length.repr.toList ++ ':' ::
        [','].intercalate ((sortReaders p.readers).map String.toList)))) := by
  simp [policyBodyFold, String.toList_intercalate]

/-- The fold of a policy determines the class and the set of readers. -/
lemma policyBodyFold_inj (hp : policyBodyValid p = true) (hp' : policyBodyValid p' = true)
    (h : policyBodyFold p = policyBodyFold p') :
    p.readClass = p'.readClass ∧ p.readers.Perm p'.readers := by
  have htag : ∀ c : ReadClass, free ';' c.tag := by
    intro c
    cases c
    all_goals decide
  have hl := congrArg String.toList h
  rw [toList_policyBodyFold, toList_policyBodyFold] at hl
  have hl := List.cons_inj_right _ |>.mp (List.append_cancel_left hl)
  obtain ⟨hclass, hl⟩ := sep_inj (htag _) (htag _) hl
  obtain ⟨hcount, hl⟩ := sep_inj (free_natRepr (by decide) _) (free_natRepr (by decide) _)
    (List.append_cancel_left hl)
  have hperm : ∀ l : List String, (sortReaders l).Perm l := fun l => List.perm_insertionSort _ l
  have hsorted : sortReaders p.readers = sortReaders p'.readers := by
    refine intercalate_inj ?_ ?_ ?_ hl
    · rw [(hperm _).length_eq, (hperm _).length_eq]
      exact Nat.repr_injective hcount
    · intro r hr
      exact policyBodyValid_readers hp ((hperm _).mem_iff.mp hr)
    · intro r hr
      exact policyBodyValid_readers hp' ((hperm _).mem_iff.mp hr)
  refine ⟨?_, ?_⟩
  · revert hclass
    cases p.readClass <;> cases p'.readClass <;> decide
  · exact (hperm _).symm.trans (hsorted ▸ hperm _)

/-- The folds of one kind are apart. -/
lemma KindBody.fold_inj (hkind : b.kind = b'.kind) (hb : b.Valid) (hb' : b'.Valid)
    (hh : b.HashFields) (hh' : b'.HashFields) (h : b.fold = b'.fold) : b.Same b' := by
  cases b with
  | policy p =>
      cases b' with
      | policy p' => exact policyBodyFold_inj hb hb' h
      | _ => cases hkind
  | ceilingDial c =>
      cases b' with
      | ceilingDial c' => exact congrArg _ (ceilingBodyFold_inj h)
      | _ => cases hkind
  | periodDial =>
      cases b' with
      | periodDial => rfl
      | _ => cases hkind
  | accountModeDial m =>
      cases b' with
      | accountModeDial m' =>
          obtain ⟨mode⟩ := m
          obtain ⟨mode'⟩ := m'
          show KindBody.accountModeDial _ = .accountModeDial _
          revert h
          cases mode <;> cases mode' <;> decide
      | _ => cases hkind
  | receiptModeDial m =>
      cases b' with
      | receiptModeDial m' =>
          obtain ⟨mode⟩ := m
          obtain ⟨mode'⟩ := m'
          show KindBody.receiptModeDial _ = .receiptModeDial _
          revert h
          cases mode <;> cases mode' <;> decide
      | _ => cases hkind
  | flag f =>
      cases b' with
      | flag f' =>
          obtain ⟨set⟩ := f
          obtain ⟨set'⟩ := f'
          show KindBody.flag _ = .flag _
          revert h
          cases set <;> cases set' <;> decide
      | _ => cases hkind
  | chainCounter s =>
      cases b' with
      | chainCounter s' => exact congrArg _ (ChainStep.fold_inj hh hh' h)
      | _ => cases hkind

/-- Every fold but a policy's is free of colons. -/
lemma KindBody.fold_free (hpolicy : b.kind ≠ .policy) (hh : b.HashFields) : free ':' b.fold := by
  cases b with
  | policy p => exact absurd rfl hpolicy
  | ceilingDial c =>
      have hrest : free ':' (foldOpt c.atRestBytes) := foldOpt_free (by decide) (by decide) _
      have hspend : free ':' (foldOpt c.spendCents) := foldOpt_free (by decide) (by decide) _
      unfold KindBody.fold ceilingBodyFold
      simp only [String.join_cons, String.join_nil, free_append]
      exact ⟨by decide, hrest, by decide, hspend, by decide⟩
  | periodDial => decide
  | accountModeDial m =>
      obtain ⟨mode⟩ := m
      cases mode <;> decide
  | receiptModeDial m =>
      obtain ⟨mode⟩ := m
      cases mode <;> decide
  | flag f =>
      obtain ⟨set⟩ := f
      cases set <;> decide
  | chainCounter s =>
      cases s with
      | step body =>
          have hdelta : free ':' body.delta.repr := free_intRepr (by decide) (by decide) _
          have htotal : free ':' body.total.repr := free_natRepr (by decide) _
          have hprev : free ':' body.prevEntryHash := IsHashField.free_colon hh
          show free ':' (chainCounterBodyFold body)
          unfold chainCounterBodyFold
          simp only [String.join_cons, String.join_nil, free_append]
          exact ⟨by decide, hdelta, by decide, htotal, by decide, hprev, by decide⟩
      | checkpoint body =>
          have hclosing : free ':' body.closingTotal.repr := free_natRepr (by decide) _
          have hhead : free ':' body.chainHeadHash := IsHashField.free_colon hh.1
          have hprev : free ':' body.prevCheckpoint := IsHashField.free_colon hh.2
          show free ':' (checkpointBodyFold body)
          unfold checkpointBodyFold
          simp only [String.join_cons, String.join_nil, free_append]
          exact ⟨by decide, hclosing, by decide, hhead, by decide, hprev, by decide⟩

end

/-! ## Admissible records and their texts -/

/-- The body of the record is admitted by its kind, as `body`, and its structure passes `verify`.
The hash fields of a chain body are hashes. -/
structure Admissible (a : SignedAssertion) (body : KindBody) : Prop where
  kind : ∃ k, Kind.ofTag? a.kind = some k ∧ kindBody k a.subkey a.body = .ok body
  did : (Did.parse a.did).isOk = true
  subkey : subkeyWellFormed a.subkey = true
  hashes : body.HashFields

namespace SignedAssertion

/-- The text the owner of a record signs. -/
def recordText (a : SignedAssertion) (body : KindBody) : String :=
  recordPreimage a.kind a.did a.subkey a.seq body.fold

/-- The text of a record's attestation, whose owner is the record's DID. -/
def attestText (a : SignedAssertion) (body : KindBody) : String :=
  attestPreimage a.kind a.did a.did a.subkey a.seq body.fold

/-- The text of a record's acknowledgment. -/
def ackText (C : Crypto) (a : SignedAssertion) : String :=
  ackPreimage a.kind a.did a.subkey a.seq (a.digest C)

/-- Two records are of one kind, for one target, at one seq. -/
structure SameSlot (a a' : SignedAssertion) : Prop where
  kind : a.kind = a'.kind
  did : a.did = a'.did
  subkey : a.subkey = a'.subkey
  seq : a.seq = a'.seq

end SignedAssertion

section

variable {C : Crypto} {a a' : SignedAssertion} {body body' : KindBody}

/-- A record that `verify` accepts with the fold of its kind is admissible, if the hash fields of a
chain body are hashes; an attested one names its own DID as the owner. -/
lemma Admissible.of_verify {k : Kind} {fold : String} {priorSeq : Option Nat} {key : VerifyingKey}
    (hk : Kind.ofTag? a.kind = some k) (hbody : kindBody k a.subkey a.body = .ok body)
    (hhashes : body.HashFields) (h : a.verify C fold priorSeq key = true) :
    Admissible a body ∧
      ∀ owner jti sig, a.authorization = .providerAttested owner jti sig → owner = a.did := by
  unfold SignedAssertion.verify at h
  split at h
  · cases h
  · rename_i d hdid
    have hsub : subkeyWellFormed a.subkey = true := by
      by_contra hnot
      simp [hnot] at h
    refine ⟨⟨⟨k, hk, hbody⟩, by rw [hdid]; rfl, hsub, hhashes⟩, ?_⟩
    intro owner jti sig hauth
    by_contra hnot
    simp [hauth, hnot] at h

lemma Admissible.free_kind (h : Admissible a body) : free ':' a.kind := by
  obtain ⟨k, hk, -⟩ := h.kind
  rw [← Kind.tag_of_ofTag? hk]
  cases k
  all_goals decide

lemma Admissible.body_kind (h : Admissible a body) : body.kind.tag = a.kind := by
  obtain ⟨k, hk, hbody⟩ := h.kind
  rw [(kindBody_ok hbody).1]
  exact Kind.tag_of_ofTag? hk

lemma Admissible.valid (h : Admissible a body) : body.Valid := by
  obtain ⟨k, -, hbody⟩ := h.kind
  have hok := (kindBody_ok hbody).2
  cases body with
  | policy p => exact hok.2
  | _ => trivial

lemma Admissible.free_subkeyTag (h : Admissible a body) : free ':' (subkeyTag a.subkey) := by
  have hsub := h.subkey
  unfold subkeyTag
  rcases hsk : a.subkey with _ | sk
  · decide
  · rw [hsk] at hsub
    simp only [subkeyWellFormed, Bool.and_eq_true, Bool.not_eq_true'] at hsub
    intro hmem
    have := List.contains_iff_mem.mpr (show ':' ∈ sk.toList from hmem)
    rw [hsub.2] at this
    cases this

/-- The subkey of a policy is a content address. -/
lemma Admissible.free_subkeyTag_policy (h : Admissible a body) (hpolicy : body.kind = .policy) :
    free '=' (subkeyTag a.subkey) := by
  obtain ⟨k, -, hbody⟩ := h.kind
  have hok := (kindBody_ok hbody).2
  cases body with
  | policy p =>
      unfold subkeyTag
      rcases hsk : a.subkey with _ | sk
      · decide
      · have haddr := hok.1
        rw [hsk] at haddr
        simp only [Option.all_some, isContentAddr, Bool.and_eq_true] at haddr
        intro hmem
        exact absurd (isMsidChar_of_isLowerHex haddr.2 hmem) (by decide)
  | _ => cases hpolicy

/-- The subkey of a well-formed record is read off its tag. -/
lemma subkey_of_tag {sk sk' : Option String} (h : subkeyWellFormed sk = true)
    (h' : subkeyWellFormed sk' = true) (htag : subkeyTag sk = subkeyTag sk') : sk = sk' := by
  have hne : ∀ s : String, subkeyWellFormed (some s) = true → s ≠ "-" := by
    intro s hs
    simp only [subkeyWellFormed, Bool.and_eq_true, decide_eq_true_eq] at hs
    exact hs.1.2
  rcases sk with _ | s <;> rcases sk' with _ | s'
  · rfl
  · exact absurd htag.symm (hne s' h')
  · exact absurd htag (hne s h)
  · exact congrArg some htag

/-! ## Taking a text apart -/

/-- The part of a text behind the target: the subkey's tag, the seq and the last field. -/
def slotText (target : List Char) (subkey : Option String) (seq : Nat) (last : List Char) :
    List Char :=
  target ++ ':' :: ((subkeyTag subkey).toList ++ ':' :: (seq.repr.toList ++ ':' :: last))

/-- From the right, when the last field is free of colons. -/
lemma slotText_inj {target target' : List Char} {sk sk' : Option String} {seq seq' : Nat}
    {last last' : String} (hlast : free ':' last) (hlast' : free ':' last')
    (hsk : free ':' (subkeyTag sk)) (hsk' : free ':' (subkeyTag sk'))
    (h : slotText target sk seq last.toList = slotText target' sk' seq' last'.toList) :
    target = target' ∧ subkeyTag sk = subkeyTag sk' ∧ seq = seq' ∧ last = last' := by
  have hassoc : ∀ (t : List Char) (k : Option String) (n : Nat) (l : String),
      slotText t k n l.toList =
        ((t ++ ':' :: (subkeyTag k).toList) ++ ':' :: n.repr.toList) ++ ':' :: l.toList := by
    intro t k n l
    simp [slotText]
  rw [hassoc, hassoc] at h
  obtain ⟨hfold, h⟩ := sep_inj_right hlast hlast' h
  obtain ⟨hseq, h⟩ := sep_inj_right (free_natRepr (by decide) _) (free_natRepr (by decide) _) h
  obtain ⟨htag, htarget⟩ := sep_inj_right hsk hsk' h
  exact ⟨htarget, htag, Nat.repr_injective hseq, hfold⟩

/-- **The fields behind the kind.**  Two records of one kind whose texts agree behind the kind have
one target, one subkey, one seq and one fold. -/
lemma Admissible.slotText_inj (h : Admissible a body) (h' : Admissible a' body')
    (hkind : body.kind = body'.kind) {target target' : List Char} (htarget : '=' ∉ target)
    (htarget' : '=' ∉ target')
    (htext : slotText target a.subkey a.seq body.fold.toList =
      slotText target' a'.subkey a'.seq body'.fold.toList) :
    target = target' ∧ subkeyTag a.subkey = subkeyTag a'.subkey ∧ a.seq = a'.seq ∧
      body.fold = body'.fold := by
  by_cases hpolicy : body.kind = .policy
  · cases body with
    | policy p =>
        cases body' with
        | policy p' =>
            -- the first `=` ends the field `class`, which is free of colons
            have hcut : ∀ (t : List Char) (k : Option String) (n : Nat) (q : PolicyBody),
                slotText t k n (policyBodyFold q).toList =
                  slotText t k n "class".toList ++ '=' :: (q.readClass.tag.toList ++ ';' ::
                    ("readers=".toList ++ (q.readers.length.repr.toList ++ ':' ::
                      [','].intercalate ((sortReaders q.readers).map String.toList)))) := by
              intro t k n q
              rw [toList_policyBodyFold]
              simp [slotText]
            have hfree : ∀ (t : List Char) (k : Option String) (n : Nat), '=' ∉ t →
                free '=' (subkeyTag k) → '=' ∉ slotText t k n "class".toList := by
              intro t k n ht hk
              have hn : free '=' n.repr := free_natRepr (by decide) n
              unfold slotText
              simp only [List.mem_append, List.mem_cons, not_or]
              exact ⟨ht, by decide, hk, by decide, hn, by decide, by decide⟩
            have heq : slotText target a.subkey a.seq (policyBodyFold p).toList =
                slotText target' a'.subkey a'.seq (policyBodyFold p').toList := htext
            rw [hcut, hcut] at heq
            obtain ⟨hleft, hright⟩ := append_cons_inj_of_free
              (hfree _ _ _ htarget (h.free_subkeyTag_policy rfl))
              (hfree _ _ _ htarget' (h'.free_subkeyTag_policy rfl)) heq
            obtain ⟨hd, htag, hseq, -⟩ := Ciss.slotText_inj (by decide) (by decide)
              h.free_subkeyTag h'.free_subkeyTag hleft
            refine ⟨hd, htag, hseq, String.toList_inj.mp ?_⟩
            show (policyBodyFold p).toList = (policyBodyFold p').toList
            rw [toList_policyBodyFold, toList_policyBodyFold, hright]
        | _ => cases hkind
    | _ => cases hpolicy
  · exact Ciss.slotText_inj (KindBody.fold_free hpolicy h.hashes)
      (KindBody.fold_free (fun hp => hpolicy (hkind.trans hp)) h'.hashes) h.free_subkeyTag
      h'.free_subkeyTag htext

lemma Admissible.free_did (h : Admissible a body) {c : Char} (hc : isMsidChar c = false) :
    free c a.did := Did.free h.did hc

lemma Kind.tag_injective : Function.Injective Kind.tag := by
  intro k k' h
  have := Kind.ofTag?_tag k
  rw [h, Kind.ofTag?_tag] at this
  exact (Option.some.inj this).symm

/-- The rest of the argument, once the texts agree behind the kind. -/
lemma Admissible.same (h : Admissible a body) (h' : Admissible a' body') (hkind : a.kind = a'.kind)
    (hdid : a.did = a'.did) (htag : subkeyTag a.subkey = subkeyTag a'.subkey)
    (hseq : a.seq = a'.seq) : a.SameSlot a' :=
  ⟨hkind, hdid, subkey_of_tag h.subkey h'.subkey htag, hseq⟩

lemma Admissible.kind_eq (h : Admissible a body) (h' : Admissible a' body')
    (hkind : a.kind = a'.kind) : body.kind = body'.kind := by
  apply Kind.tag_injective
  rw [h.body_kind, h'.body_kind, hkind]

lemma recordText_inj (h : Admissible a body) (h' : Admissible a' body')
    (htext : a.recordText body = a'.recordText body') : a.SameSlot a' ∧ body.Same body' := by
  have hl : ∀ (x : SignedAssertion) (b : KindBody), (x.recordText b).toList =
      "ciss/v1/assertion:".toList ++ (x.kind.toList ++ ':' ::
        slotText x.did.toList x.subkey x.seq b.fold.toList) := by
    intro x b
    simp [SignedAssertion.recordText, recordPreimage, slotText]
  have heq := congrArg String.toList htext
  rw [hl, hl] at heq
  obtain ⟨hkind, heq⟩ := sep_inj h.free_kind h'.free_kind (List.append_cancel_left heq)
  obtain ⟨hdid, htag, hseq, hfold⟩ := h.slotText_inj h' (h.kind_eq h' hkind)
    (h.free_did (by decide)) (h'.free_did (by decide)) heq
  exact ⟨h.same h' hkind (String.toList_inj.mp hdid) htag hseq,
    KindBody.fold_inj (h.kind_eq h' hkind) h.valid h'.valid h.hashes h'.hashes hfold⟩

lemma attestText_inj (h : Admissible a body) (h' : Admissible a' body')
    (htext : a.attestText body = a'.attestText body') : a.SameSlot a' ∧ body.Same body' := by
  have hl : ∀ (x : SignedAssertion) (b : KindBody), (x.attestText b).toList =
      "ciss/v1/assertion-attest:".toList ++ (x.kind.toList ++ ':' ::
        slotText (x.did.toList ++ ':' :: x.did.toList) x.subkey x.seq b.fold.toList) := by
    intro x b
    simp [SignedAssertion.attestText, attestPreimage, slotText]
  have hfree : ∀ {x : SignedAssertion} {b : KindBody}, Admissible x b →
      '=' ∉ x.did.toList ++ ':' :: x.did.toList := by
    intro x b hx
    have hdid : '=' ∉ x.did.toList := hx.free_did (by decide)
    simp [hdid]
  have heq := congrArg String.toList htext
  rw [hl, hl] at heq
  obtain ⟨hkind, heq⟩ := sep_inj h.free_kind h'.free_kind (List.append_cancel_left heq)
  obtain ⟨htwice, htag, hseq, hfold⟩ := h.slotText_inj h' (h.kind_eq h' hkind) (hfree h)
    (hfree h') heq
  -- the DID twice: the two halves are of one length
  have hlen : a.did.toList.length = a'.did.toList.length := by
    have := congrArg List.length htwice
    simp only [List.length_append, List.length_cons] at this
    omega
  have hdid := (List.append_inj htwice hlen).1
  exact ⟨h.same h' hkind (String.toList_inj.mp hdid) htag hseq,
    KindBody.fold_inj (h.kind_eq h' hkind) h.valid h'.valid h.hashes h'.hashes hfold⟩

lemma ackText_inj (hhex : ∀ b, free ':' (C.sha256Hex b)) (h : Admissible a body)
    (h' : Admissible a' body') (htext : a.ackText C = a'.ackText C) :
    a.SameSlot a' ∧ a.digest C = a'.digest C := by
  have hl : ∀ x : SignedAssertion, (x.ackText C).toList =
      "ciss/v1/assertion-ack:".toList ++ (x.kind.toList ++ ':' ::
        slotText x.did.toList x.subkey x.seq (x.digest C).toList) := by
    intro x
    simp [SignedAssertion.ackText, ackPreimage, slotText]
  have heq := congrArg String.toList htext
  rw [hl, hl] at heq
  obtain ⟨hkind, heq⟩ := sep_inj h.free_kind h'.free_kind (List.append_cancel_left heq)
  obtain ⟨hdid, htag, hseq, hdigest⟩ := slotText_inj (hhex _) (hhex _) h.free_subkeyTag
    h'.free_subkeyTag heq
  exact ⟨h.same h' hkind (String.toList_inj.mp hdid) htag hseq, hdigest⟩

end

/-! ## Message types -/

/-- What the keys of owners, devices and the provider sign. -/
inductive MessageType where
  | record
  | attestation
  | acknowledgment
  | manifest
  | deviceHead
  | receiptHash
  deriving DecidableEq, Repr

/-- The texts of each message type. -/
inductive SignedText (C : Crypto) : MessageType → String → Prop
  | record {a : SignedAssertion} {body : KindBody} (h : Admissible a body) :
      SignedText C .record (a.recordText body)
  | attestation {a : SignedAssertion} {body : KindBody} (h : Admissible a body) :
      SignedText C .attestation (a.attestText body)
  | acknowledgment {a : SignedAssertion} {body : KindBody} (h : Admissible a body) :
      SignedText C .acknowledgment (a.ackText C)
  | manifest (m : Manifest) : SignedText C .manifest (m.preimage C)
  | deviceHead (deviceId : String) (counter : Nat) (fsRoot : String)
      (parent base : Option String) :
      SignedText C .deviceHead (DeviceHead.preimage deviceId counter fsRoot parent base)
  | receiptHash {s : String} (hlen : s.length = 64) (hhex : ∀ c ∈ s.toList, isHexDigit c = true) :
      SignedText C .receiptHash s

/-- The domain a message type begins with; a receipt hash is signed bare. -/
def MessageType.domain : MessageType → String
  | .record => "ciss/v1/assertion:"
  | .attestation => "ciss/v1/assertion-attest:"
  | .acknowledgment => "ciss/v1/assertion-ack:"
  | .manifest => "ciss/v1/manifest:"
  | .deviceHead => "croft.device-head/v1:"
  | .receiptHash => ""

section

variable {C : Crypto} {t t' : MessageType} {text : String}

/-- A joined text begins with its first two parts. -/
lemma prefix_join {d sep dom : String} (hdom : d ++ sep = dom) (rest : List String) :
    dom.toList <+: (String.join (d :: sep :: rest)).toList := by
  have happ : (String.join (d :: sep :: rest)).toList = dom.toList ++ (String.join rest).toList := by
    rw [String.join_cons, String.join_cons, ← String.append_assoc, hdom, String.toList_append]
  rw [happ]
  exact List.prefix_append _ _

/-- Every text begins with the domain of its type. -/
lemma SignedText.begins (h : SignedText C t text) : t.domain.toList <+: text.toList := by
  cases h with
  | record h =>
      unfold SignedAssertion.recordText recordPreimage
      exact prefix_join (by decide) _
  | attestation h =>
      unfold SignedAssertion.attestText attestPreimage
      exact prefix_join (by decide) _
  | acknowledgment h =>
      unfold SignedAssertion.ackText ackPreimage
      exact prefix_join (by decide) _
  | manifest m =>
      have hbase : "ciss/v1/manifest:".toList <+:
          manifestBase m.signerId m.seq m.leaves.length m.totalBytes m.root := by
        unfold manifestBase
        simp only [List.append_assoc]
        exact List.prefix_append _ _
      unfold Manifest.preimage
      rcases m.heads with _ | map
      · rw [toList_manifestPreimage_none]
        exact hbase
      · rw [toList_manifestPreimage_some]
        exact hbase.trans (List.prefix_append _ _)
  | deviceHead deviceId counter fsRoot parent base =>
      unfold DeviceHead.preimage
      exact prefix_join (by decide) _
  | receiptHash hlen hhex => exact List.nil_prefix

/-- A text of a type with a domain has a character that is no hex digit. -/
lemma SignedText.not_hex (h : SignedText C t text) (ht : t ≠ .receiptHash) :
    ∃ c ∈ text.toList, isHexDigit c = false := by
  have hmem : t.domain.toList.any (fun c => !isHexDigit c) = true := by
    cases t
    all_goals first | exact absurd rfl ht | decide
  obtain ⟨c, hc, hhex⟩ := List.any_eq_true.mp hmem
  exact ⟨c, h.begins.subset hc, by simpa using hhex⟩

/-- **No text is of two types.** -/
lemma SignedText.type_unique (h : SignedText C t text) (h' : SignedText C t' text) : t = t' := by
  have hhex : ∀ {u : MessageType}, SignedText C .receiptHash text → SignedText C u text →
      u = .receiptHash := by
    intro u hr hu
    by_contra hne
    obtain ⟨c, hc, hnot⟩ := hu.not_hex hne
    cases hr with
    | receiptHash hlen hhex =>
        rw [hhex c hc] at hnot
        cases hnot
  by_cases ht : t = .receiptHash
  · subst ht
    exact (hhex h h').symm
  by_cases ht' : t' = .receiptHash
  · subst ht'
    exact hhex h' h
  -- of two domains neither begins with the other
  have hprefix := List.prefix_or_prefix_of_prefix h.begins h'.begins
  revert hprefix ht ht'
  cases t <;> cases t' <;> decide

end

/-- **What assertion signatures bind.**  Over admissible records: equal record texts, and equal
attestation texts, mean one kind, one DID, one subkey, one seq and one body as the kind reads it;
equal acknowledgment texts mean one kind, one DID, one subkey, one seq and one record digest; and no
text belongs to two message types. -/
theorem assertion_texts_bind (C : Crypto)
    (hhex : ∀ b, ∀ c ∈ (C.sha256Hex b).toList, isLowerHexDigit c = true) :
    (∀ a a' body body', Admissible a body → Admissible a' body' →
      a.recordText body = a'.recordText body' → a.SameSlot a' ∧ body.Same body') ∧
    (∀ a a' body body', Admissible a body → Admissible a' body' →
      a.attestText body = a'.attestText body' → a.SameSlot a' ∧ body.Same body') ∧
    (∀ a a' body body', Admissible a body → Admissible a' body' →
      a.ackText C = a'.ackText C → a.SameSlot a' ∧ a.digest C = a'.digest C) ∧
    ∀ t t' text, SignedText C t text → SignedText C t' text → t = t' := by
  refine ⟨?_, ?_, ?_, ?_⟩
  · intro a a' body body' h h' htext
    exact recordText_inj h h' htext
  · intro a a' body body' h h' htext
    exact attestText_inj h h' htext
  · intro a a' body body' h h' htext
    refine ackText_inj ?_ h h' htext
    intro b hmem
    exact absurd (hhex b _ hmem) (by decide)
  · intro t t' text h h'
    exact h.type_unique h'

/-! ### A policy for two readers -/

/-- A policy of two readers, at seq 3, by the order of its readers. -/
def readersPolicy (readers : List String) : SignedAssertion where
  did := "id:fe812c12f3ab4ce6ac5db69ac352f906cb1b11ef43fb33e252ef7ff552263889"
  kind := "policy"
  subkey := some "ba7816bf8f01cfea414140de5dae2223b00361a396177a9cb410ff61f20015ad"
  seq := 3
  body := .object [("read_class", .string "grantees"), ("readers", .array (readers.map .string))]
  authorization := .ownerSigned "" ""

/-- Its body as the kind reads it. -/
def readersBody (readers : List String) : KindBody := .policy ⟨.grantees, readers⟩

lemma admissible_readersPolicy {readers : List String}
    (h : readers = ["did:plc:ewvi7nxzyoun6zhxrhs64oiz", "did:web:example.org"] ∨
      readers = ["did:web:example.org", "did:plc:ewvi7nxzyoun6zhxrhs64oiz"]) :
    Admissible (readersPolicy readers) (readersBody readers) := by
  rcases h with rfl | rfl
  · exact ⟨⟨.policy, by decide +kernel, by decide +kernel⟩, by decide +kernel, by decide +kernel,
      trivial⟩
  · exact ⟨⟨.policy, by decide +kernel, by decide +kernel⟩, by decide +kernel, by decide +kernel,
      trivial⟩

/-- Two policies with the same text: they name the same readers. -/
theorem assertion_texts_bind_example :
    (readersPolicy ["did:plc:ewvi7nxzyoun6zhxrhs64oiz", "did:web:example.org"]).SameSlot
        (readersPolicy ["did:web:example.org", "did:plc:ewvi7nxzyoun6zhxrhs64oiz"]) ∧
      (readersBody ["did:plc:ewvi7nxzyoun6zhxrhs64oiz", "did:web:example.org"]).Same
        (readersBody ["did:web:example.org", "did:plc:ewvi7nxzyoun6zhxrhs64oiz"]) := by
  refine (assertion_texts_bind headsCrypto hexHash_headsCrypto.hex).1 _ _ _ _
    (admissible_readersPolicy (Or.inl rfl)) (admissible_readersPolicy (Or.inr rfl)) ?_
  decide +kernel

end Ciss
