import Mathlib.Data.Countable.Basic
import Mathlib.Logic.Equiv.List
import Ciss.Server.Quota
import Ciss.Sync.DagCbor

/-!
# What a device head's signature binds

The text a device head's signature covers joins its fields with colons: the device, the counter, the
published tree, and the parent and the base, each a dash when absent.  No field is checked to avoid
the colon or the dash, so one text can be cut into fields in several ways, and each cut is a head
that decodes and verifies under the same signature.

`head_signature_binds_iff` is the exact condition on an accepted head: no other head is accepted
under its signature if and only if its parent and its base are present and not the dash, its tree,
parent and base have no colon, and no piece of its device behind the first colon is a counter
(`DeviceHead.OneCut`).  The text is compared piece by piece: a cut is a choice of the piece that is
the counter and of the two places behind it.
-/

namespace Ciss

/-- A signature under the key verifies for one message only. -/
def SignsOnce (C : Crypto) (key : VerifyingKey) : Prop :=
  ∀ m m' sig, verifyMessage C key m sig = true → verifyMessage C key m' sig = true → m = m'

/-- The codec reads every head whose counter is a `u64`, and no other. -/
def Codec.ReadsHeads (K : Codec) : Prop :=
  ∀ h : DeviceHead, (∃ bytes, K.decodeHead bytes = .ok h) ↔ h.counter < 2 ^ 64

/-- The heads agree in every field that is signed. -/
structure SameSigned (h h' : DeviceHead) : Prop where
  deviceId : h.deviceId = h'.deviceId
  counter : h.counter = h'.counter
  fsRoot : h.fsRoot = h'.fsRoot
  parent : h.parent = h'.parent
  base : h.base = h'.base

/-- The text a head's signature covers. -/
def DeviceHead.signedText (h : DeviceHead) : String :=
  preimage h.deviceId h.counter h.fsRoot h.parent h.base

/-! ## Pieces -/

/-- The pieces of a text between its colons. -/
def pieces (s : String) : List (List Char) := s.toList.splitOn ':'

section

variable {s : String}

lemma pieces_ne_nil : pieces s ≠ [] := List.splitOn_ne_nil _ _

lemma length_pieces_pos : 0 < (pieces s).length := List.length_pos_iff.mpr pieces_ne_nil

lemma pieces_of_free (h : free ':' s) : pieces s = [s.toList] := List.splitOn_eq_singleton h

lemma pieces_injective : Function.Injective pieces := by
  intro s t h
  have hjoin := congrArg (List.intercalate [':']) h
  rw [pieces, pieces, List.intercalate_splitOn, List.intercalate_splitOn] at hjoin
  exact String.toList_inj.mp hjoin

/-- The text before and behind a colon. -/
lemma exists_cut_of_not_free (h : ¬ free ':' s) : ∃ a b : String, s = String.join [a, ":", b] := by
  obtain ⟨a, b, hab⟩ := List.append_of_mem (not_not.mp h)
  refine ⟨String.ofList a, String.ofList b, String.toList_inj.mp ?_⟩
  simp [String.join_cons, hab]

end

/-- Some piece of the text behind its first colon is a `u64` in decimal. -/
def HasLaterCounter (s : String) : Prop := ∃ n < 2 ^ 64, n.repr.toList ∈ (pieces s).tail

/-- The head's signed text has no second cut. -/
structure DeviceHead.OneCut (h : DeviceHead) : Prop where
  device : ¬ HasLaterCounter h.deviceId
  fsRoot : free ':' h.fsRoot
  parent : ∃ p, h.parent = some p ∧ p ≠ "-" ∧ free ':' p
  base : ∃ b, h.base = some b ∧ b ≠ "-" ∧ free ':' b

/-! ## Acceptance -/

section

variable {C : Crypto} {K : Codec} {key : VerifyingKey} {bytes : Bytes} {h h' : DeviceHead}

/-- What `decode_verified` accepts. -/
lemma decodeVerified_eq_ok_iff : DeviceHead.decodeVerified C K bytes key = .ok h ↔
    K.decodeHead bytes = .ok h ∧ h.kind = deviceHeadKind ∧
      verifyMessage C key h.signedText h.signature = true := by
  rw [DeviceHead.decodeVerified]
  cases hdecode : K.decodeHead bytes with
  | error e =>
      refine iff_of_false ?_ (fun hok => by cases hok.1)
      intro hok
      cases hok
  | ok head =>
      simp only [mapError_ok, bind, Except.bind, pure, Except.pure]
      constructor
      · intro hok
        split_ifs at hok with hkind hsig
        cases hok
        exact ⟨rfl, not_not.mp hkind, by simpa [DeviceHead.signedText] using hsig⟩
      · rintro ⟨hhead, hkind, hsig⟩
        obtain rfl := Except.ok.inj hhead
        rw [if_neg (not_not.mpr hkind), if_neg]
        simpa [DeviceHead.signedText] using hsig

/-- The pieces of the signed text behind the domain. -/
lemma pieces_signedText (h : DeviceHead) : pieces h.signedText =
    [deviceHeadKind.toList] ++ (pieces h.deviceId ++ ([h.counter.repr.toList] ++
      (pieces h.fsRoot ++ (pieces (h.parent.getD "-") ++ pieces (h.base.getD "-"))))) := by
  have hdomain : ':' ∉ deviceHeadKind.toList := by decide
  have hcounter : ':' ∉ h.counter.repr.toList := free_natRepr (by decide) h.counter
  have htext : h.signedText.toList = deviceHeadKind.toList ++ ':' :: (h.deviceId.toList ++ ':' ::
      (h.counter.repr.toList ++ ':' :: (h.fsRoot.toList ++ ':' :: ((h.parent.getD "-").toList ++
        ':' :: (h.base.getD "-").toList)))) := by
    simp [DeviceHead.signedText, DeviceHead.preimage, String.join_cons]
  rw [pieces, htext]
  simp only [List.splitOn_append_cons_self, List.splitOn_eq_singleton hdomain,
    List.splitOn_eq_singleton hcounter]
  rfl

/-- A present text that is not the dash is what the placeholder rule reads. -/
lemma eq_some_of_getD_eq {o : Option String} {p : String} (hp : p ≠ "-") (h : p = o.getD "-") :
    o = some p := by
  cases o with
  | none => exact absurd h hp
  | some q => exact congrArg some h.symm

/-- **A text with one cut has one head.** -/
lemma sameSigned_of_signedText_eq (hcut : h.OneCut) (hcounter : h'.counter < 2 ^ 64)
    (htext : h.signedText = h'.signedText) : SameSigned h h' := by
  obtain ⟨hdevice, hroot, ⟨p, hp, hpdash, hpfree⟩, b, hb, hbdash, hbfree⟩ := hcut
  have hpieces := congrArg pieces htext
  rw [pieces_signedText, pieces_signedText, List.append_cancel_left_eq, pieces_of_free hroot, hp,
    hb, Option.getD_some, Option.getD_some, pieces_of_free hpfree, pieces_of_free hbfree] at hpieces
  have hrest := length_pieces_pos (s := h'.fsRoot)
  have hrest' := length_pieces_pos (s := h'.parent.getD "-")
  have hrest'' := length_pieces_pos (s := h'.base.getD "-")
  have hlen := congrArg List.length hpieces
  simp only [List.length_append, List.length_cons, List.length_nil] at hlen
  -- the counter of the other cut is not an earlier piece of the device
  have hdevicelen : (pieces h'.deviceId).length = (pieces h.deviceId).length := by
    by_contra hne
    have hlt : (pieces h'.deviceId).length < (pieces h.deviceId).length := by omega
    refine hdevice ⟨h'.counter, hcounter, ?_⟩
    have hat := congrArg (fun l => l[(pieces h'.deviceId).length]?) hpieces
    simp only [List.getElem?_append_left hlt, List.getElem?_append_right le_rfl,
      Nat.sub_self] at hat
    obtain ⟨k, hk⟩ : ∃ k, (pieces h'.deviceId).length = k + 1 :=
      Nat.exists_eq_add_one.mpr length_pieces_pos
    rw [hk, ← List.getElem?_tail] at hat
    exact List.mem_of_getElem? hat
  obtain ⟨hpdevice, hpieces⟩ := List.append_inj hpieces hdevicelen.symm
  obtain ⟨hpcounter, hpieces⟩ := List.append_inj hpieces rfl
  obtain ⟨hproot, hpieces⟩ := List.append_inj hpieces (by simp only [List.length_singleton]; omega)
  obtain ⟨hpparent, hpbase⟩ := List.append_inj hpieces (by simp only [List.length_singleton]; omega)
  rw [← pieces_of_free hroot] at hproot
  rw [← pieces_of_free hpfree] at hpparent
  rw [← pieces_of_free hbfree] at hpbase
  refine ⟨pieces_injective hpdevice, ?_, pieces_injective hproot, ?_, ?_⟩
  · exact Nat.repr_injective (String.toList_inj.mp (List.singleton_inj.mp hpcounter))
  · rw [hp]
    exact (eq_some_of_getD_eq hpdash (pieces_injective hpparent)).symm
  · rw [hb]
    exact (eq_some_of_getD_eq hbdash (pieces_injective hpbase)).symm

/-! ## Another cut -/

/-- Two joins of pieces are joined by the separator. -/
lemma intercalate_append {α : Type*} {c : α} {u v : List (List α)} (hu : u ≠ []) (hv : v ≠ []) :
    [c].intercalate (u ++ v) = [c].intercalate u ++ c :: [c].intercalate v := by
  induction u with
  | nil => exact absurd rfl hu
  | cons x u ih =>
      by_cases hnil : u = []
      · subst hnil
        rw [List.singleton_append, List.intercalate_cons_of_ne_nil hv, List.intercalate_singleton]
        simp
      · rw [List.cons_append, List.intercalate_cons_of_ne_nil (by simp [hnil]), ih hnil,
          List.intercalate_cons_of_ne_nil hnil]
        simp

/-- A piece of a text behind its first colon: what is before it, and what is behind it. -/
lemma exists_cut_of_mem_tail {s x : String} (hx : x.toList ∈ (pieces s).tail) :
    ∃ a : String, s = String.join [a, ":", x] ∨
      ∃ b : String, s = String.join [a, ":", x, ":", b] := by
  obtain ⟨u, v, huv⟩ := List.append_of_mem hx
  obtain ⟨p, hp⟩ : ∃ p, pieces s = (p :: u) ++ x.toList :: v := by
    cases hs : pieces s with
    | nil => exact absurd hs pieces_ne_nil
    | cons p tail =>
        rw [hs, List.tail_cons] at huv
        exact ⟨p, by rw [huv, List.cons_append]⟩
  have hjoin : s.toList = [':'].intercalate ((p :: u) ++ x.toList :: v) := by
    rw [← hp, pieces, List.intercalate_splitOn]
  rw [intercalate_append (List.cons_ne_nil p u) (List.cons_ne_nil _ v)] at hjoin
  refine ⟨String.ofList ([':'].intercalate (p :: u)), ?_⟩
  by_cases hv : v = []
  · left
    apply String.toList_inj.mp
    rw [hjoin, hv, List.intercalate_singleton]
    simp [String.join_cons]
  · right
    refine ⟨String.ofList ([':'].intercalate v), ?_⟩
    apply String.toList_inj.mp
    rw [hjoin, List.intercalate_cons_of_ne_nil hv]
    simp [String.join_cons]

lemma join_ne_left {a b : String} : String.join [a, ":", b] ≠ a := by
  intro h
  have hlen := congrArg (fun s : String => s.toList.length) h
  simp [String.join_cons] at hlen

lemma join_ne_right {a b : String} : String.join [a, ":", b] ≠ b := by
  intro h
  have hlen := congrArg (fun s : String => s.toList.length) h
  simp [String.join_cons] at hlen
  omega

/-- The dash has two readings. -/
lemma exists_other_reading {o : Option String} (h : o.getD "-" = "-") :
    ∃ o' : Option String, o'.getD "-" = o.getD "-" ∧ o ≠ o' := by
  cases o with
  | none => exact ⟨some "-", rfl, by simp⟩
  | some p => exact ⟨none, h.symm, by simp⟩

/-- Another head with the same signed text, and with a `u64` counter. -/
structure SecondCut (h h' : DeviceHead) : Prop where
  counter : h'.counter < 2 ^ 64
  kind : h'.kind = h.kind
  signature : h'.signature = h.signature
  signedText : h'.signedText = h.signedText
  differs : ¬ SameSigned h h'

/-- A counter in the device moves what is behind it into the tree. -/
lemma exists_secondCut_device (hdevice : HasLaterCounter h.deviceId) : ∃ h', SecondCut h h' := by
  obtain ⟨n, hn, hmem⟩ := hdevice
  obtain ⟨a, ha | ⟨b, ha⟩⟩ := exists_cut_of_mem_tail hmem
  · refine ⟨{ h with
        deviceId := a
        counter := n
        fsRoot := String.join [h.counter.repr, ":", h.fsRoot] }, hn, rfl, rfl, ?_, ?_⟩
    · apply String.toList_inj.mp
      simp [DeviceHead.signedText, DeviceHead.preimage, String.join_cons, ha]
    · intro hsame
      exact join_ne_left (ha.symm.trans hsame.deviceId)
  · refine ⟨{ h with
        deviceId := a
        counter := n
        fsRoot := String.join [b, ":", h.counter.repr, ":", h.fsRoot] }, hn, rfl, rfl, ?_, ?_⟩
    · apply String.toList_inj.mp
      simp [DeviceHead.signedText, DeviceHead.preimage, String.join_cons, ha]
    · intro hsame
      have hlen := congrArg (fun s : String => s.toList.length) (ha.symm.trans hsame.deviceId)
      simp [String.join_cons] at hlen

/-- A colon in the tree moves what is behind it into the parent. -/
lemma exists_secondCut_fsRoot (hcounter : h.counter < 2 ^ 64) (hroot : ¬ free ':' h.fsRoot) :
    ∃ h', SecondCut h h' := by
  obtain ⟨a, b, hab⟩ := exists_cut_of_not_free hroot
  refine ⟨{ h with
      fsRoot := a
      parent := some (String.join [b, ":", h.parent.getD "-"]) }, hcounter, rfl, rfl, ?_, ?_⟩
  · apply String.toList_inj.mp
    simp [DeviceHead.signedText, DeviceHead.preimage, String.join_cons, hab]
  · intro hsame
    exact join_ne_left (hab.symm.trans hsame.fsRoot)

/-- A parent that reads as the dash has another reading, and one with a colon moves what is before
it into the tree. -/
lemma exists_secondCut_parent (hcounter : h.counter < 2 ^ 64)
    (hparent : ¬ ∃ p, h.parent = some p ∧ p ≠ "-" ∧ free ':' p) : ∃ h', SecondCut h h' := by
  by_cases hdash : h.parent.getD "-" = "-"
  · obtain ⟨o, ho, hne⟩ := exists_other_reading hdash
    refine ⟨{ h with parent := o }, hcounter, rfl, rfl, ?_, fun hsame => hne hsame.parent⟩
    simp [DeviceHead.signedText, DeviceHead.preimage, ho]
  · cases hp : h.parent with
    | none =>
        rw [hp] at hdash
        exact absurd rfl hdash
    | some p =>
        rw [hp] at hdash
        obtain ⟨a, b, hab⟩ := exists_cut_of_not_free fun hfree => hparent ⟨p, hp, hdash, hfree⟩
        refine ⟨{ h with
            fsRoot := String.join [h.fsRoot, ":", a]
            parent := some b }, hcounter, rfl, rfl, ?_, ?_⟩
        · apply String.toList_inj.mp
          simp [DeviceHead.signedText, DeviceHead.preimage, String.join_cons, hp, hab]
        · intro hsame
          exact join_ne_left hsame.fsRoot.symm

/-- A base that reads as the dash has another reading, and one with a colon moves what is before it
into the parent. -/
lemma exists_secondCut_base (hcounter : h.counter < 2 ^ 64)
    (hbase : ¬ ∃ b, h.base = some b ∧ b ≠ "-" ∧ free ':' b) : ∃ h', SecondCut h h' := by
  by_cases hdash : h.base.getD "-" = "-"
  · obtain ⟨o, ho, hne⟩ := exists_other_reading hdash
    refine ⟨{ h with base := o }, hcounter, rfl, rfl, ?_, fun hsame => hne hsame.base⟩
    simp [DeviceHead.signedText, DeviceHead.preimage, ho]
  · cases hb : h.base with
    | none =>
        rw [hb] at hdash
        exact absurd rfl hdash
    | some p =>
        rw [hb] at hdash
        obtain ⟨a, b, hab⟩ := exists_cut_of_not_free fun hfree => hbase ⟨p, hb, hdash, hfree⟩
        refine ⟨{ h with
            parent := some (String.join [h.parent.getD "-", ":", a])
            base := some b }, hcounter, rfl, rfl, ?_, ?_⟩
        · apply String.toList_inj.mp
          simp [DeviceHead.signedText, DeviceHead.preimage, String.join_cons, hb, hab]
        · intro hsame
          exact join_ne_right (hab.symm.trans (Option.some.inj (hb.symm.trans hsame.base)))

/-- **A text with a second cut has another head.** -/
lemma exists_secondCut_of_not_oneCut (hcounter : h.counter < 2 ^ 64) (hcut : ¬ h.OneCut) :
    ∃ h', SecondCut h h' := by
  by_contra hnone
  refine hcut ⟨?_, ?_, ?_, ?_⟩
  · intro hdevice
    exact hnone (exists_secondCut_device hdevice)
  · by_contra hroot
    exact hnone (exists_secondCut_fsRoot hcounter hroot)
  · by_contra hparent
    exact hnone (exists_secondCut_parent hcounter hparent)
  · by_contra hbase
    exact hnone (exists_secondCut_base hcounter hbase)

/-- **What a head's signature binds.**  For a head that is accepted under a key whose signatures
verify for one message only: every head that is accepted under the same key and signature has the
same device, counter, tree, parent and base, if and only if its signed text has one cut. -/
theorem head_signature_binds_iff (hK : K.ReadsHeads) (hkey : SignsOnce C key)
    (hacc : DeviceHead.decodeVerified C K bytes key = .ok h) :
    (∀ bytes' h', DeviceHead.decodeVerified C K bytes' key = .ok h' →
        h'.signature = h.signature → SameSigned h h') ↔ h.OneCut := by
  obtain ⟨hdecode, hkind, hsig⟩ := decodeVerified_eq_ok_iff.mp hacc
  have hcounter := (hK h).mp ⟨bytes, hdecode⟩
  constructor
  · intro hall
    by_contra hcut
    obtain ⟨h', hcut'⟩ := exists_secondCut_of_not_oneCut hcounter hcut
    obtain ⟨bytes', hdecode'⟩ := (hK h').mpr hcut'.counter
    refine hcut'.differs (hall bytes' h' ?_ hcut'.signature)
    refine decodeVerified_eq_ok_iff.mpr ⟨hdecode', hcut'.kind.trans hkind, ?_⟩
    rw [hcut'.signedText, hcut'.signature]
    exact hsig
  · intro hcut bytes' h' hacc' hsame
    obtain ⟨hdecode', -, hsig'⟩ := decodeVerified_eq_ok_iff.mp hacc'
    rw [hsame] at hsig'
    exact sameSigned_of_signedText_eq hcut ((hK h').mp ⟨bytes', hdecode'⟩) (hkey _ _ _ hsig hsig')

end

/-! ### One tree, two readings of its base

A head of a device with its parent and its base, and one without a base, with the account's real
signatures. -/

/-- A head with a parent and a base. -/
def boundHead : DeviceHead where
  kind := deviceHeadKind
  deviceId := "dev-a"
  counter := 3
  fsRoot := "abababababababababababababababababababababababababababababababab"
  parent := some "cdcdcdcdcdcdcdcdcdcdcdcdcdcdcdcdcdcdcdcdcdcdcdcdcdcdcdcdcdcdcdcd"
  base := some "efefefefefefefefefefefefefefefefefefefefefefefefefefefefefefefef"
  signature := String.join [
    "a857f2e91676c82de9a7feb4b2661dbd5f0316fb45bbaa64fd85d2666f2207d5",
    "6df75f06f89537c7e4468fb3b89ea371a12df34d31eba6c8140c098c6575860a"]

/-- A head without a base. -/
def baselessHead : DeviceHead where
  kind := deviceHeadKind
  deviceId := "dev-a"
  counter := 3
  fsRoot := "abababababababababababababababababababababababababababababababab"
  parent := some "cdcdcdcdcdcdcdcdcdcdcdcdcdcdcdcdcdcdcdcdcdcdcdcdcdcdcdcdcdcdcdcd"
  base := none
  signature := String.join [
    "a3523716bc24dcd3cd28bcfcfa67a88a5781b185a5c91712cc2845753c4868df",
    "a56a4d9d29f7429d2037656e4aaa3eb0f090d2b4446320e355e2decf751b9d04"]

/-- The same head with the dash for its base. -/
def dashHead : DeviceHead := { baselessHead with base := some "-" }

/-- The account's signatures of the two texts. -/
def headSignatures : List (Bytes × Bytes) :=
  [boundHead, baselessHead].map fun h => (asBytes h.signedText, (hexDecode h.signature).getD [])

/-- Ed25519 on these texts. -/
def headCrypto : Crypto where
  sha256Hex := tabulatedHash []
  isPublicKey bytes := bytes = raceKey.toBytes
  verifyStrict key message sig := key = raceKey && headSignatures.lookup message = some sig

lemma signsOnce_headCrypto : SignsOnce headCrypto raceKey := by
  have hnodup : (headSignatures.map Prod.snd).Nodup := by decide +kernel
  intro m m' sig hm hm'
  rw [verifyMessage] at hm hm'
  cases hsig : hexDecode sig with
  | none =>
      rw [hsig] at hm
      cases hm
  | some b =>
      rw [hsig] at hm hm'
      simp only [headCrypto, decide_true, Bool.true_and, Bool.and_eq_true,
        decide_eq_true_eq] at hm hm'
      have hmem := mem_of_lookup_eq_some hm.2
      have hmem' := mem_of_lookup_eq_some hm'.2
      exact asBytes_injective (congrArg Prod.fst (List.inj_on_of_nodup_map hnodup hmem hmem' rfl))

instance countable_uint8 : Countable UInt8 :=
  Function.Injective.countable (f := UInt8.toNat) fun _ _ h => UInt8.toNat_inj.mp h

instance countable_string : Countable String := asBytes_injective.countable

instance : Countable DeviceHead := by
  refine Function.Injective.countable (f := fun h : DeviceHead =>
    (h.kind, h.deviceId, h.counter, h.fsRoot, h.parent, h.base, h.signature)) ?_
  intro h h' heq
  cases h
  cases h'
  simpa using heq

/-- The heads whose DAG-CBOR is used. -/
def sampleHeads : List DeviceHead := [boundHead, baselessHead, dashHead]

/-- The DAG-CBOR of these heads, and an injective rendering of every other head that no head's
DAG-CBOR begins like. -/
noncomputable def headBytes (h : DeviceHead) : Bytes :=
  if h ∈ sampleHeads then h.toCbor
  else List.replicate (Classical.choose (exists_injective_nat DeviceHead) h) 0

lemma headBytes_injective : Function.Injective headBytes := by
  have hcbor : ∀ h ∈ sampleHeads, ∀ n, h.toCbor ≠ List.replicate n 0 := by
    have hhead : ∀ h ∈ sampleHeads, h.toCbor.head? = some 167 := by decide +kernel
    intro h hh n heq
    have hfirst := hhead h hh
    rw [heq] at hfirst
    cases n with
    | zero => cases hfirst
    | succ n => exact absurd hfirst (by simp [List.replicate_succ])
  have hlisted : (sampleHeads.map DeviceHead.toCbor).Nodup := by decide +kernel
  intro h h' heq
  rw [headBytes, headBytes] at heq
  split_ifs at heq with hh hh' hh'
  · exact List.inj_on_of_nodup_map hlisted hh hh' heq
  · exact absurd heq (hcbor h hh _)
  · exact absurd heq.symm (hcbor h' hh' _)
  · have hlen := congrArg List.length heq
    rw [List.length_replicate, List.length_replicate] at hlen
    exact Classical.choose_spec (exists_injective_nat DeviceHead) hlen

open Classical in
/-- The codec that reads these bytes. -/
noncomputable def headCodec : Codec :=
  { dagCbor [] sampleHeads with
    decodeHead := fun bytes =>
      if h : ∃ head : DeviceHead, head.counter < 2 ^ 64 ∧ headBytes head = bytes then
        .ok (Classical.choose h)
      else .error "unexpected data" }

lemma headCodec_decode {h : DeviceHead} (hcounter : h.counter < 2 ^ 64) :
    headCodec.decodeHead (headBytes h) = .ok h := by
  have hex : ∃ head : DeviceHead, head.counter < 2 ^ 64 ∧ headBytes head = headBytes h :=
    ⟨h, hcounter, rfl⟩
  rw [headCodec]
  dsimp only
  rw [dif_pos hex, headBytes_injective (Classical.choose_spec hex).2]

lemma readsHeads_headCodec : headCodec.ReadsHeads := by
  intro h
  constructor
  · rintro ⟨bytes, hbytes⟩
    rw [headCodec] at hbytes
    dsimp only at hbytes
    split_ifs at hbytes with hex
    obtain rfl := Except.ok.inj hbytes
    exact (Classical.choose_spec hex).1
  · intro hcounter
    exact ⟨headBytes h, headCodec_decode hcounter⟩

/-- The bytes of a listed head decode and verify. -/
lemma headCodec_accepts {h : DeviceHead} (hh : h ∈ sampleHeads) :
    DeviceHead.decodeVerified headCrypto headCodec h.toCbor raceKey = .ok h := by
  have hall : ∀ x ∈ sampleHeads, x.counter < 2 ^ 64 ∧ x.kind = deviceHeadKind ∧
      verifyMessage headCrypto raceKey x.signedText x.signature = true := by decide +kernel
  obtain ⟨hcounter, hkind, hsig⟩ := hall h hh
  have hdecode := headCodec_decode hcounter
  rw [headBytes, if_pos hh] at hdecode
  exact decodeVerified_eq_ok_iff.mpr ⟨hdecode, hkind, hsig⟩

lemma boundHead_oneCut : boundHead.OneCut := by
  refine ⟨?_, ?_, ⟨_, rfl, ?_, ?_⟩, _, rfl, ?_, ?_⟩
  · rintro ⟨n, -, hmem⟩
    rw [pieces_of_free (by decide)] at hmem
    cases hmem
  · decide
  · decide
  · decide
  · decide
  · decide

/-- The head with a parent and a base is the only one under its signature. -/
theorem head_signature_binds_iff_bound :
    boundHead.OneCut ∧
      ∀ bytes' h', DeviceHead.decodeVerified headCrypto headCodec bytes' raceKey = .ok h' →
        h'.signature = boundHead.signature → SameSigned boundHead h' := by
  refine ⟨boundHead_oneCut, ?_⟩
  exact (head_signature_binds_iff readsHeads_headCodec signsOnce_headCrypto
    (headCodec_accepts (by decide))).mpr boundHead_oneCut

/-- The head without a base and the head with the dash for a base are accepted under one
signature. -/
theorem baseless_head_shares_signature :
    ¬ ∀ (C : Crypto) (K : Codec) (key : VerifyingKey), K.ReadsHeads → SignsOnce C key →
      ∀ bytes h bytes' h', DeviceHead.decodeVerified C K bytes key = .ok h →
        DeviceHead.decodeVerified C K bytes' key = .ok h' → h'.signature = h.signature →
        SameSigned h h' := by
  intro hall
  have hsame := hall headCrypto headCodec raceKey readsHeads_headCodec signsOnce_headCrypto _ _ _ _
    (headCodec_accepts (show baselessHead ∈ sampleHeads by decide))
    (headCodec_accepts (show dashHead ∈ sampleHeads by decide)) rfl
  exact absurd hsame.base (by decide)

end Ciss
