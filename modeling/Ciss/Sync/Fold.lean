import Ciss.Sync.Manifest
import Ciss.Framework.Firsts
import Mathlib.Data.List.Sort
import Mathlib.Data.String.Basic
import Std.Data.ExtTreeSet

/-!
# The fold

`fold` computes the current tree from every device's head and the last converged base, one path
at a time in path order: nobody changed it, it stays; one content was brought, it wins over
deletions; several contents were brought, the smallest entry digest keeps the path and every
other content is copied to `<path>.conflict-<device>`.

The first part follows the source loop by loop.  The second states what the loop decides at one
path as functions of the heads and the base alone (`edits`, `standings`, `kept`, `copies`), for
any digest, and `foldPath_tree` says that a round of the loop makes the writes of its decision
and no others.
-/

namespace Ciss

/-- `device_id → its tree`. -/
abbrev Heads := Std.ExtTreeMap String FsManifest compare

/-- One preserved conflict. -/
structure ConflictNote where
  path : String
  winner : String
  loser : String
  loserPath : String
  deriving DecidableEq, Repr

/-- The converged tree and the conflicts it preserves. -/
structure FoldOutcome where
  tree : FsManifest
  conflicts : List ConflictNote
  deriving DecidableEq

/-- The clock-free tiebreaker: a digest of an entry's content and metadata. -/
def entryDigest (C : Crypto) (K : Codec) (entry : FileEntry) : Except SyncError String := do
  let bytes ← (K.encodeEntry entry).mapError fun e => .encode ("entry digest: " ++ e)
  return C.sha256Hex bytes

/-- The entry at a path of the base, if there is a base. -/
def baseEntry (base : Option FsManifest) (path : String) : Option FileEntry :=
  base.bind (·.entries[path]?)

/-- Whether a head's entry is an edit, an addition or a deletion relative to the base's. -/
def isChanged : Option FileEntry → Option FileEntry → Bool
  | some b, some e => !sameContent b e
  | none, some _ => true
  | some _, none => true
  | none, none => false

/-- What the pass over the heads collects at one path. -/
structure Survey where
  changed : List (String × Option FileEntry)
  unchangedEntry : Option FileEntry

/-- One head of the pass. -/
def surveyHead (b : Option FileEntry) (path : String) (s : Survey) (device : String)
    (headTree : FsManifest) : Survey :=
  let entry := headTree.entries[path]?
  if isChanged b entry then { s with changed := s.changed ++ [(device, entry)] }
  else if entry.isSome then { s with unchangedEntry := entry }
  else s

/-- The pass over the heads, in device order. -/
def survey (heads : Heads) (b : Option FileEntry) (path : String) : Survey :=
  heads.foldl (surveyHead b path) ⟨[], b⟩

/-- The distinct changed contents, with the device that brought each first, and whether some
device deleted. -/
structure Proposals where
  edits : List (String × FileEntry)
  anyDelete : Bool

/-- One changed head. -/
def propose (s : Proposals) : String × Option FileEntry → Proposals
  | (device, some e) =>
      if s.edits.any fun kept => sameContent kept.2 e then s
      else { s with edits := s.edits ++ [(device, e)] }
  | (_, none) => { s with anyDelete := true }

/-- A contested entry with its digest and its device. -/
structure Standing where
  digest : String
  device : String
  entry : FileEntry
  deriving DecidableEq, Repr

/-- The order of the tiebreak: by digest, then by device. -/
def Standing.le (a b : Standing) : Prop :=
  a.digest < b.digest ∨ a.digest = b.digest ∧ a.device ≤ b.device

instance : DecidableRel Standing.le := fun a b =>
  inferInstanceAs (Decidable (a.digest < b.digest ∨ a.digest = b.digest ∧ a.device ≤ b.device))

/-- Rank one contested entry. -/
def rankEdit (C : Crypto) (K : Codec) (x : String × FileEntry) : Except SyncError Standing := do
  let digest ← entryDigest C K x.2
  return ⟨digest, x.1, x.2⟩

/-- Where a losing content is preserved. -/
def conflictPath (path device : String) : String := String.join [path, ".conflict-", device]

/-- Preserve one losing content. -/
def preserve (path winner : String) (out : FoldOutcome) (loser : Standing) : FoldOutcome :=
  let loserPath := conflictPath path loser.device
  { tree := out.tree.insert loserPath loser.entry
    conflicts := out.conflicts ++ [⟨path, winner, loser.device, loserPath⟩] }

/-- The body of the loop over the paths. -/
def foldPath (C : Crypto) (K : Codec) (heads : Heads) (base : Option FsManifest)
    (out : FoldOutcome) (path : String) : Except SyncError FoldOutcome :=
  let b := baseEntry base path
  let s := survey heads b path
  let d := s.changed.foldl propose ⟨[], false⟩
  match d.edits with
  | [] =>
      if d.anyDelete then .ok out
      else
        match s.unchangedEntry with
        | some e => .ok { out with tree := out.tree.insert path e }
        | none => .ok out
  | [(_, e)] => .ok { out with tree := out.tree.insert path e }
  | edits => do
      let ranked ← edits.mapM (rankEdit C K)
      match ranked.insertionSort Standing.le with
      | [] => return out
      | winner :: losers =>
          return losers.foldl (preserve path winner.device)
            { out with tree := out.tree.insert path winner.entry }

/-- Every path of a head or of the base, in order. -/
def foldPaths (heads : Heads) (base : Option FsManifest) : List String :=
  let paths := heads.foldl (fun (paths : Std.ExtTreeSet String compare) _ tree =>
    paths.insertMany tree.entries.keys) ∅
  let paths := match base with
    | some b => paths.insertMany b.entries.keys
    | none => paths
  paths.toList

/-- Fold the heads against the base into one tree. -/
def fold (C : Crypto) (K : Codec) (heads : Heads) (base : Option FsManifest) :
    Except SyncError FoldOutcome :=
  (foldPaths heads base).foldlM (foldPath C K heads base) ⟨FsManifest.new, []⟩

/-! ## What the loop decides at one path -/

section

variable (heads : Heads) (base : Option FsManifest) (p : String)

/-- What each device has at the path, in device order. -/
def holdings : List (String × Option FileEntry) :=
  heads.toList.map fun x => (x.1, x.2.entries[p]?)

/-- The devices that edited, added or deleted. -/
def changedAt : List (String × Option FileEntry) :=
  (holdings heads p).filter fun x => isChanged (baseEntry base p) x.2

/-- The contents brought to the path, in device order. -/
def broughtAt : List (String × FileEntry) :=
  (changedAt heads base p).filterMap fun x => x.2.map fun e => (x.1, e)

/-- The distinct contents among them, each under the first device that brings it. -/
def edits : List (String × FileEntry) :=
  firsts (fun x y => sameContent x.2 y.2) (broughtAt heads base p)

/-- Whether some device deleted the path. -/
def deletedAt : Bool := (changedAt heads base p).any fun x => x.2.isNone

/-- What stays when nobody changed the path: the last unchanged head's entry, else the base's. -/
def unchangedAt : Option FileEntry :=
  ((holdings heads p).findSomeRev? fun x =>
    if isChanged (baseEntry base p) x.2 then none else x.2).or (baseEntry base p)

variable (δ : FileEntry → String)

/-- The distinct contents in the order of the tiebreak. -/
def standings : List Standing :=
  ((edits heads base p).map fun x => (⟨δ x.2, x.1, x.2⟩ : Standing)).insertionSort Standing.le

/-- What the decision leaves at the path itself. -/
def kept : Option FileEntry :=
  match standings heads base p δ with
  | [] => if deletedAt heads base p then none else unchangedAt heads base p
  | winner :: _ => some winner.entry

/-- The losing contents, to be copied aside. -/
def copies : List Standing := (standings heads base p δ).tail

/-- What the decision reports: one note for each losing content. -/
def notesAt : List ConflictNote :=
  (standings heads base p δ).head?.elim [] fun winner =>
    (copies heads base p δ).map fun r => ⟨p, winner.device, r.device, conflictPath p r.device⟩

/-- Every write the decision makes, in order. -/
def writesAt : List (String × FileEntry) :=
  (kept heads base p δ).toList.map (fun e => (p, e)) ++
    (copies heads base p δ).map fun r => (conflictPath p r.device, r.entry)

end

/-- The digest of an entry that has one. -/
def digestOf (C : Crypto) (K : Codec) (e : FileEntry) : String :=
  match entryDigest C K e with
  | .ok d => d
  | .error _ => ""

section

variable {C : Crypto} {K : Codec} {heads : Heads} {base : Option FsManifest} {p q : String}
  {out out' : FoldOutcome} {δ : FileEntry → String}

/-! ### The loops compute these functions -/

lemma foldl_surveyHead (b : Option FileEntry) (l : List (String × FsManifest)) (s : Survey) :
    l.foldl (fun s x => surveyHead b p s x.1 x.2) s =
      ⟨s.changed ++ (l.map fun x => (x.1, x.2.entries[p]?)).filter fun x => isChanged b x.2,
        ((l.map fun x => (x.1, x.2.entries[p]?)).findSomeRev? fun x =>
          if isChanged b x.2 then none else x.2).or s.unchangedEntry⟩ := by
  induction l generalizing s with
  | nil => simp
  | cons x l ih =>
      rw [List.foldl_cons, ih, surveyHead]
      by_cases hc : isChanged b x.2.entries[p]? = true
      · simp [hc]
      · rw [Bool.not_eq_true] at hc
        cases he : x.2.entries[p]? with
        | none => simp [he] at hc ⊢; simp [hc]
        | some e => simp [he] at hc ⊢; simp [hc]

lemma survey_eq : survey heads (baseEntry base p) p =
    ⟨changedAt heads base p, unchangedAt heads base p⟩ := by
  rw [survey, Std.ExtTreeMap.foldl_eq_foldl_toList, foldl_surveyHead]
  simp [changedAt, unchangedAt, holdings]

lemma foldl_propose (l : List (String × Option FileEntry)) (s : Proposals) :
    l.foldl propose s =
      ⟨(l.filterMap fun x => x.2.map fun e => (x.1, e)).foldl
          (keepFirst fun x y => sameContent x.2 y.2) s.edits,
        s.anyDelete || l.any fun x => x.2.isNone⟩ := by
  induction l generalizing s with
  | nil => simp
  | cons x l ih =>
      obtain ⟨d, e⟩ := x
      rw [List.foldl_cons, ih]
      cases e with
      | none => simp [propose]
      | some e =>
          simp only [propose, keepFirst, Option.map_some, List.filterMap_cons, List.foldl_cons,
            List.any_cons, Option.isNone_some, Bool.false_or]
          split <;> simp

lemma proposals_eq : (changedAt heads base p).foldl propose ⟨[], false⟩ =
    ⟨edits heads base p, deletedAt heads base p⟩ := by
  rw [foldl_propose]
  simp [edits, firsts, broughtAt, deletedAt]

/-- The ranking of the contested entries, when every digest exists. -/
lemma mapM_standing {l : List (String × FileEntry)} {ranked : List Standing}
    (h : l.mapM (rankEdit C K) = .ok ranked) :
    ranked = l.map fun x => (⟨digestOf C K x.2, x.1, x.2⟩ : Standing) := by
  induction l generalizing ranked with
  | nil => simpa [pure, Except.pure] using h.symm
  | cons x l ih =>
      rw [List.mapM_cons, rankEdit] at h
      cases hd : entryDigest C K x.2 with
      | error e => simp [hd, bind, Except.bind] at h
      | ok digest =>
          simp only [hd, bind, Except.bind, pure, Except.pure] at h
          split at h
          · simp at h
          · rename_i tail htail
            have := ih htail
            simp only [Except.ok.injEq] at h
            rw [← h, this]
            simp [digestOf, hd]

end

section

variable {C : Crypto} {K : Codec} {heads : Heads} {base : Option FsManifest} {p q : String}
  {out out' : FoldOutcome} {δ : FileEntry → String}

lemma foldl_preserve (winner : String) (losers : List Standing) :
    losers.foldl (preserve p winner) out =
      ⟨⟨out.tree.kind, out.tree.entries.insertMany
        (losers.map fun r => (conflictPath p r.device, r.entry))⟩,
        out.conflicts ++ losers.map fun r => ⟨p, winner, r.device, conflictPath p r.device⟩⟩ := by
  induction losers generalizing out with
  | nil => simp
  | cons r losers ih =>
      rw [List.foldl_cons, ih]
      simp [preserve, FsManifest.insert, Std.ExtTreeMap.insertMany_list_eq_foldl]

/-- One round of the loop makes exactly the writes of its path, and reports its losers. -/
lemma foldPath_eq (h : foldPath C K heads base out p = .ok out') :
    out' = ⟨⟨out.tree.kind, out.tree.entries.insertMany (writesAt heads base p (digestOf C K))⟩,
      out.conflicts ++ notesAt heads base p (digestOf C K)⟩ := by
  rw [foldPath, survey_eq] at h
  simp only [proposals_eq] at h
  have hst : ∀ l, edits heads base p = l → standings heads base p (digestOf C K) =
      (l.map fun x => (⟨digestOf C K x.2, x.1, x.2⟩ : Standing)).insertionSort Standing.le :=
    fun l hl => by rw [standings, hl]
  split at h
  · rename_i hnil
    have hs := hst [] hnil
    simp only [List.map_nil, List.insertionSort_nil] at hs
    simp only [writesAt, notesAt, kept, copies, hs]
    split at h
    · rename_i hdel
      obtain rfl := Except.ok.inj h
      simp [hdel]
    · rename_i hdel
      split at h
      · rename_i e hun
        obtain rfl := Except.ok.inj h
        simp [hdel, hun, FsManifest.insert, Std.ExtTreeMap.insertMany_list_eq_foldl]
      · rename_i hun
        obtain rfl := Except.ok.inj h
        simp [hdel, hun]
  · rename_i d e hone
    have hs := hst [(d, e)] hone
    simp only [List.map_cons, List.map_nil, List.insertionSort_cons, List.insertionSort_nil,
      List.orderedInsert] at hs
    obtain rfl := Except.ok.inj h
    simp [writesAt, notesAt, kept, copies, hs, FsManifest.insert, Std.ExtTreeMap.insertMany_list_eq_foldl]
  · cases hr : (edits heads base p).mapM (rankEdit C K) with
    | error e =>
        rw [hr] at h
        simp [bind, Except.bind] at h
    | ok ranked =>
        have hs : standings heads base p (digestOf C K) = ranked.insertionSort Standing.le := by
          rw [standings, ← mapM_standing hr]
        rw [hr] at h
        simp only [bind, Except.bind, ← hs] at h
        split at h
        · rename_i hnil
          -- at least two contents are contested, so the ranking is not empty
          have hlen : (edits heads base p).length = 0 := by
            have := congrArg List.length hnil
            simpa [standings] using this
          simp_all
        · rename_i winner losers hcons
          obtain rfl := Except.ok.inj h
          rw [foldl_preserve]
          simp [writesAt, notesAt, kept, copies, hcons, FsManifest.insert,
            Std.ExtTreeMap.insertMany_list_eq_foldl]

end

end Ciss
