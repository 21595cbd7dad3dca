import Ciss.Framework.Lexical
import Ciss.Sync.ConvergeDisk
import Ciss.Sync.Footprint
import Ciss.Sync.ScanRestore

/-!
# Where files are written

Restore, converge and hydrate join a path to the directory and write there.  The path is a key of a
decoded manifest, or of a table that was filled from one, and the decoder looks at the kind of a
manifest and not at its paths: `..` leads out of the directory, and an absolute path replaces it.

Here the three flows are taken by the files they touch.  What the operating system answers to a
call is left open, so that what is said holds of every run on every disk.
`materialization_contained_iff` says which paths the containment hangs on: those whose temporary
file is created.  For these the directory that the joined path is in has to be the target, or to
lie below it, which every path of a scan meets (`parentWithin_of_normal`).
-/

namespace Ciss

open Location

/-! ## Paths of the operating system -/

/-- The component that a piece between slashes stands for. -/
def toComponent (c : List Char) : Option (Component (List Char)) :=
  if c = [] ∨ c = ['.'] then none else if c = ['.', '.'] then some .up else some (.into c)

/-- `Path::components`; a dot counts only at the start of a relative path. -/
def pathComponents (p : String) : List (Component (List Char)) :=
  (if p.toList.head? = some '/' then [.root]
    else if (components p).head? = some ['.'] then [.stay]
    else []) ++
  (components p).filterMap toComponent

/-- `Path::join`: an absolute path replaces the directory. -/
def join (dir path : String) : String :=
  if path.toList.head? = some '/' then path
  else if dir = "" ∨ dir.toList.getLast? = some '/' then dir ++ path
  else dir ++ ("/" ++ path)

/-- `Path::parent`. -/
def parent (p : String) : Option (List (Component (List Char))) :=
  match (pathComponents p).getLast? with
  | none => none
  | some .root => none
  | some _ => some (pathComponents p).dropLast

/-- `Path::file_name`. -/
def fileName (p : String) : Option (List Char) :=
  match (pathComponents p).getLast? with
  | some (.into name) => some name
  | _ => none

/-- The path does not end in a slash or in dots, which only a directory can. -/
def NamesFile (p : String) : Prop :=
  ∃ c, (components p).getLast? = some c ∧ toComponent c = some (.into c)

/-! ## The flows -/

/-- What the operating system answers to the calls that are made for a path joined to `dir`. -/
structure FileAnswers (dir : String) where
  /-- `exists`. -/
  taken : String → Bool
  createDirs : String → Bool
  write : String → Option WriteFault
  /-- The mode and the time of the temporary file can be set. -/
  metadata : String → Bool
  rename : String → Bool
  remove : String → Bool
  /-- No file is put in the place of a directory, and no directory is removed as a file. -/
  rename_names : ∀ p, rename p = true → NamesFile (join dir p)
  remove_names : ∀ p, remove p = true → NamesFile (join dir p)

/-- What is done to a file. -/
inductive FileEffect where
  /-- The file is created, or truncated. -/
  | write (path : List (Component (List Char)))
  | rename (source destination : List (Component (List Char)))
  | remove (path : List (Component (List Char)))
  deriving DecidableEq

/-- The paths that are touched. -/
def FileEffect.paths : FileEffect → List (List (Component (List Char)))
  | .write path => [path]
  | .rename source destination => [source, destination]
  | .remove path => [path]

/-- Every path lies below the directory. -/
def FileEffect.Inside (dir : String) (x : FileEffect) : Prop :=
  ∀ path ∈ x.paths, Below (locate (pathComponents dir)) (locate path)

instance (dir : String) (x : FileEffect) : Decidable (x.Inside dir) :=
  inferInstanceAs (Decidable (∀ path ∈ x.paths, Below (locate (pathComponents dir)) (locate path)))

variable {dir : String}

/-- `write_verified_file` at a joined path; says whether the file has landed. -/
def writeEffects (env : FileAnswers dir) (path : String) (entry : FileEntry) (content : Bytes) :
    List FileEffect × Bool :=
  if content.length ≠ entry.size then ([], false)
  else
    match parent (join dir path) with
    -- the expectation that a manifest's path is relative fails, and with it the process
    | none => ([], false)
    | some parent =>
        if ¬env.createDirs path then ([], false)
        else
          let name := (fileName (join dir path)).getD "file".toList
          let tmp := parent ++ [.into (".ciss-restore-".toList ++ name ++ ".tmp".toList)]
          match env.write path with
          | some .refused => ([], false)
          | some (.cut _) => ([.write tmp], false)
          | none =>
              if ¬env.metadata path then ([.write tmp], false)
              else if ¬env.rename path then ([.write tmp], false)
              else ([.write tmp, .rename tmp (pathComponents (join dir path))], true)

/-- Fetch and write one entry after the other; says whether all have landed. -/
def landEffects (env : FileAnswers dir) (fetch : FileEntry → Except SyncError Bytes)
    (skip : String × FileEntry → Bool) : List (String × FileEntry) → List FileEffect × Bool
  | [] => ([], true)
  | x :: rest =>
      if skip x then landEffects env fetch skip rest
      else
        match fetch x.2 with
        | .error _ => ([], false)
        | .ok content =>
            match writeEffects env x.1 x.2 content with
            | (effects, false) => (effects, false)
            | (effects, true) =>
                (effects ++ (landEffects env fetch skip rest).1, (landEffects env fetch skip rest).2)

/-- Remove what is not in the tree, up to the first file that cannot be removed. -/
def removeEffects (env : FileAnswers dir) (tree : Entries) : List String → List FileEffect
  | [] => []
  | path :: rest =>
      if tree.contains path then removeEffects env tree rest
      else if env.remove path then
        .remove (pathComponents (join dir path)) :: removeEffects env tree rest
      else []

/-- The manifest that a restore writes. -/
def restoreManifest (P : Platform) (s : SyncServer) (fsManifestCid : Option String) :
    Except SyncError FsManifest := do
  let found ← locateFsManifest P s fsManifestCid
  FsManifest.decode P.codec found.2

/-- `restore`. -/
def restoreEffects (P : Platform) (env : FileAnswers dir) (s : SyncServer)
    (fsManifestCid : Option String) : List FileEffect :=
  match restoreManifest P s fsManifestCid with
  | .error _ => []
  | .ok manifest =>
      (landEffects env (restoreContent P s) (fun _ => false) manifest.entries.toList).1

/-- The own tree of a device that converges, and the folded one. -/
def convergeTrees (P : Platform) (key : Keypair) (deviceId : String) (d : Device) (s : SyncServer) :
    Except SyncError (Entries × Entries) := do
  let frontier ← s.frontier.elim (.error (.decode "no frontier to converge with")) .ok
  let heads ← fetchHeads P key.verifyingKey s frontier.heads
  let base ← fetchBase P s d.base
  let outcome ← fold P.crypto P.codec heads base
  return ((heads[deviceId]?.getD FsManifest.new).entries, outcome.tree.entries)

/-- `converge`; the two publications touch no file of the directory. -/
def convergeEffects (P : Platform) (key : Keypair) (around : SyncEnv) (env : FileAnswers dir)
    (deviceId : String) (d : Device) (s : SyncServer) : List FileEffect :=
  match backupFrontier P key around.refuse around.fault deviceId d s with
  | (_, _, .error _) => []
  | (d, s, .ok _) =>
      match convergeTrees P key deviceId d s with
      | .error _ => []
      | .ok (mine, tree) =>
          match landEffects env (fetchContent P d s) (fun x => mine[x.1]? = some x.2) tree.toList with
          | (effects, false) => effects
          | (effects, true) => effects ++ removeEffects env tree mine.keys

/-- `hydrate`. -/
def hydrateEffects (P : Platform) (env : FileAnswers dir) (s : SyncServer) :
    List String → Device → List FileEffect
  | [], _ => []
  | path :: paths, d =>
      match d.placeholders[path]? with
      | none => []
      | some entry =>
          if env.taken path then []
          else
            match fetchContent P d s entry with
            | .error _ => []
            | .ok content =>
                match writeEffects env path entry content with
                | (effects, false) => effects
                | (effects, true) =>
                    effects ++ hydrateEffects P env s paths
                      { d with placeholders := d.placeholders.erase path }

/-! ## What containment hangs on -/

/-- The directory that the joined path is in is the target, or lies below it. -/
def ParentWithin (dir path : String) : Prop :=
  ∀ q, parent (join dir path) = some q → Within (locate (pathComponents dir)) (locate q)

/-- The temporary file of the entry is created. -/
def Opens (env : FileAnswers dir) (fetch : FileEntry → Except SyncError Bytes)
    (x : String × FileEntry) : Prop :=
  (∃ content, fetch x.2 = .ok content ∧ content.length = x.2.size) ∧
    env.createDirs x.1 = true ∧ env.write x.1 ≠ some .refused

/-- The entry is written to the end. -/
def Completes (env : FileAnswers dir) (fetch : FileEntry → Except SyncError Bytes)
    (x : String × FileEntry) : Prop :=
  (∃ content, fetch x.2 = .ok content ∧ content.length = x.2.size) ∧
    env.createDirs x.1 = true ∧ env.write x.1 = none ∧ env.metadata x.1 = true ∧
    env.rename x.1 = true

/-- A loop that stops at the first failure gets to `x`. -/
def GetsTo {α : Type} (ok : α → Prop) (l : List α) (x : α) : Prop :=
  ∃ before after, l = before ++ x :: after ∧ ∀ y ∈ before, ok y

/-- The flow gets to the entry: it is not skipped, and every entry before it is written. -/
def Reaches (env : FileAnswers dir) (fetch : FileEntry → Except SyncError Bytes)
    (skip : String × FileEntry → Bool) (l : List (String × FileEntry)) (x : String × FileEntry) :
    Prop :=
  skip x = false ∧ GetsTo (fun y => skip y = false → Completes env fetch y) l x

/-- The file is removed: it is not in the tree, and every file before it that is not has been
removed. -/
def Removes (env : FileAnswers dir) (tree : Entries) (l : List String) (path : String) : Prop :=
  (path ∉ tree ∧ env.remove path = true) ∧ GetsTo (fun q => q ∉ tree → env.remove q = true) l path

/-- The hydration gets to the path: it has a placeholder and stands for nothing on disk, and the
paths before it, which are others, are hydrated. -/
def Hydrates (P : Platform) (env : FileAnswers dir) (s : SyncServer) (d : Device) (l : List String)
    (path : String) (entry : FileEntry) : Prop :=
  ∃ before after, l = before ++ path :: after ∧ (before ++ [path]).Nodup ∧
    d.placeholders[path]? = some entry ∧ env.taken path = false ∧
    ∀ q ∈ before, env.taken q = false ∧
      ∃ e, d.placeholders[q]? = some e ∧ Completes env (fetchContent P d s) (q, e)

/-! ## One file -/

section

variable {env : FileAnswers dir} {path p : String} {entry : FileEntry} {content : Bytes}

lemma NamesFile.parent (h : NamesFile p) :
    ∃ q name, pathComponents p = q ++ [.into name] ∧ parent p = some q := by
  obtain ⟨c, hlast, hc⟩ := h
  obtain ⟨init, hinit⟩ := List.getLast?_eq_some_iff.1 hlast
  have hsplit : pathComponents p = ((if p.toList.head? = some '/' then [.root]
      else if (components p).head? = some ['.'] then [.stay] else []) ++
        init.filterMap toComponent) ++ [.into c] := by
    have hpieces :
        (components p).filterMap toComponent = init.filterMap toComponent ++ [.into c] := by
      rw [hinit, List.filterMap_append, List.filterMap_cons, hc]
      rfl
    rw [pathComponents, hpieces, List.append_assoc]
  refine ⟨_, c, hsplit, ?_⟩
  rw [Ciss.parent, hsplit, List.getLast?_concat, List.dropLast_concat]

/-- The file lands when nothing fails. -/
lemma writeEffects_completes : (writeEffects env path entry content).2 = true ↔
    content.length = entry.size ∧ env.createDirs path = true ∧ env.write path = none ∧
      env.metadata path = true ∧ env.rename path = true := by
  rw [writeEffects]
  by_cases hsize : content.length = entry.size
  swap
  · rw [if_pos hsize]
    exact iff_of_false (by simp) fun h => hsize h.1
  rw [if_neg (not_not.2 hsize)]
  rcases hparent : parent (join dir path) with _ | q
  · refine iff_of_false (by simp) fun h => ?_
    obtain ⟨q, name, -, hq⟩ := (env.rename_names path h.2.2.2.2).parent
    rw [hparent] at hq
    cases hq
  dsimp only
  by_cases hdirs : env.createDirs path = true
  swap
  · rw [if_pos hdirs]
    exact iff_of_false (by simp) fun h => hdirs h.2.1
  rw [if_neg (not_not.2 hdirs)]
  rcases env.write path with _ | _ | n
  · dsimp only
    by_cases hmeta : env.metadata path = true
    swap
    · rw [if_pos hmeta]
      exact iff_of_false (by simp) fun h => hmeta h.2.2.2.1
    rw [if_neg (not_not.2 hmeta)]
    by_cases hrename : env.rename path = true
    · rw [if_neg (not_not.2 hrename)]
      exact iff_of_true rfl ⟨hsize, hdirs, rfl, hmeta, hrename⟩
    · rw [if_pos hrename]
      exact iff_of_false (by simp) fun h => hrename h.2.2.2.2
  · exact iff_of_false (by simp) fun h => by cases h.2.2.1
  · exact iff_of_false (by simp) fun h => by cases h.2.2.1

/-- **One file.**  Once its temporary file is created, the directory of the joined path decides. -/
lemma writeEffects_inside : (∀ x ∈ (writeEffects env path entry content).1, x.Inside dir) ↔
    (content.length = entry.size → env.createDirs path = true → env.write path ≠ some .refused →
      ParentWithin dir path) := by
  rw [writeEffects]
  by_cases hsize : content.length = entry.size
  swap
  · rw [if_pos hsize]
    exact iff_of_true (by simp) fun h => absurd h hsize
  rw [if_neg (not_not.2 hsize)]
  rcases hparent : parent (join dir path) with _ | q
  · refine iff_of_true (by simp) fun _ _ _ q hq => ?_
    rw [hparent] at hq
    cases hq
  dsimp only
  by_cases hdirs : env.createDirs path = true
  swap
  · rw [if_pos hdirs]
    exact iff_of_true (by simp) fun _ h => absurd h hdirs
  rw [if_neg (not_not.2 hdirs)]
  -- the temporary file is in the directory of the path
  have htmp : ∀ name : List Char,
      (FileEffect.write (q ++ [.into (".ciss-restore-".toList ++ name ++ ".tmp".toList)])).Inside dir ↔
        ParentWithin dir path := by
    intro name
    rw [FileEffect.Inside, FileEffect.paths, List.forall_mem_singleton, below_snoc_iff,
      ParentWithin, hparent]
    constructor
    · intro h r hr
      obtain rfl := Option.some.inj hr
      exact h
    · exact fun h => h q rfl
  rcases hwrite : env.write path with _ | _ | n
  · dsimp only
    by_cases hmeta : env.metadata path = true
    swap
    · rw [if_pos hmeta, List.forall_mem_singleton, htmp]
      exact ⟨fun h _ _ _ => h, fun h => h hsize hdirs (by simp)⟩
    rw [if_neg (not_not.2 hmeta)]
    by_cases hrename : env.rename path = true
    swap
    · rw [if_pos hrename, List.forall_mem_singleton, htmp]
      exact ⟨fun h _ _ _ => h, fun h => h hsize hdirs (by simp)⟩
    rw [if_neg (not_not.2 hrename)]
    constructor
    · intro h _ _ _
      exact (htmp _).1 (h _ List.mem_cons_self)
    · intro h x hx
      have hwithin := h hsize hdirs (by simp)
      have hbelow := (htmp ((fileName (join dir path)).getD "file".toList)).2 hwithin
      rcases List.mem_cons.1 hx with rfl | hx
      · exact hbelow
      obtain rfl := List.mem_singleton.1 hx
      intro r hr
      rcases List.mem_cons.1 hr with rfl | hr
      · exact hbelow _ List.mem_cons_self
      obtain rfl := List.mem_singleton.1 hr
      obtain ⟨q', name, hq', hp'⟩ := (env.rename_names path hrename).parent
      rw [hq', below_snoc_iff]
      exact hwithin q' hp'
  · exact iff_of_true (by simp) fun _ _ h => absurd rfl h
  · dsimp only
    rw [List.forall_mem_singleton, htmp]
    exact ⟨fun h _ _ _ => h, fun h => h hsize hdirs (by simp)⟩

end

/-! ## One file after the other -/

section

variable {P : Platform} {env : FileAnswers dir} {fetch : FileEntry → Except SyncError Bytes}
  {skip : String × FileEntry → Bool} {l : List (String × FileEntry)} {x y : String × FileEntry}
  {tree : Entries} {paths : List String} {p q : String} {d : Device} {s : SyncServer}
  {entry : FileEntry}

lemma not_getsTo_nil {α : Type} {ok : α → Prop} {x : α} : ¬GetsTo ok [] x := by
  rintro ⟨before, after, h, -⟩
  simp at h

lemma getsTo_cons {α : Type} {ok : α → Prop} {l : List α} {x y : α} :
    GetsTo ok (y :: l) x ↔ x = y ∨ ok y ∧ GetsTo ok l x := by
  constructor
  · rintro ⟨before, after, h, hok⟩
    rcases before with _ | ⟨z, before⟩
    · exact Or.inl (List.cons.inj h).1.symm
    · obtain ⟨rfl, hl⟩ := List.cons.inj h
      exact Or.inr ⟨hok y List.mem_cons_self, before, after, hl,
        fun z hz => hok z (List.mem_cons_of_mem _ hz)⟩
  · rintro (rfl | ⟨hy, before, after, rfl, hok⟩)
    · exact ⟨[], l, rfl, by simp⟩
    · refine ⟨y :: before, after, rfl, fun z hz => ?_⟩
      rcases List.mem_cons.1 hz with rfl | hz
      · exact hy
      · exact hok z hz

/-- The write of an entry, by what is fetched for it. -/
lemma writeEffects_of_fetch (env : FileAnswers dir) {content : Bytes}
    (hfetch : fetch x.2 = .ok content) :
    ((writeEffects env x.1 x.2 content).2 = true ↔ Completes env fetch x) ∧
      ((∀ z ∈ (writeEffects env x.1 x.2 content).1, z.Inside dir) ↔
        (Opens env fetch x → ParentWithin dir x.1)) := by
  have hcontent : (∃ c, fetch x.2 = .ok c ∧ c.length = x.2.size) ↔ content.length = x.2.size := by
    rw [hfetch]
    constructor
    · rintro ⟨c, hc, hn⟩
      obtain rfl := Except.ok.inj hc
      exact hn
    · exact fun hn => ⟨content, rfl, hn⟩
  rw [writeEffects_completes, writeEffects_inside, Completes, Opens, hcontent]
  refine ⟨Iff.rfl, ?_⟩
  rw [and_imp, and_imp]

lemma landEffects_completes (env : FileAnswers dir) (fetch : FileEntry → Except SyncError Bytes)
    (skip : String × FileEntry → Bool) (l : List (String × FileEntry)) :
    (landEffects env fetch skip l).2 = true ↔
      ∀ x ∈ l, skip x = false → Completes env fetch x := by
  induction l with
  | nil => exact iff_of_true rfl (by simp)
  | cons x l ih =>
      rw [landEffects, List.forall_mem_cons]
      by_cases hskip : skip x = true
      · rw [if_pos hskip, ih, and_iff_right]
        intro h
        rw [hskip] at h
        cases h
      rw [if_neg hskip]
      have hfalse : skip x = false := by simpa using hskip
      rcases hfetch : fetch x.2 with e | content
      · refine iff_of_false (by simp) fun h => ?_
        obtain ⟨⟨content, hc, -⟩, -⟩ := h.1 hfalse
        rw [hfetch] at hc
        cases hc
      dsimp only
      have hone := (writeEffects_of_fetch env hfetch).1
      rcases hw : writeEffects env x.1 x.2 content with ⟨effects, _ | _⟩
      · rw [hw] at hone
        exact iff_of_false (by simp) fun h => by cases hone.2 (h.1 hfalse)
      · rw [hw] at hone
        dsimp only
        rw [ih, and_iff_right fun _ => hone.1 rfl]

/-- **The entries of a flow.** -/
lemma landEffects_inside (env : FileAnswers dir) (fetch : FileEntry → Except SyncError Bytes)
    (skip : String × FileEntry → Bool) (l : List (String × FileEntry)) :
    (∀ x ∈ (landEffects env fetch skip l).1, x.Inside dir) ↔
      ∀ x, Reaches env fetch skip l x → Opens env fetch x → ParentWithin dir x.1 := by
  induction l with
  | nil => exact iff_of_true (by simp [landEffects]) fun x h => absurd h.2 not_getsTo_nil
  | cons y l ih =>
      rw [landEffects]
      by_cases hskip : skip y = true
      · rw [if_pos hskip, ih]
        refine forall_congr' fun x => ?_
        have hreach : Reaches env fetch skip (y :: l) x ↔ Reaches env fetch skip l x := by
          rw [Reaches, Reaches, getsTo_cons]
          constructor
          · rintro ⟨hx, rfl | ⟨-, hrest⟩⟩
            · rw [hskip] at hx
              cases hx
            · exact ⟨hx, hrest⟩
          · rintro ⟨hx, hrest⟩
            refine ⟨hx, Or.inr ⟨fun h => ?_, hrest⟩⟩
            rw [hskip] at h
            cases h
        rw [hreach]
      rw [if_neg hskip]
      have hfalse : skip y = false := by simpa using hskip
      -- the flow gets to the first entry, and to another when that one is written
      have hreach : ∀ x, Reaches env fetch skip (y :: l) x ↔
          x = y ∨ Completes env fetch y ∧ Reaches env fetch skip l x := by
        intro x
        rw [Reaches, Reaches, getsTo_cons]
        constructor
        · rintro ⟨hx, rfl | ⟨hy, hrest⟩⟩
          · exact Or.inl rfl
          · exact Or.inr ⟨hy hfalse, hx, hrest⟩
        · rintro (rfl | ⟨hy, hx, hrest⟩)
          · exact ⟨hfalse, Or.inl rfl⟩
          · exact ⟨hx, Or.inr ⟨fun _ => hy, hrest⟩⟩
      rcases hfetch : fetch y.2 with e | content
      · refine iff_of_true (by simp) fun x hx hopens => ?_
        rcases (hreach x).1 hx with rfl | ⟨hy, -⟩
        · obtain ⟨⟨content, hc, -⟩, -⟩ := hopens
          rw [hfetch] at hc
          cases hc
        · obtain ⟨⟨content, hc, -⟩, -⟩ := hy
          rw [hfetch] at hc
          cases hc
      dsimp only
      obtain ⟨hdone, hone⟩ := writeEffects_of_fetch env hfetch
      rcases hw : writeEffects env y.1 y.2 content with ⟨effects, _ | _⟩
      · rw [hw] at hone hdone
        dsimp only at hone ⊢
        rw [hone]
        constructor
        · intro h x hx hopens
          rcases (hreach x).1 hx with rfl | ⟨hy, -⟩
          · exact h hopens
          · cases hdone.2 hy
        · exact fun h => h y ((hreach y).2 (Or.inl rfl))
      · rw [hw] at hone hdone
        dsimp only at hone ⊢
        rw [List.forall_mem_append, hone, ih]
        constructor
        · rintro ⟨hy, hrest⟩ x hx hopens
          rcases (hreach x).1 hx with rfl | ⟨-, hx⟩
          · exact hy hopens
          · exact hrest x hx hopens
        · exact fun h => ⟨h y ((hreach y).2 (Or.inl rfl)),
            fun x hx => h x ((hreach x).2 (Or.inr ⟨hdone.1 rfl, hx⟩))⟩

/-- **The removals.** -/
lemma removeEffects_inside (env : FileAnswers dir) (tree : Entries) (paths : List String) :
    (∀ x ∈ removeEffects env tree paths, x.Inside dir) ↔
      ∀ p, Removes env tree paths p → ParentWithin dir p := by
  induction paths with
  | nil => exact iff_of_true (by simp [removeEffects]) fun p h => absurd h.2 not_getsTo_nil
  | cons q paths ih =>
      rw [removeEffects]
      by_cases hin : q ∈ tree
      · rw [if_pos (Std.ExtTreeMap.mem_iff_contains.1 hin), ih]
        refine forall_congr' fun p => ?_
        have hremoves : Removes env tree (q :: paths) p ↔ Removes env tree paths p := by
          rw [Removes, Removes, getsTo_cons]
          constructor
          · rintro ⟨hp, rfl | ⟨-, hrest⟩⟩
            · exact absurd hin hp.1
            · exact ⟨hp, hrest⟩
          · rintro ⟨hp, hrest⟩
            exact ⟨hp, Or.inr ⟨fun h => absurd hin h, hrest⟩⟩
        rw [hremoves]
      rw [if_neg fun h => hin (Std.ExtTreeMap.mem_iff_contains.2 h)]
      have hremoves : ∀ p, Removes env tree (q :: paths) p ↔
          env.remove q = true ∧ (p = q ∨ Removes env tree paths p) := by
        intro p
        rw [Removes, Removes, getsTo_cons]
        constructor
        · rintro ⟨hp, rfl | ⟨hq, hrest⟩⟩
          · exact ⟨hp.2, Or.inl rfl⟩
          · exact ⟨hq hin, Or.inr ⟨hp, hrest⟩⟩
        · rintro ⟨hq, rfl | ⟨hp, hrest⟩⟩
          · exact ⟨⟨hin, hq⟩, Or.inl rfl⟩
          · exact ⟨hp, Or.inr ⟨fun _ => hq, hrest⟩⟩
      by_cases hremove : env.remove q = true
      swap
      · rw [if_neg hremove]
        exact iff_of_true (by simp) fun p hp => absurd ((hremoves p).1 hp).1 hremove
      rw [if_pos hremove, List.forall_mem_cons, ih]
      -- what is removed has a name, and lies in the directory of its path
      have hone : (FileEffect.remove (pathComponents (join dir q))).Inside dir ↔
          ParentWithin dir q := by
        obtain ⟨r, name, hr, hparent⟩ := (env.remove_names q hremove).parent
        rw [FileEffect.Inside, FileEffect.paths, List.forall_mem_singleton, hr, below_snoc_iff,
          ParentWithin, hparent]
        constructor
        · intro h r' hr'
          obtain rfl := Option.some.inj hr'
          exact h
        · exact fun h => h r rfl
      rw [hone]
      constructor
      · rintro ⟨hq, hrest⟩ p hp
        rcases ((hremoves p).1 hp).2 with rfl | hp
        · exact hq
        · exact hrest p hp
      · exact fun h => ⟨h q ((hremoves q).2 ⟨hremove, Or.inl rfl⟩),
          fun p hp => h p ((hremoves p).2 ⟨hremove, Or.inr hp⟩)⟩

lemma hydrates_cons : Hydrates P env s d (q :: paths) p entry ↔
    p = q ∧ d.placeholders[p]? = some entry ∧ env.taken p = false ∨
      (env.taken q = false ∧
        ∃ e, d.placeholders[q]? = some e ∧ Completes env (fetchContent P d s) (q, e)) ∧
      Hydrates P env s { d with placeholders := d.placeholders.erase q } paths p entry := by
  have herase : ∀ r : String, (d.placeholders.erase q)[r]? =
      if q = r then none else d.placeholders[r]? := by
    intro r
    rw [Std.ExtTreeMap.getElem?_erase]
    simp only [Std.LawfulEqCmp.compare_eq_iff_eq]
  constructor
  · rintro ⟨before, after, h, hnodup, hp, htaken, hbefore⟩
    rcases before with _ | ⟨r, before⟩
    · exact Or.inl ⟨(List.cons.inj h).1.symm, hp, htaken⟩
    · obtain ⟨rfl, hl⟩ := List.cons.inj h
      rw [List.cons_append, List.nodup_cons] at hnodup
      have hne : ∀ r ∈ before ++ [p], q ≠ r := fun r hr heq => hnodup.1 (heq ▸ hr)
      refine Or.inr ⟨hbefore q List.mem_cons_self, before, after, hl, hnodup.2, ?_, htaken, ?_⟩
      · exact (herase p).trans ((if_neg (hne p (by simp))).trans hp)
      · intro r hr
        obtain ⟨ht, e, he, hc⟩ := hbefore r (List.mem_cons_of_mem _ hr)
        exact ⟨ht, e, (herase r).trans ((if_neg (hne r (by simp [hr]))).trans he), hc⟩
  · rintro (⟨rfl, hp, htaken⟩ | ⟨hq, before, after, rfl, hnodup, hp, htaken, hbefore⟩)
    · exact ⟨[], paths, rfl, by simp, hp, htaken, by simp⟩
    · have hold : ∀ (r : String) e, (d.placeholders.erase q)[r]? = some e →
          q ≠ r ∧ d.placeholders[r]? = some e := by
        intro r e he
        rw [herase] at he
        split at he
        · cases he
        · rename_i hne
          exact ⟨hne, he⟩
      refine ⟨q :: before, after, rfl, ?_, (hold p entry hp).2, htaken, ?_⟩
      · rw [List.cons_append, List.nodup_cons]
        refine ⟨fun hmem => ?_, hnodup⟩
        rcases List.mem_append.1 hmem with hmem | hmem
        · obtain ⟨-, e, he, -⟩ := hbefore q hmem
          exact (hold q e he).1 rfl
        · obtain rfl := List.mem_singleton.1 hmem
          exact (hold q entry hp).1 rfl
      · intro r hr
        rcases List.mem_cons.1 hr with rfl | hr
        · exact hq
        · obtain ⟨ht, e, he, hc⟩ := hbefore r hr
          exact ⟨ht, e, (hold r e he).2, hc⟩

/-- **The placeholders.** -/
lemma hydrateEffects_inside : (∀ x ∈ hydrateEffects P env s paths d, x.Inside dir) ↔
    ∀ p entry, Hydrates P env s d paths p entry → Opens env (fetchContent P d s) (p, entry) →
      ParentWithin dir p := by
  induction paths generalizing d with
  | nil =>
      refine iff_of_true (by simp [hydrateEffects]) ?_
      rintro p entry ⟨before, after, h, -⟩
      simp at h
  | cons q paths ih =>
      rw [hydrateEffects]
      rcases he : d.placeholders[q]? with _ | entry
      · refine iff_of_true (by simp) fun p e hp => ?_
        rcases hydrates_cons.1 hp with ⟨rfl, hq, -⟩ | ⟨⟨-, e, hq, -⟩, -⟩
        · rw [he] at hq
          cases hq
        · rw [he] at hq
          cases hq
      dsimp only
      by_cases htaken : env.taken q = true
      · rw [if_pos htaken]
        refine iff_of_true (by simp) fun p e hp => ?_
        rcases hydrates_cons.1 hp with ⟨rfl, -, ht⟩ | ⟨⟨ht, -⟩, -⟩
        · rw [htaken] at ht
          cases ht
        · rw [htaken] at ht
          cases ht
      rw [if_neg htaken]
      have hfree : env.taken q = false := by simpa using htaken
      have hreach : ∀ p e, Hydrates P env s d (q :: paths) p e ↔
          p = q ∧ e = entry ∨ Completes env (fetchContent P d s) (q, entry) ∧
            Hydrates P env s { d with placeholders := d.placeholders.erase q } paths p e := by
        intro p e
        rw [hydrates_cons]
        constructor
        · rintro (⟨rfl, hp, -⟩ | ⟨⟨-, e', hq, hc⟩, hrest⟩)
          · exact Or.inl ⟨rfl, Option.some.inj (hp.symm.trans he)⟩
          · obtain rfl := Option.some.inj (hq.symm.trans he)
            exact Or.inr ⟨hc, hrest⟩
        · rintro (⟨rfl, rfl⟩ | ⟨hc, hrest⟩)
          · exact Or.inl ⟨rfl, he, hfree⟩
          · exact Or.inr ⟨⟨hfree, entry, he, hc⟩, hrest⟩
      rcases hfetch : fetchContent P d s entry with e | content
      · refine iff_of_true (by simp) fun p e hp hopens => ?_
        rcases (hreach p e).1 hp with ⟨rfl, rfl⟩ | ⟨hc, -⟩
        · obtain ⟨⟨content, hc, -⟩, -⟩ := hopens
          rw [hfetch] at hc
          cases hc
        · obtain ⟨⟨content, hc, -⟩, -⟩ := hc
          rw [hfetch] at hc
          cases hc
      dsimp only
      obtain ⟨hdone, hone⟩ := writeEffects_of_fetch env (x := (q, entry)) hfetch
      dsimp only at hdone hone
      rcases hw : writeEffects env q entry content with ⟨effects, _ | _⟩
      · rw [hw] at hone hdone
        dsimp only at hone ⊢
        rw [hone]
        constructor
        · intro h p e hp hopens
          rcases (hreach p e).1 hp with ⟨rfl, rfl⟩ | ⟨hc, -⟩
          · exact h hopens
          · cases hdone.2 hc
        · exact fun h => h q entry ((hreach q entry).2 (Or.inl ⟨rfl, rfl⟩))
      · rw [hw] at hone hdone
        dsimp only at hone ⊢
        rw [List.forall_mem_append, hone, ih]
        constructor
        · rintro ⟨hq, hrest⟩ p e hp hopens
          rcases (hreach p e).1 hp with ⟨rfl, rfl⟩ | ⟨-, hp⟩
          · exact hq hopens
          · exact hrest p e hp hopens
        · exact fun h => ⟨h q entry ((hreach q entry).2 (Or.inl ⟨rfl, rfl⟩)),
            fun p e hp => h p e ((hreach p e).2 (Or.inr ⟨hdone.1 rfl, hp⟩))⟩

end

/-! ## Paths of a scan -/

section

variable {path : String} {x y : List Char}

lemma pathComponents_slash (x y : List Char) :
    pathComponents (String.ofList (x ++ '/' :: y)) =
      pathComponents (String.ofList (x ++ ['/'])) ++ (y.splitOn '/').filterMap toComponent := by
  have hpieces : ∀ z : List Char, components (String.ofList (x ++ '/' :: z)) =
      x.splitOn '/' ++ z.splitOn '/' := by
    intro z
    rw [components, String.toList_ofList, List.splitOn_append_cons_self]
  have hempty : ([] : List Char).splitOn '/' = [[]] := List.splitOn_nil _
  have hhead : (x ++ '/' :: y).head? = (x ++ ['/']).head? := by
    cases x <;> rfl
  have hfirst : (x.splitOn '/' ++ y.splitOn '/').head? = (x.splitOn '/' ++ [[]]).head? := by
    rcases hx : x.splitOn '/' with _ | ⟨c, l⟩
    · exact absurd hx (List.splitOn_ne_nil _ _)
    · rfl
  simp only [pathComponents, hpieces, hempty, String.toList_ofList, hhead, hfirst,
    List.filterMap_append, List.append_assoc]
  rfl

lemma pathComponents_snoc_slash (hx : x ≠ []) :
    pathComponents (String.ofList (x ++ ['/'])) = pathComponents (String.ofList x) := by
  have hpieces : components (String.ofList (x ++ ['/'])) = x.splitOn '/' ++ [[]] := by
    rw [components, String.toList_ofList, List.splitOn_append_cons_self, List.splitOn_nil]
  have hold : components (String.ofList x) = x.splitOn '/' := by
    rw [components, String.toList_ofList]
  have hhead : (x ++ ['/']).head? = x.head? := by
    cases x
    · exact absurd rfl hx
    · rfl
  have hfirst : (x.splitOn '/' ++ [[]]).head? = (x.splitOn '/').head? := by
    rcases hs : x.splitOn '/' with _ | ⟨c, l⟩
    · exact absurd hs (List.splitOn_ne_nil _ _)
    · rfl
  have hlast : ([[]] : List (List Char)).filterMap toComponent = [] := rfl
  simp only [pathComponents, hpieces, hold, String.toList_ofList, hhead, hfirst,
    List.filterMap_append, hlast, List.append_nil]

lemma NormalPath.toComponent {c : List Char} (h : NormalPath path) (hc : c ∈ components path) :
    toComponent c = some (.into c) := by
  obtain ⟨hne, hdot, hup, -⟩ := h c hc
  rw [Ciss.toComponent, if_neg (not_or.2 ⟨hne, hdot⟩), if_neg hup]

/-- The path of a scan, joined to the directory, leads down its names. -/
lemma pathComponents_join (dir : String) (h : NormalPath path) :
    pathComponents (join dir path) = pathComponents dir ++ (components path).map .into := by
  have hpieces : (components path).filterMap toComponent = (components path).map .into := by
    rw [← List.filterMap_eq_map]
    exact List.filterMap_congr fun c hc => h.toComponent hc
  have hrelative : path.toList.head? ≠ some '/' := by
    intro hhead
    obtain ⟨rest, hrest⟩ := List.head?_eq_some_iff.1 hhead
    have hmem : [] ∈ components path := by
      rw [components, hrest, ← List.nil_append ('/' :: rest), List.splitOn_append_cons_self,
        List.splitOn_nil]
      exact List.mem_cons_self
    exact (h [] hmem).1 rfl
  have hslash : ∀ x : List Char, pathComponents (String.ofList (x ++ '/' :: path.toList)) =
      pathComponents (String.ofList (x ++ ['/'])) ++ (components path).map .into := by
    intro x
    rw [pathComponents_slash, ← hpieces]
    rfl
  rw [join, if_neg hrelative]
  by_cases hempty : dir = ""
  · rw [if_pos (Or.inl hempty), hempty, String.empty_append, pathComponents, if_neg hrelative,
      hpieces, if_neg]
    · rfl
    · intro hfirst
      obtain ⟨l, hl⟩ := List.head?_eq_some_iff.1 hfirst
      exact (h ['.'] (by rw [hl]; exact List.mem_cons_self)).2.1 rfl
  by_cases hend : dir.toList.getLast? = some '/'
  · rw [if_pos (Or.inr hend)]
    obtain ⟨x, hx⟩ := List.getLast?_eq_some_iff.1 hend
    have hdir : dir = String.ofList (x ++ ['/']) := by rw [← hx, String.ofList_toList]
    have hjoin : dir ++ path = String.ofList (x ++ '/' :: path.toList) := by
      rw [← String.toList_inj, String.toList_append, hx, String.toList_ofList, List.append_assoc]
      rfl
    rw [hjoin, hslash, ← hdir]
  · rw [if_neg (not_or.2 ⟨hempty, hend⟩)]
    have hjoin : dir ++ ("/" ++ path) = String.ofList (dir.toList ++ '/' :: path.toList) := by
      rw [← String.toList_inj]
      simp
    have hne : dir.toList ≠ [] := fun h => hempty (String.toList_inj.1 h)
    rw [hjoin, hslash, pathComponents_snoc_slash hne, String.ofList_toList]

/-- The path of a scan has a directory that its names lead to, and a name. -/
lemma parent_join (dir : String) (h : NormalPath path) : ∃ init name,
    components path = init ++ [name] ∧
      parent (join dir path) = some (pathComponents dir ++ init.map .into) ∧
      fileName (join dir path) = some name := by
  rcases List.eq_nil_or_concat (components path) with hnil | ⟨init, name, hsplit⟩
  · exact absurd hnil (List.splitOn_ne_nil _ _)
  rw [List.concat_eq_append] at hsplit
  have hjoin : pathComponents (join dir path) =
      (pathComponents dir ++ init.map .into) ++ [.into name] := by
    rw [pathComponents_join dir h, hsplit, List.map_append, List.append_assoc]
    rfl
  refine ⟨init, name, hsplit, ?_, ?_⟩
  · rw [parent, hjoin, List.getLast?_concat, List.dropLast_concat]
  · rw [fileName, hjoin, List.getLast?_concat]

/-- **Every path of a scan stays inside.** -/
lemma parentWithin_of_normal (dir : String) (h : NormalPath path) : ParentWithin dir path := by
  intro q hq
  obtain ⟨init, name, -, hparent, -⟩ := parent_join dir h
  obtain rfl := Option.some.inj (hparent.symm.trans hq)
  exact within_locate_names

/-- The temporary file is the one of `tmpPath`. -/
lemma tmp_of_normal (dir : String) (h : NormalPath path) : ∃ q name,
    parent (join dir path) = some q ∧ fileName (join dir path) = some name ∧
      pathComponents (join dir (tmpPath path)) =
        q ++ [.into (".ciss-restore-".toList ++ name ++ ".tmp".toList)] := by
  obtain ⟨init, name, hsplit, hparent, hname⟩ := parent_join dir h
  obtain ⟨front, last, hpath, hfree, htmp, hfront⟩ := tmpPath_split path
  -- the pieces of the path and of the temporary name differ in the last one
  obtain ⟨start, hstart⟩ : ∃ start, ∀ s : String, free '/' s →
      components (front ++ s) = start ++ [s.toList] := by
    rcases List.eq_nil_or_concat front.toList with hnil | ⟨x, c, hx⟩
    · refine ⟨[], fun s hs => ?_⟩
      rw [components, String.toList_append, hnil, List.nil_append, List.nil_append]
      exact List.splitOn_eq_singleton hs
    · rw [List.concat_eq_append] at hx
      obtain rfl : c = '/' := hfront c (by rw [hx, List.getLast?_concat]; exact rfl)
      refine ⟨x.splitOn '/', fun s hs => ?_⟩
      rw [components, String.toList_append, hx, List.append_assoc, List.singleton_append,
        List.splitOn_append_cons_self, List.splitOn_eq_singleton hs]
  have hends : free '/' (".ciss-restore-" ++ last ++ ".tmp") := by
    rw [free_append, free_append]
    exact ⟨⟨by decide, hfree⟩, by decide⟩
  have hold : components path = start ++ [last.toList] := by
    rw [hpath]
    exact hstart last hfree
  obtain ⟨rfl, hlast⟩ := List.append_inj' (hsplit.symm.trans hold) rfl
  obtain rfl : name = last.toList := List.singleton_inj.1 hlast
  have hnew : components (tmpPath path) =
      init ++ [".ciss-restore-".toList ++ last.toList ++ ".tmp".toList] := by
    rw [htmp, hstart _ hends, String.toList_append, String.toList_append]
  have hnormal : NormalPath (tmpPath path) := by
    intro c hc
    rw [hnew] at hc
    rcases List.mem_append.1 hc with hc | hc
    · exact h c (by rw [hsplit]; exact List.mem_append_left _ hc)
    · obtain rfl := List.mem_singleton.1 hc
      have hzero := (h last.toList (by rw [hsplit]; simp)).2.2.2
      have hlen : (".ciss-restore-".toList ++ last.toList ++ ".tmp".toList).length ≥ 18 := by
        have h14 : (".ciss-restore-" : String).toList.length = 14 := by decide
        have h4 : (".tmp" : String).toList.length = 4 := by decide
        simp only [List.length_append]
        omega
      have hshort : ∀ l : List Char, l.length < 18 →
          ".ciss-restore-".toList ++ last.toList ++ ".tmp".toList ≠ l := by
        rintro l hl rfl
        omega
      refine ⟨hshort _ (by decide), hshort _ (by decide), hshort _ (by decide), ?_⟩
      rw [List.mem_append, List.mem_append]
      rintro ((hc | hc) | hc)
      · exact absurd hc (by decide)
      · exact hzero hc
      · exact absurd hc (by decide)
  refine ⟨_, _, hparent, hname, ?_⟩
  rw [pathComponents_join dir hnormal, hnew]
  simp only [List.map_append, List.map_cons, List.map_nil, List.append_assoc]

/-- A write at the path of a scan touches that path and its temporary name. -/
lemma writeEffects_of_normal (env : FileAnswers dir) (h : NormalPath path) {entry : FileEntry}
    {content : Bytes} {x : FileEffect} (hx : x ∈ (writeEffects env path entry content).1) :
    x = .write (pathComponents (join dir (tmpPath path))) ∨
      x = .rename (pathComponents (join dir (tmpPath path))) (pathComponents (join dir path)) := by
  obtain ⟨q, name, hparent, hname, htmp⟩ := tmp_of_normal dir h
  rw [writeEffects, hparent, hname] at hx
  simp only [Option.getD_some, ← htmp] at hx
  split at hx
  · simp at hx
  split at hx
  · simp at hx
  split at hx
  · simp at hx
  · exact Or.inl (List.mem_singleton.1 hx)
  split at hx
  · exact Or.inl (List.mem_singleton.1 hx)
  split at hx
  · exact Or.inl (List.mem_singleton.1 hx)
  · rcases List.mem_cons.1 hx with hx | hx
    · exact Or.inl hx
    · exact Or.inr (List.mem_singleton.1 hx)

end

/-! ## The commands -/

section

variable {P : Platform} {key : Keypair} {around : SyncEnv} {env : FileAnswers dir}
  {deviceId : String} {d : Device} {s : SyncServer} {fsManifestCid : Option String}

lemma restoreEffects_inside : (∀ x ∈ restoreEffects P env s fsManifestCid, x.Inside dir) ↔
    ∀ manifest, restoreManifest P s fsManifestCid = .ok manifest → ∀ x,
      Reaches env (restoreContent P s) (fun _ => false) manifest.entries.toList x →
      Opens env (restoreContent P s) x → ParentWithin dir x.1 := by
  rw [restoreEffects]
  rcases restoreManifest P s fsManifestCid with e | manifest
  · exact iff_of_true (by simp) (by simp)
  · dsimp only
    rw [landEffects_inside]
    constructor
    · intro h manifest' heq
      obtain rfl := Except.ok.inj heq
      exact h
    · exact fun h => h manifest rfl

lemma convergeEffects_inside :
    (∀ x ∈ convergeEffects P key around env deviceId d s, x.Inside dir) ↔
      ∀ d' s' report mine tree,
        backupFrontier P key around.refuse around.fault deviceId d s = (d', s', .ok report) →
        convergeTrees P key deviceId d' s' = .ok (mine, tree) →
        (∀ x, Reaches env (fetchContent P d' s') (fun x => mine[x.1]? = some x.2) tree.toList x →
          Opens env (fetchContent P d' s') x → ParentWithin dir x.1) ∧
        ((∀ x ∈ tree.toList, mine[x.1]? ≠ some x.2 → Completes env (fetchContent P d' s') x) →
          ∀ p, Removes env tree mine.keys p → ParentWithin dir p) := by
  rw [convergeEffects]
  rcases hpub : backupFrontier P key around.refuse around.fault deviceId d s with ⟨d₁, s₁, e | r⟩
  · exact iff_of_true (by simp) (by simp)
  dsimp only
  rcases htrees : convergeTrees P key deviceId d₁ s₁ with e | ⟨mine, tree⟩
  · refine iff_of_true (by simp) fun d' s' report mine tree h htrees' => ?_
    simp only [Prod.mk.injEq] at h
    obtain ⟨rfl, rfl, -⟩ := h
    rw [htrees] at htrees'
    cases htrees'
  dsimp only
  have hland := landEffects_inside env (fetchContent P d₁ s₁)
    (fun x => decide (mine[x.1]? = some x.2)) tree.toList
  have hdone := landEffects_completes env (fetchContent P d₁ s₁)
    (fun x => decide (mine[x.1]? = some x.2)) tree.toList
  simp only [decide_eq_false_iff_not] at hdone
  have hremove := removeEffects_inside env tree mine.keys
  constructor
  · intro h d' s' report mine' tree' hpub' htrees'
    simp only [Prod.mk.injEq] at hpub'
    obtain ⟨rfl, rfl, -⟩ := hpub'
    obtain ⟨rfl, rfl⟩ := Prod.mk.inj (Except.ok.inj (htrees.symm.trans htrees'))
    rcases hl : landEffects env (fetchContent P d₁ s₁)
      (fun x => decide (mine[x.1]? = some x.2)) tree.toList with ⟨effects, _ | _⟩
    · rw [hl] at h hland hdone
      exact ⟨hland.1 h, fun hall => by cases hdone.2 hall⟩
    · rw [hl] at h hland hdone
      obtain ⟨hwrites, hremoves⟩ := List.forall_mem_append.1 h
      exact ⟨hland.1 hwrites, fun _ => hremove.1 hremoves⟩
  · intro h
    obtain ⟨hwrites, hremoves⟩ := h d₁ s₁ r mine tree rfl htrees
    rcases hl : landEffects env (fetchContent P d₁ s₁)
      (fun x => decide (mine[x.1]? = some x.2)) tree.toList with ⟨effects, _ | _⟩
    · rw [hl] at hland
      exact hland.2 hwrites
    · rw [hl] at hland hdone
      exact List.forall_mem_append.2 ⟨hland.2 hwrites, hremove.2 (hremoves (hdone.1 rfl))⟩

end

/-- Where every path of the manifest is that of a scan, a restore stays inside. -/
theorem restore_contained {P : Platform} (env : FileAnswers dir) (s : SyncServer)
    (fsManifestCid : Option String)
    (hpaths : ∀ manifest, restoreManifest P s fsManifestCid = .ok manifest →
      ∀ p ∈ manifest.entries, NormalPath p) :
    ∀ x ∈ restoreEffects P env s fsManifestCid, x.Inside dir := by
  rw [restoreEffects_inside]
  rintro manifest hm ⟨p, e⟩ ⟨-, before, after, hl, -⟩ -
  have hmem : (p, e) ∈ manifest.entries.toList := by
    rw [hl]
    simp
  apply parentWithin_of_normal
  apply hpaths manifest hm
  rw [Std.ExtTreeMap.mem_iff_isSome_getElem?, Std.ExtTreeMap.mem_toList_iff_getElem?_eq_some.1 hmem]
  rfl

/-- **Where files are written.**  A restore, a converge or a hydration touches files below its
directory alone, whatever the operating system answers, exactly when this holds of every path whose
temporary file it creates, and of every file that it removes: joined to the directory, the path is
in a directory that is the given one or lies below it. -/
theorem materialization_contained_iff (P : Platform) (key : Keypair) (around : SyncEnv)
    (env : FileAnswers dir) (deviceId : String) (d : Device) (s : SyncServer)
    (fsManifestCid : Option String) (paths : Option (List String)) :
    ((∀ x ∈ restoreEffects P env s fsManifestCid, x.Inside dir) ↔
      ∀ manifest, restoreManifest P s fsManifestCid = .ok manifest → ∀ x,
        Reaches env (restoreContent P s) (fun _ => false) manifest.entries.toList x →
        Opens env (restoreContent P s) x → ParentWithin dir x.1) ∧
    ((∀ x ∈ convergeEffects P key around env deviceId d s, x.Inside dir) ↔
      ∀ d' s' report mine tree,
        backupFrontier P key around.refuse around.fault deviceId d s = (d', s', .ok report) →
        convergeTrees P key deviceId d' s' = .ok (mine, tree) →
        (∀ x, Reaches env (fetchContent P d' s') (fun x => mine[x.1]? = some x.2) tree.toList x →
          Opens env (fetchContent P d' s') x → ParentWithin dir x.1) ∧
        ((∀ x ∈ tree.toList, mine[x.1]? ≠ some x.2 → Completes env (fetchContent P d' s') x) →
          ∀ p, Removes env tree mine.keys p → ParentWithin dir p)) ∧
    ((∀ x ∈ hydrateEffects P env s (hydrateTargets d paths) d, x.Inside dir) ↔
      ∀ p entry, Hydrates P env s d (hydrateTargets d paths) p entry →
        Opens env (fetchContent P d s) (p, entry) → ParentWithin dir p) :=
  ⟨restoreEffects_inside, convergeEffects_inside, hydrateEffects_inside⟩

/-! ### A path that leads out

The manifest has the path `../x`. -/

instance (p : String) : Decidable (NamesFile p) :=
  decidable_of_iff (∃ c ∈ (components p).getLast?, toComponent c = some (.into c))
    ⟨fun ⟨c, hc, h⟩ => ⟨c, hc, h⟩, fun ⟨c, hc, h⟩ => ⟨c, hc, h⟩⟩

namespace Escape

def tree : FsManifest := treeOf [("../x", fileOne)]

def treeCid : String := "7ecdc8e605447c2cfdf7f0c3a7652e63b177b0417b5b689ba4d21dd15ba35633"

/-- What SHA-256 is applied to, and its digests. -/
def digests : List (Bytes × String) :=
  [(asBytes "one", TwoDevices.fileOneCid), (tree.toCbor, treeCid)]

def platform : Platform :=
  { TwoDevices.platform with
    crypto := { TwoDevices.platform.crypto with sha256Hex := tabulatedHash digests }
    codec := dagCbor [tree] [] }

lemma lawful : platform.Lawful where
  sha256Hex_injective := tabulatedHash_injective
    (distinctDigests_of_take 4 (by decide +kernel) (by decide +kernel))
  decode_encodeManifest _ _ h := decodeAmong_encodeAmong h
  decode_encodeHead head bytes (h : encodeAmong DeviceHead.toCbor [] head = .ok bytes) :=
    decodeAmong_encodeAmong h

def server : SyncServer :=
  ⟨(∅ : ByCid Bytes).insertMany [(TwoDevices.fileOneCid, asBytes "one"), (treeCid, tree.toCbor)],
    ⟨.active, none⟩⟩

/-- Every call goes through. -/
def granted (dir : String) : FileAnswers dir where
  taken _ := false
  createDirs _ := true
  write _ := none
  metadata _ := true
  rename p := decide (NamesFile (join dir p))
  remove p := decide (NamesFile (join dir p))
  rename_names _ h := of_decide_eq_true h
  remove_names _ h := of_decide_eq_true h

end Escape

/-- The file is written next to the directory. -/
theorem restore_leads_out :
    ¬ ∀ (P : Platform), P.Lawful → ∀ (dir : String) (env : FileAnswers dir) (s : SyncServer)
      (fsManifestCid : Option String) (manifest : FsManifest),
      restoreManifest P s fsManifestCid = .ok manifest →
      ∀ x ∈ restoreEffects P env s fsManifestCid, x.Inside dir := by
  intro h
  have hdecodes : (restoreManifest Escape.platform Escape.server (some Escape.treeCid)).toOption =
      some Escape.tree := by
    decide +kernel
  exact absurd (h Escape.platform Escape.lawful "/home/sync" (Escape.granted _) Escape.server
    (some Escape.treeCid) Escape.tree (toOption_eq_some.1 hdecodes)) (by decide +kernel)

end Ciss
