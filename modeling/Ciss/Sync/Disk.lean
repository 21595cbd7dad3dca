import Ciss.Sync.Converge
import Ciss.Sync.Paths

/-!
# A directory on disk

`Ciss.Sync.Converge` writes files into a map from paths to files, and what a file system refuses is
left to its environment.  Here the directory has directories: a `Disk` is a tree, in which every
file and every directory lies in directories, and no path is both.  What a write needs and what it
leaves behind follows from the calls that `write_verified_file` makes, in their order, and a call
that fails leaves what the calls before it did.

What differs from one file system to the next is a `FileSystem`: the paths it can name, the modes
its user can open a file with, the times it can store.
-/

namespace Ciss

/-- What a file system gives to its user, who owns the files. -/
structure FileSystem where
  /-- The paths it can name: its names have a longest length. -/
  names : String → Bool
  names_normal : ∀ p, names p = true → NormalPath p
  /-- The modes of a file that can be opened to read it. -/
  readable : Nat → Bool
  /-- The modes of a file that can be opened to write to it. -/
  writable : Nat → Bool
  /-- The time, in seconds and nanoseconds, that is stored when this one is set. -/
  stamp : Int × Nat → Int × Nat
  stamp_stamp : ∀ t, stamp (stamp t) = stamp t

variable {F : FileSystem}

/-- A file has a time that the file system stores. -/
def LocalFile.Stamped (F : FileSystem) (f : LocalFile) : Prop :=
  F.stamp (f.mtimeSecs, f.mtimeNanos) = (f.mtimeSecs, f.mtimeNanos)

/-- The regular files and the directories below the synced directory, by their paths. -/
@[ext] structure Disk (F : FileSystem) where
  files : LocalFiles
  dirs : Std.ExtTreeSet String compare
  named : ∀ p, p ∈ files ∨ p ∈ dirs → F.names p = true
  parents : ∀ p a, p ∈ files ∨ p ∈ dirs → DirPrefix a p → a ∈ dirs
  apart : ∀ p, p ∈ files → p ∉ dirs
  stamped : ∀ (p : String) f, files[p]? = some f → f.Stamped F

/-- The device whose directory is this one. -/
def Device.on (d : Device) (disk : Disk F) : Device := { d with files := disk.files }

namespace Disk

/-- The directory with nothing in it. -/
def empty (F : FileSystem) : Disk F where
  files := ∅
  dirs := ∅
  named := by simp
  parents := by simp
  apart := by simp
  stamped := by simp

/-- A file can stand at the path: it can be named, and is in a directory and is none. -/
def CanHold (disk : Disk F) (p : String) : Prop :=
  F.names p = true ∧ p ∉ disk.dirs ∧ ∀ a ∈ ancestors p, a ∈ disk.dirs

instance (disk : Disk F) (p : String) : Decidable (disk.CanHold p) :=
  inferInstanceAs (Decidable (F.names p = true ∧ p ∉ disk.dirs ∧ ∀ a ∈ ancestors p, a ∈ disk.dirs))

lemma exists_of_mem {files : LocalFiles} {p : String} (h : p ∈ files) :
    ∃ f, files[p]? = some f :=
  Option.isSome_iff_exists.1 (Std.ExtTreeMap.mem_iff_isSome_getElem?.1 h)

lemma mem_of_getElem? {files : LocalFiles} {p : String} {f : LocalFile}
    (h : files[p]? = some f) : p ∈ files :=
  Std.ExtTreeMap.mem_iff_isSome_getElem?.2 (Option.isSome_iff_exists.2 ⟨f, h⟩)

lemma not_mem_iff {files : LocalFiles} {p : String} : p ∉ files ↔ files[p]? = none := by
  rw [Std.ExtTreeMap.mem_iff_isSome_getElem?, Bool.not_eq_true, Option.isSome_eq_false_iff,
    Option.isNone_iff_eq_none]

lemma canHold_of_mem {disk : Disk F} {p : String} (h : p ∈ disk.files) : disk.CanHold p :=
  ⟨disk.named p (Or.inl h), disk.apart p h, fun a ha =>
    disk.parents p a (Or.inl h) (mem_ancestors.1 ha)⟩

/-! ## The calls -/

/-- `mkdir`, one directory in a directory that is there; one that is there already is kept. -/
def mkdir (disk : Disk F) (a : String) : Option (Disk F) :=
  if a ∈ disk.dirs then some disk
  else if h : F.names a = true ∧ a ∉ disk.files ∧ ∀ b ∈ ancestors a, b ∈ disk.dirs then
    some
      { disk with
        dirs := disk.dirs.insert a
        named := by
          rintro p (hp | hp)
          · exact disk.named p (Or.inl hp)
          · rcases Std.ExtTreeSet.mem_insert.1 hp with hp | hp
            · exact Std.LawfulEqCmp.eq_of_compare hp ▸ h.1
            · exact disk.named p (Or.inr hp)
        parents := by
          intro p b hp hb
          rw [Std.ExtTreeSet.mem_insert]
          refine Or.inr ?_
          rcases hp with hp | hp
          · exact disk.parents p b (Or.inl hp) hb
          · rcases Std.ExtTreeSet.mem_insert.1 hp with hp | hp
            · rw [← Std.LawfulEqCmp.eq_of_compare hp] at hb
              exact h.2.2 b (mem_ancestors.2 hb)
            · exact disk.parents p b (Or.inr hp) hb
        apart := by
          intro p hp hd
          rcases Std.ExtTreeSet.mem_insert.1 hd with hd | hd
          · exact h.2.1 (Std.LawfulEqCmp.eq_of_compare hd ▸ hp)
          · exact disk.apart p hp hd }
  else none

/-- `create_dir_all`: the directories from the outermost on, up to the first that cannot be made;
says whether all are there. -/
def createDirAll : List String → Disk F → Disk F × Bool
  | [], disk => (disk, true)
  | a :: dirs, disk =>
      match disk.mkdir a with
      | none => (disk, false)
      | some disk => createDirAll dirs disk

/-- The same directories, with other files. -/
def withFiles (disk : Disk F) (files : LocalFiles)
    (hold : ∀ (p : String) f, files[p]? = some f → disk.CanHold p ∧ f.Stamped F) : Disk F where
  files := files
  dirs := disk.dirs
  named := by
    rintro p (hp | hp)
    · obtain ⟨f, hf⟩ := exists_of_mem hp
      exact (hold p f hf).1.1
    · exact disk.named p (Or.inr hp)
  parents := by
    rintro p a (hp | hp) ha
    · obtain ⟨f, hf⟩ := exists_of_mem hp
      exact (hold p f hf).1.2.2 a (mem_ancestors.2 ha)
    · exact disk.parents p a (Or.inr hp) ha
  apart := by
    intro p hp
    obtain ⟨f, hf⟩ := exists_of_mem hp
    exact (hold p f hf).1.2.1
  stamped := fun p f hf => (hold p f hf).2

/-- `fs::write`: the file is created with the mode that new files get, or truncated. -/
def write (disk : Disk F) (newMode : Nat) (now : Int × Nat) (p : String) (bytes : Bytes) :
    Option (Disk F) :=
  if h : disk.CanHold p ∧ disk.files[p]?.all (fun f => F.writable (f.mode % 4096)) = true then
    some (disk.withFiles
      (disk.files.insert p ⟨(disk.files[p]?.map LocalFile.mode).getD newMode,
        (F.stamp now).1, (F.stamp now).2, bytes⟩)
      (by
        intro q f hf
        rw [Std.ExtTreeMap.getElem?_insert] at hf
        split at hf
        · rename_i hq
          obtain rfl := Std.LawfulEqCmp.eq_of_compare hq
          obtain rfl := Option.some.inj hf
          exact ⟨h.1, F.stamp_stamp now⟩
        · exact ⟨canHold_of_mem (mem_of_getElem? hf), disk.stamped q f hf⟩))
  else none

/-- A change of a file that is there. -/
def adjust (disk : Disk F) (p : String) (change : LocalFile → LocalFile)
    (hchange : ∀ f, f.Stamped F → (change f).Stamped F) : Option (Disk F) :=
  if p ∈ disk.files then
    some (disk.withFiles (disk.files.modify p change) (by
      intro q f hf
      rw [Std.ExtTreeMap.getElem?_modify] at hf
      split at hf
      · rename_i hq
        obtain rfl := Std.LawfulEqCmp.eq_of_compare hq
        obtain ⟨f, hold, rfl⟩ := Option.map_eq_some_iff.1 hf
        exact ⟨canHold_of_mem (mem_of_getElem? hold), hchange f (disk.stamped p f hold)⟩
      · exact ⟨canHold_of_mem (mem_of_getElem? hf), disk.stamped q f hf⟩))
  else none

/-- `chmod`; the time stays. -/
def chmod (disk : Disk F) (p : String) (mode : Nat) : Option (Disk F) :=
  disk.adjust p (fun f => { f with mode := mode }) fun _ h => h

/-- Set the time of a file. -/
def setModified (disk : Disk F) (p : String) (t : Int × Nat) : Option (Disk F) :=
  disk.adjust p (fun f => { f with mtimeSecs := (F.stamp t).1, mtimeNanos := (F.stamp t).2 })
    fun _ _ => F.stamp_stamp t

/-- The files after a rename, which replaces a file at its destination. -/
def renamed (files : LocalFiles) (source destination : String) : LocalFiles :=
  files[source]?.elim files fun f => (files.erase source).insert destination f

/-- `rename` of a file. -/
def rename (disk : Disk F) (source destination : String) : Option (Disk F) :=
  if h : source ∈ disk.files ∧ disk.CanHold destination then
    some (disk.withFiles (renamed disk.files source destination) (by
      intro q f hf
      obtain ⟨g, hg⟩ := exists_of_mem h.1
      rw [renamed, hg, Option.elim_some, Std.ExtTreeMap.getElem?_insert] at hf
      split at hf
      · rename_i hq
        obtain rfl := Std.LawfulEqCmp.eq_of_compare hq
        obtain rfl := Option.some.inj hf
        exact ⟨h.2, disk.stamped source g hg⟩
      · rw [Std.ExtTreeMap.getElem?_erase] at hf
        split at hf
        · cases hf
        · exact ⟨canHold_of_mem (mem_of_getElem? hf), disk.stamped q f hf⟩))
  else none

/-- `remove_file`. -/
def remove (disk : Disk F) (p : String) : Option (Disk F) :=
  if p ∈ disk.files then
    some (disk.withFiles (disk.files.erase p) (by
      intro q f hf
      rw [Std.ExtTreeMap.getElem?_erase] at hf
      split at hf
      · cases hf
      · exact ⟨canHold_of_mem (mem_of_getElem? hf), disk.stamped q f hf⟩))
  else none

end Disk

/-! ## The write -/

/-- What can happen to one write besides. -/
inductive WriteFault where
  /-- The temporary file cannot be created. -/
  | refused
  /-- The disk is full after this many bytes. -/
  | cut (written : Nat)
  deriving DecidableEq, Repr

/-- What surrounds the writes and removals in a directory. -/
structure DiskEnv (F : FileSystem) where
  now : Int × Nat
  /-- The mode of a new file. -/
  newMode : Nat
  fault : String → Option WriteFault
  /-- The files that cannot be removed. -/
  stuck : String → Bool
  /-- What comes of a write or a removal at a path that is not a normal one, which may lead
  anywhere. -/
  strayWrite : String → FileEntry → Bytes → Disk F → Disk F × Except SyncError Unit
  strayRemove : String → Disk F → Disk F × Except SyncError Unit

/-- `restore_metadata`: the mode, and the time unless it lies before the epoch. -/
def restoreMetadata (tmp : String) (entry : FileEntry) (disk : Disk F) :
    Disk F × Except SyncError Unit :=
  match disk.chmod tmp entry.mode with
  | none => (disk, .error (.io tmp))
  | some disk =>
      if entry.mtimeSecs < 0 then (disk, .ok ())
      -- the time is set through a handle that is opened for reading, with the new mode
      else if F.readable (entry.mode % 4096) then
        match disk.setModified tmp (entry.mtimeSecs, entry.mtimeNanos) with
        | none => (disk, .error (.io tmp))
        | some disk => (disk, .ok ())
      else (disk, .error (.io tmp))

/-- Write the temporary file, give it the metadata, and rename it onto the path. -/
def replaceFile (env : DiskEnv F) (path : String) (entry : FileEntry) (content : Bytes)
    (disk : Disk F) : Disk F × Except SyncError Unit :=
  let tmp := tmpPath path
  match env.fault path with
  | some .refused => (disk, .error (.io tmp))
  | some (.cut written) =>
      ((disk.write env.newMode env.now tmp (content.take written)).getD disk, .error (.io tmp))
  | none =>
      match disk.write env.newMode env.now tmp content with
      | none => (disk, .error (.io tmp))
      | some disk =>
          match restoreMetadata tmp entry disk with
          | (disk, .error e) => (disk, .error e)
          | (disk, .ok ()) =>
              match disk.rename tmp path with
              | none => (disk, .error (.io path))
              | some disk => (disk, .ok ())

/-- `write_verified_file`. -/
def writeVerified (env : DiskEnv F) (path : String) (entry : FileEntry) (content : Bytes)
    (disk : Disk F) : Disk F × Except SyncError Unit :=
  if content.length ≠ entry.size then
    (disk, .error (.decode (String.join [path, ": reassembled ", content.length.repr,
      " bytes, manifest says ", entry.size.repr])))
  else if ¬NormalPath path then env.strayWrite path entry content disk
  else
    match disk.createDirAll (ancestors path) with
    | (disk, false) => (disk, .error (.io ((ancestors path).getLast?.getD "")))
    | (disk, true) => replaceFile env path entry content disk

/-- `remove_file`, where the disk lets it. -/
def removeFile (env : DiskEnv F) (path : String) (disk : Disk F) :
    Disk F × Except SyncError Unit :=
  if ¬NormalPath path then env.strayRemove path disk
  else if env.stuck path then (disk, .error (.io path))
  else
    match disk.remove path with
    | none => (disk, .error (.io path))
    | some disk => (disk, .ok ())

/-! ### What a write needs -/

/-- The file a write leaves at its path. -/
def landed (env : DiskEnv F) (entry : FileEntry) (content : Bytes) : LocalFile :=
  let t := F.stamp (if entry.mtimeSecs < 0 then env.now else (entry.mtimeSecs, entry.mtimeNanos))
  ⟨entry.mode, t.1, t.2, content⟩

/-- Among these files and directories, the write goes through. -/
structure Lands (env : DiskEnv F) (files : LocalFiles) (dirs : String → Prop) (path : String)
    (entry : FileEntry) (content : Bytes) : Prop where
  size : content.length = entry.size
  parents : ∀ a, DirPrefix a path → F.names a = true ∧ a ∉ files
  fault : env.fault path = none
  names : F.names path = true
  names_tmp : F.names (tmpPath path) = true
  free : ¬dirs path
  free_tmp : ¬dirs (tmpPath path)
  /-- A file that has the temporary name is overwritten. -/
  writable : ∀ f, files[tmpPath path]? = some f → F.writable (f.mode % 4096) = true
  readable : 0 ≤ entry.mtimeSecs → F.readable (entry.mode % 4096) = true

section

variable {p q a : String}

/-- The temporary name stands in the directory of the path. -/
lemma tmpPath_split (p : String) : ∃ parent name : String, p = parent ++ name ∧ free '/' name ∧
    tmpPath p = parent ++ (".ciss-restore-" ++ name ++ ".tmp") ∧
    ∀ c ∈ parent.toList.getLast?, c = '/' := by
  refine ⟨String.ofList (p.toList.reverse.dropWhile (· ≠ '/')).reverse,
    String.ofList (p.toList.reverse.takeWhile (· ≠ '/')).reverse, ?_, ?_, ?_, ?_⟩
  · rw [← String.toList_inj, String.toList_append, String.toList_ofList, String.toList_ofList,
      ← List.reverse_append, List.takeWhile_append_dropWhile, List.reverse_reverse]
  · intro hmem
    rw [String.toList_ofList, List.mem_reverse] at hmem
    simpa using List.mem_takeWhile_imp hmem
  · rw [← String.toList_inj]
    simp [tmpPath]
  · intro c hc
    rw [String.toList_ofList, List.getLast?_reverse] at hc
    have := List.head?_dropWhile_not (· ≠ '/') p.toList.reverse
    rw [Option.mem_def.1 hc] at this
    simpa using this

lemma count_tmpPath (p : String) : (tmpPath p).toList.count '/' = p.toList.count '/' := by
  obtain ⟨parent, name, hp, -, htmp, -⟩ := tmpPath_split p
  have hout : (".ciss-restore-" : String).toList.count '/' = 0 ∧
      (".tmp" : String).toList.count '/' = 0 := by decide
  rw [htmp]
  nth_rewrite 1 [hp]
  simp only [String.toList_append, List.count_append]
  omega

lemma tmpPath_ne (p : String) : tmpPath p ≠ p := by
  obtain ⟨parent, name, hp, -, htmp, -⟩ := tmpPath_split p
  have hout : (".ciss-restore-" : String).toList.length = 14 := by decide
  intro h
  have hlen := congrArg (fun s => s.toList.length) (htmp.symm.trans (h.trans hp))
  simp only [String.toList_append, List.length_append] at hlen
  omega

lemma not_dirPrefix_tmpPath : ¬DirPrefix (tmpPath p) p := by
  intro h
  have := h.count_lt
  rw [count_tmpPath] at this
  omega

/-- Different paths go through different temporary files. -/
lemma tmpPath_injective : Function.Injective tmpPath := by
  have hsplit : ∀ parent : String, (∀ c ∈ parent.toList.getLast?, c = '/') →
      ∃ x, '/' :: parent.toList = x ++ ['/'] := by
    intro parent hlast
    rcases List.eq_nil_or_concat parent.toList with h | ⟨x, c, h⟩
    · exact ⟨[], by rw [h, List.nil_append]⟩
    · rw [List.concat_eq_append] at h
      obtain rfl : c = '/' := hlast c (by rw [h, List.getLast?_concat]; exact rfl)
      exact ⟨'/' :: x, by rw [h, List.cons_append]⟩
  intro p q h
  obtain ⟨parent, name, hp, hname, htmp, hlast⟩ := tmpPath_split p
  obtain ⟨parent', name', hq, hname', htmp', hlast'⟩ := tmpPath_split q
  obtain ⟨x, hx⟩ := hsplit parent hlast
  obtain ⟨x', hx'⟩ := hsplit parent' hlast'
  have hfree : ∀ s, free '/' s → free '/' (".ciss-restore-" ++ s ++ ".tmp") := by
    intro s hs
    rw [free_append, free_append]
    exact ⟨⟨by decide, hs⟩, by decide⟩
  have hjoin : x ++ '/' :: (".ciss-restore-" ++ name ++ ".tmp").toList =
      x' ++ '/' :: (".ciss-restore-" ++ name' ++ ".tmp").toList := by
    have hchars := congrArg (fun s => '/' :: s.toList) (htmp.symm.trans (h.trans htmp'))
    rw [String.toList_append, String.toList_append (s := parent'), ← List.cons_append,
      ← List.cons_append, hx, hx', List.append_assoc, List.append_assoc] at hchars
    exact hchars
  obtain ⟨hnames, rfl⟩ := sep_inj_right (hfree name hname) (hfree name' hname') hjoin
  have hparents : parent = parent' := by
    rw [← String.toList_inj]
    exact (List.cons.inj (hx.trans hx'.symm)).2
  have hsame : name = name' := by
    have hchars := congrArg String.toList hnames
    rw [← String.toList_inj]
    simpa using hchars
  rw [hp, hq, hparents, hsame]

lemma dirPrefix_tmpPath : DirPrefix a (tmpPath p) ↔ DirPrefix a p := by
  obtain ⟨parent, name, hp, hname, htmp, -⟩ := tmpPath_split p
  have hfree : free '/' (".ciss-restore-" ++ name ++ ".tmp") := by
    rw [free_append, free_append]
    exact ⟨⟨by decide, hname⟩, by decide⟩
  have hend : ∀ s, free '/' s → (DirPrefix a (parent ++ s) ↔ DirPrefix a parent) := by
    intro s hs
    have h := dirPrefix_append_of_free (a := a) (b := parent) (t := "") hs
    rw [String.append_empty] at h
    rw [h]
    refine or_iff_left ?_
    rintro ⟨u, v, huv, -⟩
    have hlen := congrArg (fun s => s.toList.length) huv
    simp at hlen
  rw [htmp, hend _ hfree]
  nth_rewrite 1 [hp]
  rw [hend _ hname]

end

namespace Disk

variable {disk disk' : Disk F} {p a : String}

lemma mkdir_spec (disk : Disk F) (hin : ∀ b, DirPrefix b a → b ∈ disk.dirs) :
    (F.names a = true ∧ a ∉ disk.files → ∃ disk', disk.mkdir a = some disk' ∧
        disk'.files = disk.files ∧ ∀ b, b ∈ disk'.dirs ↔ b ∈ disk.dirs ∨ b = a) ∧
      (¬(F.names a = true ∧ a ∉ disk.files) → disk.mkdir a = none) := by
  rw [mkdir]
  by_cases ha : a ∈ disk.dirs
  · rw [if_pos ha]
    refine ⟨fun _ => ⟨disk, rfl, rfl, fun b => (or_iff_left_of_imp ?_).symm⟩, fun h => ?_⟩
    · rintro rfl
      exact ha
    · exact absurd ⟨disk.named a (Or.inr ha), fun hf => disk.apart a hf ha⟩ h
  · rw [if_neg ha]
    constructor
    · intro h
      rw [dif_pos ⟨h.1, h.2, fun b hb => hin b (mem_ancestors.1 hb)⟩]
      refine ⟨_, rfl, rfl, fun b => ?_⟩
      rw [Std.ExtTreeSet.mem_insert, Std.LawfulEqCmp.compare_eq_iff_eq, or_comm, eq_comm]
    · intro h
      rw [dif_neg fun h' => h ⟨h'.1, h'.2.1⟩]

/-- Directories are made when each can be named and none of them is a file. -/
lemma createDirAll_spec (l : List String) (disk : Disk F)
    (hin : ∀ l₁ a l₂, l = l₁ ++ a :: l₂ → ∀ b, DirPrefix b a → b ∈ disk.dirs ∨ b ∈ l₁) :
    ((∀ a ∈ l, F.names a = true ∧ a ∉ disk.files) → ∃ disk', disk.createDirAll l = (disk', true) ∧
        disk'.files = disk.files ∧ ∀ b, b ∈ disk'.dirs ↔ b ∈ disk.dirs ∨ b ∈ l) ∧
      (¬(∀ a ∈ l, F.names a = true ∧ a ∉ disk.files) →
        ∃ disk', disk.createDirAll l = (disk', false)) := by
  induction l generalizing disk with
  | nil => exact ⟨fun _ => ⟨disk, rfl, rfl, by simp⟩, fun h => absurd (by simp) h⟩
  | cons a l ih =>
      obtain ⟨hmake, hfail⟩ := mkdir_spec (a := a) disk fun b hb =>
        (hin [] a l rfl b hb).resolve_right (by simp)
      rw [createDirAll]
      by_cases ha : F.names a = true ∧ a ∉ disk.files
      · obtain ⟨disk₁, h₁, hfiles, hdirs⟩ := hmake ha
        rw [h₁]
        obtain ⟨hmake', hfail'⟩ := ih disk₁ (by
          intro l₁ b l₂ hl c hc
          rw [hdirs]
          rcases hin (a :: l₁) b l₂ (by rw [hl, List.cons_append]) c hc with h | h
          · exact Or.inl (Or.inl h)
          · rcases List.mem_cons.1 h with h | h
            · exact Or.inl (Or.inr h)
            · exact Or.inr h)
        rw [hfiles] at hmake' hfail'
        constructor
        · intro hall
          obtain ⟨disk', h', hfiles', hdirs'⟩ :=
            hmake' fun b hb => hall b (List.mem_cons_of_mem _ hb)
          refine ⟨disk', h', hfiles', fun b => ?_⟩
          rw [hdirs', hdirs, List.mem_cons, or_assoc]
        · intro hnot
          apply hfail'
          intro hall
          apply hnot
          intro b hb
          rcases List.mem_cons.1 hb with rfl | hb
          · exact ha
          · exact hall b hb
      · rw [hfail ha]
        exact ⟨fun hall => absurd (hall a List.mem_cons_self) ha, fun _ => ⟨disk, rfl⟩⟩

/-- The directories of a path. -/
lemma createDirAll_ancestors (disk : Disk F) (p : String) :
    ((∀ a, DirPrefix a p → F.names a = true ∧ a ∉ disk.files) →
        ∃ disk', disk.createDirAll (ancestors p) = (disk', true) ∧ disk'.files = disk.files ∧
          ∀ b, b ∈ disk'.dirs ↔ b ∈ disk.dirs ∨ DirPrefix b p) ∧
      (¬(∀ a, DirPrefix a p → F.names a = true ∧ a ∉ disk.files) →
        ∃ disk', disk.createDirAll (ancestors p) = (disk', false)) := by
  have h := createDirAll_spec (ancestors p) disk fun l₁ a l₂ hl b hb =>
    Or.inr (ancestors_split hl hb)
  simpa only [mem_ancestors] using h

/-- Among the directories of a path, the temporary file can be written when the path or its
temporary name stand for no directory. -/
lemma write_spec (disk : Disk F) (newMode : Nat) (now : Int × Nat) (bytes : Bytes) :
    (disk.CanHold p ∧ (∀ f, disk.files[p]? = some f → F.writable (f.mode % 4096) = true) →
      ∃ disk' mode, disk.write newMode now p bytes = some disk' ∧ disk'.dirs = disk.dirs ∧
        disk'.files = disk.files.insert p ⟨mode, (F.stamp now).1, (F.stamp now).2, bytes⟩) ∧
    (¬(disk.CanHold p ∧ ∀ f, disk.files[p]? = some f → F.writable (f.mode % 4096) = true) →
      disk.write newMode now p bytes = none) := by
  have hall : disk.files[p]?.all (fun f => F.writable (f.mode % 4096)) = true ↔
      ∀ f, disk.files[p]? = some f → F.writable (f.mode % 4096) = true := by
    cases disk.files[p]? <;> simp
  rw [write, hall.symm]
  constructor
  · intro h
    rw [dif_pos h]
    exact ⟨_, _, rfl, rfl, rfl⟩
  · intro h
    rw [dif_neg h]

lemma adjust_spec {f : LocalFile} (h : disk.files[p]? = some f) (change : LocalFile → LocalFile)
    (hchange : ∀ f, f.Stamped F → (change f).Stamped F) :
    ∃ disk', disk.adjust p change hchange = some disk' ∧ disk'.dirs = disk.dirs ∧
      disk'.files = disk.files.insert p (change f) := by
  rw [adjust, if_pos (mem_of_getElem? h)]
  refine ⟨_, rfl, rfl, Std.ExtTreeMap.ext_getElem? fun q => ?_⟩
  change (disk.files.modify p change)[q]? = _
  rw [Std.ExtTreeMap.getElem?_modify, Std.ExtTreeMap.getElem?_insert, h]
  rfl

lemma rename_spec (disk : Disk F) (destination : String) {source : String} {f : LocalFile}
    (h : disk.files[source]? = some f) :
    (disk.CanHold destination → ∃ disk', disk.rename source destination = some disk' ∧
        disk'.dirs = disk.dirs ∧ disk'.files = (disk.files.erase source).insert destination f) ∧
      (¬disk.CanHold destination → disk.rename source destination = none) := by
  rw [rename]
  constructor
  · intro hcan
    rw [dif_pos ⟨mem_of_getElem? h, hcan⟩]
    refine ⟨_, rfl, rfl, ?_⟩
    change renamed disk.files source destination = _
    rw [renamed, h, Option.elim_some]
  · intro hcan
    rw [dif_neg fun h' => hcan h'.2]

lemma restoreMetadata_spec (disk : Disk F) {tmp : String} {f : LocalFile} (entry : FileEntry)
    (h : disk.files[tmp]? = some f) :
    ((0 ≤ entry.mtimeSecs → F.readable (entry.mode % 4096) = true) →
      ∃ disk', restoreMetadata tmp entry disk = (disk', .ok ()) ∧ disk'.dirs = disk.dirs ∧
        disk'.files = disk.files.insert tmp
          (if entry.mtimeSecs < 0 then { f with mode := entry.mode }
            else ⟨entry.mode, (F.stamp (entry.mtimeSecs, entry.mtimeNanos)).1,
              (F.stamp (entry.mtimeSecs, entry.mtimeNanos)).2, f.bytes⟩)) ∧
    (¬(0 ≤ entry.mtimeSecs → F.readable (entry.mode % 4096) = true) →
      ∃ disk' e, restoreMetadata tmp entry disk = (disk', .error e)) := by
  obtain ⟨disk₁, hchmod, hdirs, hfiles⟩ := adjust_spec h (fun f => { f with mode := entry.mode })
    fun _ hf => hf
  have hmode : disk₁.files[tmp]? = some { f with mode := entry.mode } := by
    rw [hfiles, Std.ExtTreeMap.getElem?_insert_self]
  have hchmod' : disk.chmod tmp entry.mode = some disk₁ := hchmod
  rw [restoreMetadata, hchmod']
  by_cases hneg : entry.mtimeSecs < 0
  · simp only [if_pos hneg]
    refine ⟨fun _ => ⟨disk₁, rfl, hdirs, hfiles⟩, fun hnot => absurd (fun h0 => ?_) hnot⟩
    omega
  · simp only [if_neg hneg]
    by_cases hread : F.readable (entry.mode % 4096) = true
    · obtain ⟨disk₂, hset, hdirs', hfiles'⟩ := adjust_spec hmode
        (fun f => { f with
          mtimeSecs := (F.stamp (entry.mtimeSecs, entry.mtimeNanos)).1
          mtimeNanos := (F.stamp (entry.mtimeSecs, entry.mtimeNanos)).2 })
        fun _ _ => F.stamp_stamp _
      have hset' : disk₁.setModified tmp (entry.mtimeSecs, entry.mtimeNanos) = some disk₂ := hset
      rw [if_pos hread, hset']
      refine ⟨fun _ => ⟨disk₂, rfl, hdirs'.trans hdirs, ?_⟩,
        fun hnot => absurd (fun _ => hread) hnot⟩
      rw [hfiles', hfiles]
      refine Std.ExtTreeMap.ext_getElem? fun q => ?_
      simp only [Std.ExtTreeMap.getElem?_insert]
      split <;> rfl
    · rw [if_neg hread]
      exact ⟨fun hall => absurd (hall (by omega)) hread, fun _ => ⟨disk₁, _, rfl⟩⟩

end Disk

section

variable {env : DiskEnv F} {disk disk' : Disk F} {path : String} {entry : FileEntry}
  {content : Bytes}

/-- The write in a directory that is there. -/
lemma replaceFile_spec (env : DiskEnv F) (path : String) (entry : FileEntry) (content : Bytes)
    (disk : Disk F) :
    (env.fault path = none ∧ disk.CanHold (tmpPath path) ∧
        (∀ f, disk.files[tmpPath path]? = some f → F.writable (f.mode % 4096) = true) ∧
        (0 ≤ entry.mtimeSecs → F.readable (entry.mode % 4096) = true) ∧ disk.CanHold path →
      ∃ disk', replaceFile env path entry content disk = (disk', .ok ()) ∧
        disk'.files = (disk.files.erase (tmpPath path)).insert path (landed env entry content) ∧
        disk'.dirs = disk.dirs) ∧
    (¬(env.fault path = none ∧ disk.CanHold (tmpPath path) ∧
        (∀ f, disk.files[tmpPath path]? = some f → F.writable (f.mode % 4096) = true) ∧
        (0 ≤ entry.mtimeSecs → F.readable (entry.mode % 4096) = true) ∧ disk.CanHold path) →
      ∃ disk' e, replaceFile env path entry content disk = (disk', .error e)) := by
  rw [replaceFile]
  rcases hfault : env.fault path with _ | _ | written
  · obtain ⟨hwrite, hnowrite⟩ := disk.write_spec (p := tmpPath path) env.newMode env.now content
    by_cases hw : disk.CanHold (tmpPath path) ∧
        ∀ f, disk.files[tmpPath path]? = some f → F.writable (f.mode % 4096) = true
    · obtain ⟨disk₁, mode, h₁, hdirs₁, hfiles₁⟩ := hwrite hw
      have htmp : disk₁.files[tmpPath path]? =
          some ⟨mode, (F.stamp env.now).1, (F.stamp env.now).2, content⟩ := by
        rw [hfiles₁, Std.ExtTreeMap.getElem?_insert_self]
      obtain ⟨hmeta, hnometa⟩ := disk₁.restoreMetadata_spec entry htmp
      dsimp only
      rw [h₁]
      by_cases hr : 0 ≤ entry.mtimeSecs → F.readable (entry.mode % 4096) = true
      · obtain ⟨disk₂, h₂, hdirs₂, hfiles₂⟩ := hmeta hr
        have hland : disk₂.files[tmpPath path]? = some (landed env entry content) := by
          rw [hfiles₂, Std.ExtTreeMap.getElem?_insert_self, landed]
          split <;> rfl
        obtain ⟨hmove, hnomove⟩ := disk₂.rename_spec path hland
        have hcan : disk₂.CanHold path ↔ disk.CanHold path := by
          rw [Disk.CanHold, Disk.CanHold, hdirs₂, hdirs₁]
        dsimp only
        rw [h₂]
        dsimp only
        by_cases hp : disk.CanHold path
        · obtain ⟨disk₃, h₃, hdirs₃, hfiles₃⟩ := hmove (hcan.2 hp)
          rw [h₃]
          refine ⟨fun _ => ⟨disk₃, rfl, ?_, hdirs₃.trans (hdirs₂.trans hdirs₁)⟩,
            fun hnot => absurd ⟨rfl, hw.1, hw.2, hr, hp⟩ hnot⟩
          rw [hfiles₃, hfiles₂, hfiles₁]
          refine Std.ExtTreeMap.ext_getElem? fun q => ?_
          simp only [Std.ExtTreeMap.getElem?_insert, Std.ExtTreeMap.getElem?_erase]
          split
          · rfl
          · split <;> rfl
        · rw [hnomove fun h => hp (hcan.1 h)]
          exact ⟨fun h => absurd h.2.2.2.2 hp, fun _ => ⟨_, _, rfl⟩⟩
      · obtain ⟨disk₂, e, h₂⟩ := hnometa hr
        dsimp only
        rw [h₂]
        exact ⟨fun h => absurd h.2.2.2.1 hr, fun _ => ⟨_, _, rfl⟩⟩
    · dsimp only
      rw [hnowrite hw]
      exact ⟨fun h => absurd ⟨h.2.1, h.2.2.1⟩ hw, fun _ => ⟨_, _, rfl⟩⟩
  · exact ⟨fun h => absurd h.1 (by simp), fun _ => ⟨_, _, rfl⟩⟩
  · exact ⟨fun h => absurd h.1 (by simp), fun _ => ⟨_, _, rfl⟩⟩

/-- **One write.**  It goes through exactly when `Lands` says so; then the file stands at its path,
the temporary name is free, and the directories are there. -/
theorem writeVerified_spec (env : DiskEnv F) (entry : FileEntry) (content : Bytes)
    (hpath : NormalPath path) (disk : Disk F) :
    (Lands env disk.files (· ∈ disk.dirs) path entry content →
      ∃ disk', writeVerified env path entry content disk = (disk', .ok ()) ∧
        disk'.files = (disk.files.erase (tmpPath path)).insert path (landed env entry content) ∧
        ∀ a, a ∈ disk'.dirs ↔ a ∈ disk.dirs ∨ DirPrefix a path) ∧
    (¬Lands env disk.files (· ∈ disk.dirs) path entry content →
      ∃ disk' e, writeVerified env path entry content disk = (disk', .error e)) := by
  rw [writeVerified]
  by_cases hsize : content.length = entry.size
  swap
  · rw [if_pos hsize]
    exact ⟨fun h => absurd h.size hsize, fun _ => ⟨_, _, rfl⟩⟩
  rw [if_neg (not_not.2 hsize), if_neg (not_not.2 hpath)]
  obtain ⟨hmake, hnomake⟩ := disk.createDirAll_ancestors path
  by_cases hparents : ∀ a, DirPrefix a path → F.names a = true ∧ a ∉ disk.files
  swap
  · obtain ⟨disk₁, h₁⟩ := hnomake hparents
    rw [h₁]
    exact ⟨fun h => absurd h.parents hparents, fun _ => ⟨_, _, rfl⟩⟩
  obtain ⟨disk₁, h₁, hfiles₁, hdirs₁⟩ := hmake hparents
  obtain ⟨hreplace, hnoreplace⟩ := replaceFile_spec env path entry content disk₁
  rw [h₁]
  dsimp only
  -- the directories of the path are now there, and neither it nor its temporary name is one of them
  have hcan : disk₁.CanHold path ↔ F.names path = true ∧ path ∉ disk.dirs := by
    rw [Disk.CanHold, hdirs₁]
    simp only [mem_ancestors]
    constructor
    · rintro ⟨hnames, hfree, -⟩
      exact ⟨hnames, fun h => hfree (Or.inl h)⟩
    · rintro ⟨hnames, hfree⟩
      exact ⟨hnames, fun h => h.elim hfree fun h => h.ne rfl, fun a ha => (hdirs₁ a).2 (Or.inr ha)⟩
  have hcantmp : disk₁.CanHold (tmpPath path) ↔
      F.names (tmpPath path) = true ∧ tmpPath path ∉ disk.dirs := by
    rw [Disk.CanHold, hdirs₁]
    simp only [mem_ancestors, dirPrefix_tmpPath]
    constructor
    · rintro ⟨hnames, hfree, -⟩
      exact ⟨hnames, fun h => hfree (Or.inl h)⟩
    · rintro ⟨hnames, hfree⟩
      exact ⟨hnames, fun h => h.elim hfree not_dirPrefix_tmpPath,
        fun a ha => (hdirs₁ a).2 (Or.inr ha)⟩
  rw [hcan, hcantmp, hfiles₁] at hreplace hnoreplace
  constructor
  · intro h
    obtain ⟨disk', h', hfiles', hdirs'⟩ := hreplace
      ⟨h.fault, ⟨h.names_tmp, h.free_tmp⟩, h.writable, h.readable, h.names, h.free⟩
    exact ⟨disk', h', hfiles', fun a => by rw [hdirs', hdirs₁]⟩
  · intro h
    apply hnoreplace
    rintro ⟨hfault, ⟨hnt, hft⟩, hw, hr, hn, hf⟩
    exact h ⟨hsize, hparents, hfault, hn, hnt, hf, hft, hw, hr⟩

/-- One removal. -/
lemma removeFile_spec (env : DiskEnv F) (hpath : NormalPath path) (disk : Disk F) :
    (path ∈ disk.files ∧ env.stuck path = false →
      ∃ disk', removeFile env path disk = (disk', .ok ()) ∧
        disk'.files = disk.files.erase path ∧ disk'.dirs = disk.dirs) ∧
    (¬(path ∈ disk.files ∧ env.stuck path = false) →
      ∃ disk' e, removeFile env path disk = (disk', .error e)) := by
  rw [removeFile, if_neg (not_not.2 hpath), Disk.remove]
  by_cases hstuck : env.stuck path = true
  · rw [if_pos hstuck]
    exact ⟨fun h => by simp [hstuck] at h, fun _ => ⟨_, _, rfl⟩⟩
  · rw [if_neg hstuck]
    by_cases hmem : path ∈ disk.files
    · rw [if_pos hmem]
      exact ⟨fun _ => ⟨_, rfl, rfl, rfl⟩, fun h => absurd ⟨hmem, by simpa using hstuck⟩ h⟩
    · rw [if_neg hmem]
      exact ⟨fun h => absurd h.1 hmem, fun _ => ⟨_, _, rfl⟩⟩

/-- Where nothing is in the way, and for a time that the file system stores, the write is the one
of `writeVerifiedFile`. -/
theorem writeVerified_eq_writeVerifiedFile (around : SyncEnv) (hpath : NormalPath path)
    (hl : Lands env disk.files (· ∈ disk.dirs) path entry content)
    (hopen : around.blocked path = false) (hstamp : F.stamp (entry.mtimeSecs, entry.mtimeNanos) =
      (entry.mtimeSecs, entry.mtimeNanos)) (hnow : around.now = F.stamp env.now) :
    ∃ disk', writeVerified env path entry content disk = (disk', .ok ()) ∧
      writeVerifiedFile around path entry content disk.files = (disk'.files, .ok ()) := by
  obtain ⟨disk', h', hfiles, -⟩ := (writeVerified_spec env entry content hpath disk).1 hl
  refine ⟨disk', h', ?_⟩
  rw [writeVerifiedFile, if_neg (not_not.2 hl.size), if_neg (by simp [hopen]), hfiles, landed]
  by_cases hneg : entry.mtimeSecs < 0
  · rw [if_pos hneg, if_neg (by omega), hnow]
  · rw [if_neg hneg, if_pos (by omega), hstamp]

end

/-! ### A file system -/

/-- Names of up to 255 bytes, nanoseconds, and an owner who is bound by the modes. -/
def posix : FileSystem where
  names p := decide (NormalPath p) && (components p).all fun c =>
    decide ((asBytes (String.ofList c)).length ≤ 255)
  names_normal p h := of_decide_eq_true (Bool.and_eq_true_iff.1 h).1
  readable mode := mode / 256 % 2 == 1
  writable mode := mode / 128 % 2 == 1
  stamp t := (t.1 + t.2 / 1000000000, t.2 % 1000000000)
  stamp_stamp t := by
    have hnanos : t.2 % 1000000000 < 1000000000 := Nat.mod_lt _ (by decide)
    refine Prod.ext ?_ (Nat.mod_mod _ _)
    dsimp only
    omega

/-- Nothing fails. -/
def quiet (F : FileSystem) : DiskEnv F where
  now := (0, 0)
  newMode := 420
  fault _ := none
  stuck _ := false
  strayWrite path _ _ disk := (disk, .error (.io path))
  strayRemove path disk := (disk, .error (.io path))

/-- A directory with these files in it, as far as they fit. -/
def diskOf (files : List (String × LocalFile)) : Disk posix :=
  files.foldl (fun disk x =>
    (writeVerified (quiet posix) x.1 ⟨x.2.mode, x.2.mtimeSecs, x.2.mtimeNanos, x.2.bytes.length, []⟩
      x.2.bytes disk).1) (Disk.empty posix)

end Ciss
