import Ciss.Sync.KeepSet
import Ciss.Sync.Transfer

/-!
# The scan index

An indexed scan takes a stored entry for a file whose path, mtime and size are those of the index
row, and reads the file otherwise.  Mode and content of such an entry are the ones the path had when
its row was written.  The row outlives the file: it stays when the file is deleted, renamed away or
replaced, and a permission change moves neither mtime nor size.

An index `Fits` a file at a path when its row there, should it match, is the file's own entry;
`indexed_scan_eq_iff` says that this is what an indexed scan needs, and `fits_step` that a scan and
every step whose new files the index fits keep it so.

Here a file has the time the kernel reports, in nanoseconds from the epoch; `mtimeParts` is what the
scanner makes of it.
-/

namespace Ciss

/-! ## Files as the kernel reports them -/

/-- The seconds and nanoseconds of an mtime.  Before the epoch the distance is split, and its
seconds negated. -/
def mtimeParts (modified : Int) : Int × Nat :=
  if 0 ≤ modified then (modified / 1000000000, (modified % 1000000000).toNat)
  else (-(-modified / 1000000000), (-modified % 1000000000).toNat)

/-- A regular file: its mode bits, its mtime in nanoseconds from the epoch, its content. -/
structure StatFile where
  mode : Nat
  modified : Int
  bytes : Bytes
  deriving DecidableEq, Repr

/-- The file as the scanner sees it. -/
def StatFile.seen (f : StatFile) : LocalFile :=
  ⟨f.mode, (mtimeParts f.modified).1, (mtimeParts f.modified).2, f.bytes⟩

/-- A directory of files and the index its scans share. -/
structure Indexed where
  files : Std.ExtTreeMap String StatFile compare
  index : Entries

namespace Indexed

/-- What the scanner sees of the directory. -/
def seen (w : Indexed) : LocalFiles := w.files.map fun _ => StatFile.seen

/-- `scan_tree` at this moment. -/
def scan (P : Platform) (w : Indexed) : Entries := scanTree P w.seen

/-- `scan_tree_indexed` at this moment. -/
def scanIndexed (P : Platform) (w : Indexed) : Entries := w.seen.map (scanEntry P w.index)

lemma scanIndexed_eq (P : Platform) (w : Indexed) (d : Device) (hfiles : d.files = w.seen)
    (hindex : d.index = w.index) : scanTreeIndexed P d = w.scanIndexed P := by
  rw [scanTreeIndexed, hfiles, hindex, scanIndexed]

/-- What happens to the directory, and the scans in between. -/
inductive Action where
  | create (path : String) (f : StatFile)
  | edit (path : String) (bytes : Bytes) (modified : Int)
  /-- A permission change; it leaves the mtime. -/
  | chmod (path : String) (mode : Nat)
  /-- A rename; it replaces what is at the destination and leaves the mtime. -/
  | rename (source destination : String)
  | delete (path : String)
  | scan
  deriving DecidableEq

/-- The file an action puts at a path. -/
def puts (w : Indexed) : Action → Option (String × StatFile)
  | .create path f => if w.files.contains path then none else some (path, f)
  | .edit path bytes modified =>
      w.files[path]?.map fun f => (path, { f with bytes := bytes, modified := modified })
  | .chmod path mode => w.files[path]?.map fun f => (path, { f with mode := mode })
  | .rename source destination => w.files[source]?.map fun f => (destination, f)
  | .delete _ => none
  | .scan => none

/-- The path an action takes a file from. -/
def takes : Action → Option String
  | .rename source _ => some source
  | .delete path => some path
  | _ => none

/-- One action. -/
def step (P : Platform) (w : Indexed) (a : Action) : Indexed where
  files :=
    let rest := (takes a).elim w.files w.files.erase
    (w.puts a).elim rest fun x => rest.insert x.1 x.2
  index := if a = .scan then w.index ∪ w.scanIndexed P else w.index

/-- Every content edit changes the file's mtime or its size. -/
def EditMoves (w : Indexed) (a : Action) : Prop :=
  ∀ path bytes modified f, a = .edit path bytes modified → w.files[path]? = some f →
    bytes ≠ f.bytes → modified ≠ f.modified ∨ bytes.length ≠ f.bytes.length

/-- The index row of the path, if it has the file's mtime and size, has its mode and content. -/
def Fits (P : Platform) (index : Entries) (path : String) (f : StatFile) : Prop :=
  ∀ e, index[path]? = some e → (e.mtimeSecs, e.mtimeNanos) = mtimeParts f.modified →
    e.size = f.bytes.length → e.mode = f.mode % 4096 ∧
      e.chunks = (chunkFile P f.bytes).map Prod.fst

/-- The action leaves at no path a file that the index does not fit. -/
def PutsFit (P : Platform) (w : Indexed) (a : Action) : Prop :=
  ∀ path f, w.puts a = some (path, f) → Fits P w.index path f

instance (P : Platform) (index : Entries) (path : String) (f : StatFile) :
    Decidable (Fits P index path f) :=
  inferInstanceAs (Decidable (∀ e ∈ index[path]?, (e.mtimeSecs, e.mtimeNanos) =
    mtimeParts f.modified → e.size = f.bytes.length → e.mode = f.mode % 4096 ∧
      e.chunks = (chunkFile P f.bytes).map Prod.fst))

instance (P : Platform) (w : Indexed) (a : Action) : Decidable (PutsFit P w a) :=
  decidable_of_iff (∀ x ∈ w.puts a, Fits P w.index x.1 x.2)
    ⟨fun h path f hp => h (path, f) hp, fun h x hx => h x.1 x.2 hx⟩

section

variable {P : Platform} {w : Indexed} {path : String} {f : StatFile} {a : Action}

lemma fits_iff {index : Entries} :
    Fits P index path f ↔ scanEntry P index path f.seen = fileEntryFor P f.seen := by
  have hmatch : ∀ e : FileEntry, (e.mtimeSecs = f.seen.mtimeSecs && e.mtimeNanos = f.seen.mtimeNanos
      && e.size = f.seen.bytes.length) = true ↔
        (e.mtimeSecs, e.mtimeNanos) = mtimeParts f.modified ∧ e.size = f.bytes.length := by
    intro e
    simp only [Bool.and_eq_true, decide_eq_true_iff, Prod.ext_iff]
    exact Iff.rfl
  rw [scanEntry, indexLookup]
  cases hrow : index[path]? with
  | none => exact iff_of_true (fun e he => by rw [hrow] at he; cases he) rfl
  | some e =>
      by_cases hm : (e.mtimeSecs, e.mtimeNanos) = mtimeParts f.modified ∧ e.size = f.bytes.length
      · rw [Option.filter_some, if_pos ((hmatch e).2 hm), Option.getD_some]
        constructor
        · intro hfits
          obtain ⟨hmode, hchunks⟩ := hfits e hrow hm.1 hm.2
          obtain ⟨hsecs, hnanos⟩ := Prod.mk.inj hm.1
          cases e
          simp_all [fileEntryFor, StatFile.seen]
        · rintro rfl e' he' - -
          obtain rfl := Option.some.inj (hrow.symm.trans he')
          exact ⟨rfl, rfl⟩
      · rw [Option.filter_some, if_neg fun h => hm ((hmatch e).1 h), Option.getD_none]
        refine iff_of_true (fun e' he' hstamp hsize => absurd ⟨?_, ?_⟩ hm) rfl
        · rw [Option.some.inj (hrow.symm.trans he')]
          exact hstamp
        · rw [Option.some.inj (hrow.symm.trans he')]
          exact hsize

/-- **An indexed scan is exact** where the index fits every file, and only there. -/
theorem indexed_scan_eq_iff :
    w.scanIndexed P = w.scan P ↔
      ∀ path f, w.files[path]? = some f → Fits P w.index path f := by
  have hget : ∀ path : String, (w.scanIndexed P)[path]? =
      w.files[path]?.map fun f : StatFile => scanEntry P w.index path f.seen := by
    intro path
    simp [scanIndexed, seen]
  have hget' : ∀ path : String, (w.scan P)[path]? =
      w.files[path]?.map fun f : StatFile => fileEntryFor P f.seen := by
    intro path
    simp [scan, scanTree, seen]
  constructor
  · intro heq path f hf
    have hentry := congrArg (fun t : Entries => t[path]?) heq
    rw [hget, hget', hf, Option.map_some, Option.map_some, Option.some.injEq] at hentry
    exact fits_iff.2 hentry
  · intro hfits
    refine Std.ExtTreeMap.ext_getElem? fun path => ?_
    rw [hget, hget']
    cases hf : w.files[path]? with
    | none => rfl
    | some f => rw [Option.map_some, Option.map_some, fits_iff.1 (hfits path f hf)]

/-! ## Steps and runs -/

lemma getElem?_step (h : (w.step P a).files[path]? = some f) :
    w.files[path]? = some f ∨ w.puts a = some (path, f) := by
  have htake : ∀ {f}, ((takes a).elim w.files w.files.erase)[path]? = some f →
      w.files[path]? = some f := by
    intro f hf
    cases ht : takes a with
    | none =>
        rw [ht] at hf
        exact hf
    | some source =>
        rw [ht, Option.elim_some, Std.ExtTreeMap.getElem?_erase] at hf
        split at hf
        · cases hf
        · exact hf
  rw [step] at h
  cases hp : w.puts a with
  | none =>
      rw [hp] at h
      exact Or.inl (htake h)
  | some x =>
      rw [hp, Option.elim_some, Std.ExtTreeMap.getElem?_insert] at h
      split at h
      · rename_i hx
        obtain rfl := Std.LawfulEqCmp.eq_of_compare hx
        obtain rfl := Option.some.inj h
        exact Or.inr rfl
      · exact Or.inl (htake h)

/-- The index fits every file. -/
def Fitting (P : Platform) (w : Indexed) : Prop :=
  ∀ path f, w.files[path]? = some f → Fits P w.index path f

lemma Fitting.scan (h : w.Fitting P) : (w.step P .scan).Fitting P := by
  intro path f hf
  have hfile : w.files[path]? = some f := hf
  have hrow : (w.step P .scan).index[path]? = some (fileEntryFor P f.seen) := by
    have hscan : (w.scanIndexed P)[path]? = some (fileEntryFor P f.seen) := by
      rw [indexed_scan_eq_iff.2 h]
      simp [Indexed.scan, scanTree, seen, hfile]
    have hindex : (w.step P .scan).index = w.index ∪ w.scanIndexed P := rfl
    rw [hindex, Std.ExtTreeMap.getElem?_union, hscan]
    rfl
  intro e he _ _
  obtain rfl := Option.some.inj (hrow.symm.trans he)
  exact ⟨rfl, rfl⟩

/-- **One action** whose new files the index fits keeps it fitting. -/
theorem Fitting.step (h : w.Fitting P) (hput : PutsFit P w a) : (w.step P a).Fitting P := by
  by_cases hscan : a = .scan
  · subst hscan
    exact h.scan
  · intro path f hf
    have hindex : (w.step P a).index = w.index := by rw [Indexed.step, if_neg hscan]
    rw [hindex]
    rcases getElem?_step hf with hold | hnew
    · exact h path f hold
    · exact hput path f hnew

/-- **Indexed scans are exact.**  From an empty index, in every run whose actions put only files
that the index fits, an indexed scan returns what a plain scan returns, at every moment. -/
theorem indexed_scans_exact (P : Platform) (files : Std.ExtTreeMap String StatFile compare)
    (acts : List Action) (h : Along (step P) (PutsFit P) ⟨files, ∅⟩ acts) :
    (run (step P) ⟨files, ∅⟩ acts).scanIndexed P = (run (step P) ⟨files, ∅⟩ acts).scan P := by
  refine indexed_scan_eq_iff.2 (run_invariant (fun _ _ hw hput => Fitting.step hw hput) ?_ h)
  intro path f _ e he
  simp at he

end

/-! ### A permission change between two scans -/

/-- The file `one`, edited, moved and moved back between scans, with a new mtime for each
content. -/
def touchedDay : List Action :=
  [.create "f" ⟨33188, 1000000000, asBytes "one"⟩, .scan,
    .edit "f" (asBytes "two") 2000000000, .scan, .rename "f" "g", .scan, .delete "g"]

theorem indexed_scans_exact_touchedDay :
    (run (step TwoDevices.platform) ⟨∅, ∅⟩ touchedDay).scanIndexed TwoDevices.platform =
      (run (step TwoDevices.platform) ⟨∅, ∅⟩ touchedDay).scan TwoDevices.platform :=
  indexed_scans_exact _ _ _ (by decide +kernel)

/-- A file is scanned, and then made private. -/
def madePrivate : List Action :=
  [.create "f" ⟨33188, 1000000000, asBytes "one"⟩, .scan, .chmod "f" 33152]

/-- The index still reports it as readable by all. -/
theorem indexed_scan_misses_chmod :
    ¬ ∀ (P : Platform) (files : Std.ExtTreeMap String StatFile compare) (acts : List Action),
      Along (step P) EditMoves ⟨files, ∅⟩ acts →
      (run (step P) ⟨files, ∅⟩ acts).scanIndexed P = (run (step P) ⟨files, ∅⟩ acts).scan P := by
  intro hclaim
  have heq := hclaim TwoDevices.platform ∅ madePrivate (by
    simp [madePrivate, EditMoves])
  exact absurd heq (by decide +kernel)

end Indexed

end Ciss
