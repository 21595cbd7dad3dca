import Ciss.Sync.Transfer

/-!
# The local footprint

A file can be evicted: its bytes leave the disk and its entry stays as a placeholder, so that the
logical tree does not shrink.  Hydration brings the bytes back and drops the placeholder.

`evict` looks once at the have-set and at the committed keep-set, and then takes one path after
the other; the spill into the chunk cache is an optimization and is left to the cache.

Scan index and placeholders hold entries that were read off a file's bytes at some time and
nothing else (`Recorded`).  An `Install` is a device with that property; the operations keep it
(`Recorded.logicalTree`, `Recorded.evict`, `Recorded.hydrate`).
-/

namespace Ciss

/-! ## Eviction -/

/-- What an eviction did. -/
structure EvictReport where
  evicted : Nat
  bytesFreed : Nat
  deriving DecidableEq, Repr

/-- Evict one file: every chunk of its current bytes must be in the have-set and in the keep-set;
then the placeholder is recorded, and the file removed unless the disk refuses. -/
def evictFile (P : Platform) (haveSet keep : String → Bool) (stuck : String → Bool) (path : String)
    (d : Device) : Device × Except SyncError Nat :=
  match d.files[path]? with
  | none => (d, .error (.io path))
  | some f =>
      let entry := fileEntryFor P f
      let missing := (entry.chunks.map ChunkRef.sha256).filter fun c => !haveSet c || !keep c
      if missing ≠ [] then (d, .error (.evictUnbacked path missing))
      else
        let d := { d with placeholders := d.placeholders.insert path entry }
        if stuck path then (d, .error (.io path))
        else ({ d with files := d.files.erase path }, .ok entry.size)

/-- Evict the paths in order, up to the first refusal. -/
def evict (P : Platform) (haveSet keep : String → Bool) (stuck : String → Bool) :
    List String → Device → Device × Except SyncError EvictReport
  | [], d => (d, .ok ⟨0, 0⟩)
  | path :: paths, d =>
      match evictFile P haveSet keep stuck path d with
      | (d, .error e) => (d, .error e)
      | (d, .ok size) =>
          match evict P haveSet keep stuck paths d with
          | (d, .error e) => (d, .error e)
          | (d, .ok r) => (d, .ok ⟨r.evicted + 1, r.bytesFreed + size⟩)

/-- The addresses of the committed keep-set; an account without a manifest keeps nothing. -/
def SyncServer.keepSet (s : SyncServer) (cid : String) : Bool :=
  (s.frontier.elim [] FrontierView.leaves).any fun x => x.1 = cid

/-! ## Hydration -/

/-- What a hydration did. -/
structure HydrateReport where
  files : Nat
  bytesWritten : Nat
  deriving DecidableEq, Repr

/-- Hydrate one file; the placeholder is dropped after the file has landed. -/
def hydrateFile (P : Platform) (env : SyncEnv) (s : SyncServer) (path : String) (d : Device) :
    Device × Except SyncError Nat :=
  match d.placeholders[path]? with
  | none => (d, .error (.noPlaceholder path))
  | some entry =>
      if d.files.contains path then (d, .error (.hydrateWouldOverwrite path))
      else
        match fetchContent P d s entry with
        | .error e => (d, .error e)
        | .ok content =>
            match writeVerifiedFile env path entry content d.files with
            | (files, .error e) => ({ d with files := files }, .error e)
            | (files, .ok ()) =>
                ({ d with files := files, placeholders := d.placeholders.erase path },
                  .ok entry.size)

/-- Hydrate the paths in order, up to the first failure. -/
def hydrate (P : Platform) (env : SyncEnv) (s : SyncServer) :
    List String → Device → Device × Except SyncError HydrateReport
  | [], d => (d, .ok ⟨0, 0⟩)
  | path :: paths, d =>
      match hydrateFile P env s path d with
      | (d, .error e) => (d, .error e)
      | (d, .ok size) =>
          match hydrate P env s paths d with
          | (d, .error e) => (d, .error e)
          | (d, .ok r) => (d, .ok ⟨r.files + 1, r.bytesWritten + size⟩)

/-- `hydrate` without a list of paths takes every placeholder. -/
def hydrateTargets (d : Device) (paths : Option (List String)) : List String :=
  paths.getD d.placeholders.keys

/-! ## One path after the other -/

section

variable {P : Platform} {d : Device} {I : Device → Prop}

/-- What the eviction of one file keeps, an eviction keeps, also one that stops halfway. -/
lemma evict_preserves {haveSet keep stuck : String → Bool}
    (hfile : ∀ (path : String) (d : Device), I d → I (evictFile P haveSet keep stuck path d).1)
    (h : I d) (paths : List String) : I (evict P haveSet keep stuck paths d).1 := by
  induction paths generalizing d with
  | nil => exact h
  | cons path paths ih =>
      have hone := hfile path d h
      unfold evict
      rcases he : evictFile P haveSet keep stuck path d with ⟨d₁, e | size⟩
      · rwa [he] at hone
      · rw [he] at hone
        have hrest := ih hone
        dsimp only at hrest ⊢
        rcases hr : evict P haveSet keep stuck paths d₁ with ⟨d₂, e | r⟩
        · rwa [hr] at hrest
        · rwa [hr] at hrest

/-- What the hydration of one file keeps, a hydration keeps. -/
lemma hydrate_preserves {env : SyncEnv} {s : SyncServer}
    (hfile : ∀ (path : String) (d : Device), I d → I (hydrateFile P env s path d).1)
    (h : I d) (paths : List String) : I (hydrate P env s paths d).1 := by
  induction paths generalizing d with
  | nil => exact h
  | cons path paths ih =>
      have hone := hfile path d h
      unfold hydrate
      rcases he : hydrateFile P env s path d with ⟨d₁, e | size⟩
      · rwa [he] at hone
      · rw [he] at hone
        have hrest := ih hone
        dsimp only at hrest ⊢
        rcases hr : hydrate P env s paths d₁ with ⟨d₂, e | r⟩
        · rwa [hr] at hrest
        · rwa [hr] at hrest

end

/-! ## Entries that were read -/

/-- The entry was read off a file. -/
def FileEntry.Read (P : Platform) (e : FileEntry) : Prop := ∃ f : LocalFile, e = fileEntryFor P f

/-- Every entry of the index and every placeholder was read off a file. -/
structure Device.Recorded (P : Platform) (d : Device) : Prop where
  index : ∀ (path : String) (e : FileEntry), d.index[path]? = some e → e.Read P
  placeholders : ∀ (path : String) (e : FileEntry), d.placeholders[path]? = some e → e.Read P

/-- A device whose state was written by the sync engine. -/
structure Install (P : Platform) where
  device : Device
  recorded : device.Recorded P

section

variable {P : Platform} {d d' : Device} {path : String} {e : FileEntry}

lemma scanEntry_read (h : d.Recorded P) (f : LocalFile) : (scanEntry P d.index path f).Read P := by
  unfold scanEntry
  rcases hi : indexLookup d.index path f with _ | e
  · exact ⟨f, rfl⟩
  · exact h.index path e (Option.filter_eq_some_iff.mp hi).1

lemma scanTreeIndexed_read (h : d.Recorded P) (he : (scanTreeIndexed P d)[path]? = some e) :
    e.Read P := by
  have hscan : (scanTreeIndexed P d)[path]? = d.files[path]?.map (scanEntry P d.index path) := by
    simp [scanTreeIndexed]
  rw [hscan] at he
  obtain ⟨f, -, rfl⟩ := Option.map_eq_some_iff.mp he
  exact scanEntry_read h f

/-- Every entry of the logical tree was read off a file. -/
lemma logicalTreeWith_read (h : d.Recorded P) {opened : Bool}
    (he : (logicalTreeWith P opened d).1.entries[path]? = some e) : e.Read P := by
  unfold logicalTreeWith at he
  split at he
  · rw [logicalTree_getElem?, Device.entryAt] at he
    rcases Option.or_eq_some_iff.mp he with he | ⟨-, he⟩
    · obtain ⟨f, -, rfl⟩ := Option.map_eq_some_iff.mp he
      exact scanEntry_read h f
    · exact h.placeholders path e he
  · have hscan : (scanTree P d.files)[path]? = d.files[path]?.map (fileEntryFor P) := by
      simp [scanTree]
    rw [hscan] at he
    obtain ⟨f, -, rfl⟩ := Option.map_eq_some_iff.mp he
    exact ⟨f, rfl⟩

/-! ### The operations keep the records -/

lemma Device.Recorded.logicalTree (h : d.Recorded P) : (logicalTree P d).2.Recorded P where
  index := by
    intro path e he
    change (d.index ∪ scanTreeIndexed P d)[path]? = some e at he
    rw [Std.ExtTreeMap.getElem?_union] at he
    rcases Option.or_eq_some_iff.mp he with he | ⟨-, he⟩
    · exact scanTreeIndexed_read h he
    · exact h.index path e he
  placeholders := by
    intro path e he
    change (d.placeholders.filter fun path _ => !(scanTreeIndexed P d).contains path)[path]? =
      some e at he
    rw [Std.ExtTreeMap.getElem?_filter'] at he
    exact h.placeholders path e (Option.filter_eq_some_iff.mp he).1

lemma Device.Recorded.logicalTreeWith (h : d.Recorded P) (opened : Bool) :
    (logicalTreeWith P opened d).2.Recorded P := by
  unfold Ciss.logicalTreeWith
  split
  · exact h.logicalTree
  · exact h

lemma Device.Recorded.withFiles (h : d.Recorded P) (files : LocalFiles) :
    Device.Recorded P { d with files := files } := ⟨h.index, h.placeholders⟩

lemma Device.Recorded.evictFile {haveSet keep stuck : String → Bool} (h : d.Recorded P)
    (path : String) : (evictFile P haveSet keep stuck path d).1.Recorded P := by
  unfold Ciss.evictFile
  split
  · exact h
  · rename_i f _
    dsimp only
    split
    · exact h
    · have hrec : Device.Recorded P
          { d with placeholders := d.placeholders.insert path (fileEntryFor P f) } := by
        refine ⟨h.index, ?_⟩
        intro p e he
        rw [Std.ExtTreeMap.getElem?_insert] at he
        split at he
        · exact ⟨f, (Option.some.inj he).symm⟩
        · exact h.placeholders p e he
      split
      · exact hrec
      · exact hrec.withFiles _

lemma Device.Recorded.evict {haveSet keep stuck : String → Bool} (h : d.Recorded P)
    (paths : List String) : (evict P haveSet keep stuck paths d).1.Recorded P :=
  evict_preserves (fun path _ h => h.evictFile path) h paths

lemma Device.Recorded.hydrateFile {env : SyncEnv} {s : SyncServer} (h : d.Recorded P)
    (path : String) : (hydrateFile P env s path d).1.Recorded P := by
  unfold Ciss.hydrateFile
  split
  · exact h
  · split
    · exact h
    · split
      · exact h
      · split
        · exact h.withFiles _
        · refine ⟨h.index, ?_⟩
          intro p e he
          rw [Std.ExtTreeMap.getElem?_erase] at he
          split at he
          · simp at he
          · exact h.placeholders p e he

lemma Device.Recorded.hydrate {env : SyncEnv} {s : SyncServer} (h : d.Recorded P)
    (paths : List String) : (hydrate P env s paths d).1.Recorded P :=
  hydrate_preserves (fun path _ h => h.hydrateFile path) h paths

end

end Ciss
