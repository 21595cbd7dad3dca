import Mathlib.Data.List.MinMax
import Mathlib.Algebra.Order.BigOperators.Group.List
import Ciss.Framework.HashTable
import Ciss.Framework.Machine
import Ciss.Sync.Manifest

/-!
# The chunk cache

`ChunkCache` keeps blobs as files named by their address and a row for each in the table `chunks`:
its size, a counter that says when it was used last, and whether it is pinned.  An insert is
admitted by the pinned bytes, takes the next counter, and then evicts unpinned rows in the order of
their counters until the total fits the budget; a get refreshes the counter.

`CacheWorld.used` notes the time of each blob's last use beside the cache, and `Tidy` is the
invariant of every run: rows are unique, their sizes are those of their files, the total fits the
budget, and the counters order the rows as their last uses do.  `Evicts` says what one insert
removes.

An insert is meant to return whether the bytes ended up cached.  It counts a blob that is already
there and pinned against itself, so it may refuse to insert what it keeps
(`reinsert_of_pinned_returns_false`); `chunk_cache_invariants` says that it is right in every other
case.
-/

namespace Ciss

/-! ## The table -/

/-- A row of `chunks`. -/
structure CacheRow where
  cid : String
  size : Nat
  accessSeq : Nat
  pinned : Bool
  deriving DecidableEq, Repr

/-- The sum of the sizes of rows. -/
def sizes (rows : List CacheRow) : Nat := (rows.map CacheRow.size).sum

/-- A content-addressed blob cache with a byte budget. -/
structure ChunkCache where
  rows : List CacheRow
  /-- The blobs on disk, by their names. -/
  files : String → Option Bytes
  budget : Nat

namespace ChunkCache

variable (c : ChunkCache)

/-- An empty cache. -/
def empty (budget : Nat) : ChunkCache := ⟨[], fun _ => none, budget⟩

/-- Bytes currently accounted to the cache. -/
def totalBytes : Nat := sizes c.rows

/-- Bytes of pinned entries. -/
def pinnedBytes : Nat := sizes (c.rows.filter CacheRow.pinned)

/-- The counter for the next use. -/
def nextSeq : Nat := (c.rows.map CacheRow.accessSeq).foldr max 0 + 1

/-- Insert a row, or refresh the size and the counter of the one that is there. -/
def upsertRow (rows : List CacheRow) (cid : String) (size seq : Nat) : List CacheRow :=
  if rows.any (·.cid = cid) then
    rows.map fun r => if r.cid = cid then { r with size := size, accessSeq := seq } else r
  else rows ++ [⟨cid, size, seq, false⟩]

/-- The least recently used unpinned entry. -/
def victim : Option CacheRow :=
  (c.rows.filter fun r => !r.pinned).argmin CacheRow.accessSeq

/-- Delete an entry, its file and its row. -/
def remove (cid : String) : ChunkCache :=
  { c with
    rows := c.rows.filter (·.cid ≠ cid)
    files := Function.update c.files cid none }

/-- Evict until the total fits the budget, for at most `fuel` entries. -/
def evictLoop : Nat → ChunkCache → ChunkCache
  | 0, c => c
  | fuel + 1, c =>
      if c.totalBytes > c.budget then
        match c.victim with
        | none => c
        | some r => evictLoop fuel (c.remove r.cid)
      else c

/-- Evict least recently used unpinned entries until the total fits the budget: each round removes
a row. -/
def evictToBudget : ChunkCache := evictLoop c.rows.length c

/-- Store `bytes` under `cid` if the budget allows; returns whether it did. -/
def insert (cid : String) (bytes : Bytes) : ChunkCache × Bool :=
  let len := bytes.length
  if len > c.budget ∨ len + c.pinnedBytes > c.budget then (c, false)
  else
    let stored : ChunkCache :=
      { c with
        files := Function.update c.files cid (some bytes)
        rows := upsertRow c.rows cid len c.nextSeq }
    (stored.evictToBudget, true)

/-- Fetch a blob if it is cached and intact; a hit refreshes its counter. -/
def get (C : Crypto) (cid : String) : ChunkCache × Option Bytes :=
  if c.rows.any (·.cid = cid) then
    match c.files cid with
    | none => (c.remove cid, none)
    | some bytes =>
        match verifyContent C cid bytes with
        | .error _ => (c.remove cid, none)
        | .ok () =>
            ({ c with
                rows := c.rows.map fun r =>
                  if r.cid = cid then { r with accessSeq := c.nextSeq } else r }, some bytes)
  else (c, none)

/-- Set or clear the pin of an entry; returns whether there is one. -/
def setPinned (cid : String) (pinned : Bool) : ChunkCache × Bool :=
  ({ c with rows := c.rows.map fun r => if r.cid = cid then { r with pinned := pinned } else r },
    c.rows.any (·.cid = cid))

/-- Pin an entry. -/
def pin (cid : String) : ChunkCache × Bool := c.setPinned cid true

/-- Unpin an entry. -/
def unpin (cid : String) : ChunkCache × Bool := c.setPinned cid false

end ChunkCache

/-! ## The machine -/

/-- An operation on the cache. -/
inductive CacheAction where
  | insert (cid : String) (bytes : Bytes)
  | get (cid : String)
  | pin (cid : String)
  | unpin (cid : String)

/-- The cache, the number of operations so far, and when each blob was used last. -/
structure CacheWorld where
  cache : ChunkCache
  clock : Nat
  used : String → Nat

/-- An empty cache. -/
def CacheWorld.init (budget : Nat) : CacheWorld := ⟨.empty budget, 0, fun _ => 0⟩

/-- One operation; storing a blob and a hit use it. -/
def CacheWorld.step (C : Crypto) (w : CacheWorld) : CacheAction → CacheWorld
  | .insert cid bytes =>
      let (cache, stored) := w.cache.insert cid bytes
      { cache := cache
        clock := w.clock + 1
        used := if stored then Function.update w.used cid w.clock else w.used }
  | .get cid =>
      let (cache, hit) := w.cache.get C cid
      { cache := cache
        clock := w.clock + 1
        used := if hit.isSome then Function.update w.used cid w.clock else w.used }
  | .pin cid => { w with cache := (w.cache.pin cid).1, clock := w.clock + 1 }
  | .unpin cid => { w with cache := (w.cache.unpin cid).1, clock := w.clock + 1 }

/-- What is inserted is addressed by its hash. -/
def Addressed (C : Crypto) : CacheAction → Prop
  | .insert cid bytes => C.sha256Hex bytes = cid
  | _ => True

/-! ## Eviction -/

section

variable {c c' : ChunkCache} {r r' : CacheRow} {rows : List CacheRow}

lemma sizes_cons : sizes (r :: rows) = r.size + sizes rows := by
  rw [sizes, List.map_cons, List.sum_cons]
  rfl

lemma sizes_filter_le (p : CacheRow → Bool) : sizes (rows.filter p) ≤ sizes rows := by
  induction rows with
  | nil => simp [sizes]
  | cons r rows ih =>
      cases hr : p r with
      | false =>
          rw [List.filter_cons_of_neg (by simp [hr]), sizes_cons]
          omega
      | true =>
          rw [List.filter_cons_of_pos hr, sizes_cons, sizes_cons]
          omega

/-- The rows without one row. -/
lemma sizes_filter_ne (hcids : (rows.map CacheRow.cid).Nodup) (hr : r ∈ rows) :
    sizes (rows.filter (·.cid ≠ r.cid)) + r.size = sizes rows := by
  induction rows with
  | nil => cases hr
  | cons r' rows ih =>
      rw [List.map_cons, List.nodup_cons] at hcids
      obtain rfl | hmem := List.mem_cons.mp hr
      · have hrest : rows.filter (·.cid ≠ r.cid) = rows := by
          refine List.filter_eq_self.mpr fun x hx => decide_eq_true ?_
          exact fun hsame => hcids.1 (hsame ▸ List.mem_map_of_mem hx)
        rw [List.filter_cons_of_neg (by simp), hrest, sizes_cons]
        omega
      · have hne : r'.cid ≠ r.cid := fun hsame => hcids.1 (hsame ▸ List.mem_map_of_mem hmem)
        have hrest := ih hcids.2 hmem
        rw [List.filter_cons_of_pos (by simpa using hne), sizes_cons, sizes_cons]
        omega

/-- No two rows share an address or a counter. -/
structure Distinct (rows : List CacheRow) : Prop where
  cids : (rows.map CacheRow.cid).Nodup
  seqs : (rows.map CacheRow.accessSeq).Nodup

lemma Distinct.filter (h : Distinct rows) (p : CacheRow → Bool) : Distinct (rows.filter p) where
  cids := h.cids.sublist (List.filter_sublist.map _)
  seqs := h.seqs.sublist (List.filter_sublist.map _)

lemma Distinct.eq_of_cid (h : Distinct rows) (hr : r ∈ rows) (hr' : r' ∈ rows)
    (hcid : r.cid = r'.cid) : r = r' :=
  List.inj_on_of_nodup_map h.cids hr hr' hcid

lemma Distinct.eq_of_accessSeq (h : Distinct rows) (hr : r ∈ rows) (hr' : r' ∈ rows)
    (hseq : r.accessSeq = r'.accessSeq) : r = r' :=
  List.inj_on_of_nodup_map h.seqs hr hr' hseq

/-- The victim is an unpinned row, and no unpinned row was used before it. -/
lemma victim_spec (h : c.victim = some r) : r ∈ c.rows ∧ r.pinned = false ∧
    ∀ r' ∈ c.rows, r'.pinned = false → r.accessSeq ≤ r'.accessSeq := by
  have hmem := List.mem_filter.mp (List.argmin_mem h)
  refine ⟨hmem.1, by simpa using hmem.2, ?_⟩
  intro r' hr' hpinned
  exact List.le_of_mem_argmin (List.mem_filter.mpr ⟨hr', by simp [hpinned]⟩) h

/-- Without a victim everything is pinned. -/
lemma pinned_of_victim_eq_none (h : c.victim = none) : ∀ r ∈ c.rows, r.pinned = true := by
  intro r hr
  have hnil := List.argmin_eq_none.mp h
  by_contra hpinned
  have hmem : r ∈ c.rows.filter fun r => !r.pinned :=
    List.mem_filter.mpr ⟨hr, by simpa using hpinned⟩
  rw [hnil] at hmem
  cases hmem

/-- The row stays when everything unpinned before `seq` goes. -/
def keeps (seq : Nat) (r : CacheRow) : Bool := r.pinned || decide (seq ≤ r.accessSeq)

/-- Removing the victim removes what was used before the counter behind it. -/
lemma remove_victim_rows (hdist : Distinct c.rows) (h : c.victim = some r) :
    (c.remove r.cid).rows = c.rows.filter (keeps (r.accessSeq + 1)) := by
  obtain ⟨hr, hpinned, hleast⟩ := victim_spec h
  refine List.filter_congr fun r' hr' => ?_
  rw [keeps]
  by_cases hcid : r'.cid = r.cid
  · obtain rfl := hdist.eq_of_cid hr' hr hcid
    simp [hpinned]
  · cases hpinned' : r'.pinned with
    | true => simp [hcid]
    | false =>
        have hle := hleast r' hr' hpinned'
        have hne : r.accessSeq ≠ r'.accessSeq := by
          intro hseq
          exact hcid (congrArg CacheRow.cid (hdist.eq_of_accessSeq hr' hr hseq.symm))
        have hlt : r.accessSeq + 1 ≤ r'.accessSeq := by omega
        simp [hcid, hlt]

/-- What eviction does: what is unpinned goes in the order of its counters, until the total fits or
everything left is pinned, and the last that went was needed. -/
structure Evicts (c c' : ChunkCache) : Prop where
  budget : c'.budget = c.budget
  fits : c'.totalBytes ≤ c.budget ∨ ∀ r ∈ c'.rows, r.pinned = true
  rows : ∃ seq, c'.rows = c.rows.filter (keeps seq)
  needed : ∀ r ∈ c.rows, r ∉ c'.rows →
    (∀ r' ∈ c.rows, r' ∉ c'.rows → r'.accessSeq ≤ r.accessSeq) → c.budget < c'.totalBytes + r.size
  files : ∀ r ∈ c'.rows, c'.files r.cid = c.files r.cid

lemma evicts_refl (h : c.totalBytes ≤ c.budget ∨ ∀ r ∈ c.rows, r.pinned = true) : Evicts c c where
  budget := rfl
  fits := h
  rows := ⟨0, (List.filter_eq_self.mpr fun r _ => by simp [keeps]).symm⟩
  needed _ hr hr' := absurd hr hr'
  files _ _ := rfl

/-- One round of eviction in front of others. -/
lemma Evicts.remove (hdist : Distinct c.rows) (hover : c.totalBytes > c.budget)
    (hvictim : c.victim = some r) (h : Evicts (c.remove r.cid) c') : Evicts c c' := by
  obtain ⟨hr, hpinned, hleast⟩ := victim_spec hvictim
  have hrows := remove_victim_rows hdist hvictim
  obtain ⟨seq, hseq⟩ := h.rows
  rw [hrows, List.filter_filter] at hseq
  have hsub : ∀ r' ∈ c'.rows, r' ∈ (c.remove r.cid).rows := by
    intro r' hr'
    rw [hseq] at hr'
    rw [hrows]
    simp only [List.mem_filter, Bool.and_eq_true] at hr' ⊢
    exact ⟨hr'.1, hr'.2.2⟩
  have hgone : r ∉ c'.rows := by
    intro hin
    have hcid := (List.mem_filter.mp (hsub r hin)).2
    simp at hcid
  refine ⟨h.budget, h.fits, ⟨max seq (r.accessSeq + 1), ?_⟩, ?_, ?_⟩
  · rw [hseq]
    refine List.filter_congr fun r' _ => ?_
    cases hp : r'.pinned with
    | true => simp [keeps, hp]
    | false => simp [keeps, hp]
  · intro e he hout hlast
    by_cases hevicted : ∃ r' ∈ (c.remove r.cid).rows, r' ∉ c'.rows
    · -- a later round removed something, and the last row went in it
      obtain ⟨r', hr', hout'⟩ := hevicted
      have hafter : r.accessSeq + 1 ≤ r'.accessSeq := by
        have hkeeps := (List.mem_filter.mp (hrows ▸ hr')).2
        by_contra hlt
        have hpin : r'.pinned = true := by simpa [keeps, hlt] using hkeeps
        exact hout' (by rw [hseq]; simp [keeps, hpin, (List.mem_filter.mp hr').1])
      have hle := hlast r' (List.mem_filter.mp hr').1 hout'
      have hmem : e ∈ (c.remove r.cid).rows := by
        refine List.mem_filter.mpr ⟨he, ?_⟩
        simp only [ne_eq, decide_not, Bool.not_eq_eq_eq_not, Bool.not_true, decide_eq_false_iff_not]
        intro hcid
        obtain rfl := hdist.eq_of_cid he hr hcid
        omega
      exact h.needed e hmem hout fun x hx hxout => hlast x (List.mem_filter.mp hx).1 hxout
    · -- nothing went after the victim
      have hall : ∀ r' ∈ (c.remove r.cid).rows, r' ∈ c'.rows := by
        intro r' hr'
        by_contra hout'
        exact hevicted ⟨r', hr', hout'⟩
      have hsame : e.cid = r.cid := by
        by_contra hne
        exact hout (hall e (List.mem_filter.mpr ⟨he, by simpa using hne⟩))
      obtain rfl := hdist.eq_of_cid he hr hsame
      have hrest : c'.rows = (c.remove e.cid).rows := by
        rw [hseq, hrows]
        rw [hrows] at hall
        refine List.filter_congr fun r' hr' => ?_
        cases hk : keeps (e.accessSeq + 1) r' with
        | false => simp
        | true =>
            have hin := hall r' (List.mem_filter.mpr ⟨hr', hk⟩)
            rw [hseq] at hin
            have hboth := (List.mem_filter.mp hin).2
            rw [hk] at hboth
            exact hboth
      have htotal : c'.totalBytes + e.size = c.totalBytes := by
        rw [ChunkCache.totalBytes, hrest]
        exact sizes_filter_ne hdist.cids hr
      omega
  · intro r' hr'
    rw [h.files r' hr']
    have hcid := (List.mem_filter.mp (hsub r' hr')).2
    exact Function.update_of_ne (by simpa using hcid) _ _

lemma evictLoop_evicts {fuel : Nat} (hdist : Distinct c.rows) (hfuel : c.rows.length ≤ fuel) :
    Evicts c (ChunkCache.evictLoop fuel c) := by
  induction fuel generalizing c with
  | zero =>
      have hnil : c.rows = [] := List.length_eq_zero_iff.mp (by omega)
      refine evicts_refl (Or.inr ?_)
      rw [hnil]
      intro r hr
      cases hr
  | succ fuel ih =>
      rw [ChunkCache.evictLoop]
      split_ifs with hover
      · cases hvictim : c.victim with
        | none => exact evicts_refl (Or.inr (pinned_of_victim_eq_none hvictim))
        | some r =>
            have hr := (victim_spec hvictim).1
            have hlt : (c.remove r.cid).rows.length < c.rows.length := by
              refine List.length_filter_lt_length_iff_exists.mpr ⟨r, hr, ?_⟩
              simp
            exact Evicts.remove hdist hover hvictim (ih (hdist.filter _) (by omega))
      · exact evicts_refl (Or.inl (by omega))

/-! ## A row that is stored or refreshed -/

/-- Whether the entry is there and pinned. -/
def pinnedAt (rows : List CacheRow) (cid : String) : Bool :=
  rows.any fun r => r.cid = cid && r.pinned

variable {cid : String} {size seq : Nat}

lemma pinnedAt_of_mem (hdist : Distinct rows) (hr : r ∈ rows) : pinnedAt rows r.cid = r.pinned := by
  rw [Bool.eq_iff_iff, pinnedAt, List.any_eq_true]
  constructor
  · rintro ⟨r', hr', hboth⟩
    rw [Bool.and_eq_true, decide_eq_true_eq] at hboth
    rw [← hdist.eq_of_cid hr' hr hboth.1]
    exact hboth.2
  · intro hpinned
    exact ⟨r, hr, by simp [hpinned]⟩

lemma accessSeq_lt_nextSeq (hr : r ∈ c.rows) : r.accessSeq < c.nextSeq := by
  have hle := List.le_max_of_le' 0 (List.mem_map_of_mem (f := CacheRow.accessSeq) hr) le_rfl
  rw [ChunkCache.nextSeq]
  omega

lemma upsertRow_of_mem (h : ∃ r ∈ rows, r.cid = cid) :
    ChunkCache.upsertRow rows cid size seq =
      rows.map fun r => if r.cid = cid then { r with size := size, accessSeq := seq } else r := by
  rw [ChunkCache.upsertRow, if_pos]
  obtain ⟨r, hr, hcid⟩ := h
  exact List.any_eq_true.mpr ⟨r, hr, by simpa using hcid⟩

lemma upsertRow_of_not_mem (h : ∀ r ∈ rows, r.cid ≠ cid) :
    ChunkCache.upsertRow rows cid size seq = rows ++ [⟨cid, size, seq, false⟩] := by
  rw [ChunkCache.upsertRow, if_neg]
  intro hany
  obtain ⟨r, hr, hcid⟩ := List.any_eq_true.mp hany
  exact h r hr (by simpa using hcid)

/-- The rows once an entry is stored: the others, and its own. -/
lemma mem_upsertRow (hdist : Distinct rows) : r ∈ ChunkCache.upsertRow rows cid size seq ↔
    (r ∈ rows ∧ r.cid ≠ cid) ∨ r = ⟨cid, size, seq, pinnedAt rows cid⟩ := by
  by_cases hin : ∃ r ∈ rows, r.cid = cid
  · rw [upsertRow_of_mem hin, List.mem_map]
    constructor
    · rintro ⟨x, hx, rfl⟩
      split_ifs with hcid
      · right
        rw [← hcid, pinnedAt_of_mem hdist hx]
      · exact Or.inl ⟨hx, hcid⟩
    · rintro (⟨hr, hcid⟩ | rfl)
      · exact ⟨r, hr, if_neg hcid⟩
      · obtain ⟨x, hx, rfl⟩ := hin
        exact ⟨x, hx, by rw [if_pos rfl, pinnedAt_of_mem hdist hx]⟩
  · have hnone : ∀ r ∈ rows, r.cid ≠ cid := fun r hr hcid => hin ⟨r, hr, hcid⟩
    have hpinned : pinnedAt rows cid = false := by
      rw [pinnedAt, List.any_eq_false]
      intro r hr
      simp [hnone r hr]
    rw [upsertRow_of_not_mem hnone, List.mem_append, List.mem_singleton, hpinned]
    constructor
    · rintro (hr | hnew)
      · exact Or.inl ⟨hr, hnone r hr⟩
      · exact Or.inr hnew
    · rintro (⟨hr, -⟩ | hnew)
      · exact Or.inl hr
      · exact Or.inr hnew

/-- The counter of the stored row is new. -/
lemma Distinct.upsertRow (hdist : Distinct rows) (hseq : ∀ r ∈ rows, r.accessSeq < seq) :
    Distinct (ChunkCache.upsertRow rows cid size seq) := by
  by_cases hin : ∃ r ∈ rows, r.cid = cid
  · rw [upsertRow_of_mem hin]
    have hcid : ∀ r : CacheRow,
        (if r.cid = cid then { r with size := size, accessSeq := seq } else r).cid = r.cid := by
      intro r
      split_ifs
      · rfl
      · rfl
    refine ⟨?_, ?_⟩
    · rw [List.map_map]
      refine Eq.subst (motive := List.Nodup) ?_ hdist.cids
      exact List.map_congr_left fun r _ => (hcid r).symm
    · rw [List.map_map]
      refine List.Nodup.map_on ?_ hdist.cids.of_map
      intro x hx y hy hxy
      by_cases hxcid : x.cid = cid
      · by_cases hycid : y.cid = cid
        · exact hdist.eq_of_cid hx hy (hxcid.trans hycid.symm)
        · simp only [Function.comp_apply, if_pos hxcid, if_neg hycid] at hxy
          have hlt := hseq y hy
          omega
      · by_cases hycid : y.cid = cid
        · simp only [Function.comp_apply, if_neg hxcid, if_pos hycid] at hxy
          have hlt := hseq x hx
          omega
        · simp only [Function.comp_apply, if_neg hxcid, if_neg hycid] at hxy
          exact hdist.eq_of_accessSeq hx hy hxy
  · have hnone : ∀ r ∈ rows, r.cid ≠ cid := fun r hr hcid => hin ⟨r, hr, hcid⟩
    rw [upsertRow_of_not_mem hnone]
    refine ⟨?_, ?_⟩
    · rw [List.map_append, List.nodup_append]
      refine ⟨hdist.cids, by simp, ?_⟩
      intro x hx y hy
      obtain ⟨r, hr, rfl⟩ := List.mem_map.mp hx
      rw [List.map_singleton, List.mem_singleton] at hy
      rw [hy]
      exact hnone r hr
    · rw [List.map_append, List.nodup_append]
      refine ⟨hdist.seqs, by simp, ?_⟩
      intro x hx y hy
      obtain ⟨r, hr, rfl⟩ := List.mem_map.mp hx
      rw [List.map_singleton, List.mem_singleton] at hy
      rw [hy]
      have hlt := hseq r hr
      show r.accessSeq ≠ seq
      omega

/-- The other rows stay. -/
lemma filter_ne_upsertRow :
    (ChunkCache.upsertRow rows cid size seq).filter (·.cid ≠ cid) = rows.filter (·.cid ≠ cid) := by
  by_cases hin : ∃ r ∈ rows, r.cid = cid
  · rw [upsertRow_of_mem hin]
    clear hin
    induction rows with
    | nil => rfl
    | cons r rows ih =>
        rw [List.map_cons]
        by_cases hcid : r.cid = cid
        · rw [if_pos hcid, List.filter_cons_of_neg (by simpa using hcid),
            List.filter_cons_of_neg (by simpa using hcid)]
          exact ih
        · rw [if_neg hcid, List.filter_cons_of_pos (by simpa using hcid),
            List.filter_cons_of_pos (by simpa using hcid), ih]
  · rw [upsertRow_of_not_mem fun r hr hcid => hin ⟨r, hr, hcid⟩, List.filter_append]
    simp

/-- The pinned bytes grow by the stored row at most, and only if its entry is pinned. -/
lemma sizes_pinned_upsertRow (hdist : Distinct rows) (hseq : ∀ r ∈ rows, r.accessSeq < seq) :
    sizes ((ChunkCache.upsertRow rows cid size seq).filter CacheRow.pinned) ≤
      sizes (rows.filter CacheRow.pinned) + if pinnedAt rows cid then size else 0 := by
  have hU : Distinct (ChunkCache.upsertRow rows cid size seq) := hdist.upsertRow hseq
  have hothers : sizes (((ChunkCache.upsertRow rows cid size seq).filter CacheRow.pinned).filter
      (·.cid ≠ cid)) ≤ sizes (rows.filter CacheRow.pinned) := by
    rw [List.filter_comm, filter_ne_upsertRow, List.filter_comm]
    exact sizes_filter_le _
  cases hpinned : pinnedAt rows cid with
  | false =>
      have hself : ((ChunkCache.upsertRow rows cid size seq).filter CacheRow.pinned).filter
          (·.cid ≠ cid) = (ChunkCache.upsertRow rows cid size seq).filter CacheRow.pinned := by
        refine List.filter_eq_self.mpr fun r hr => ?_
        obtain ⟨hmem, hpin⟩ := List.mem_filter.mp hr
        obtain ⟨-, hcid⟩ | hnew := (mem_upsertRow hdist).mp hmem
        · simpa using hcid
        · rw [hnew] at hpin
          exact absurd (hpinned.symm.trans hpin) (by simp)
      rw [hself] at hothers
      simpa using hothers
  | true =>
      have hnew : (⟨cid, size, seq, true⟩ : CacheRow) ∈
          (ChunkCache.upsertRow rows cid size seq).filter CacheRow.pinned :=
        List.mem_filter.mpr ⟨(mem_upsertRow hdist).mpr (Or.inr (by rw [hpinned])), rfl⟩
      have hsplit := sizes_filter_ne (hU.filter CacheRow.pinned).cids hnew
      simp only [↓reduceIte]
      dsimp only at hsplit
      omega

/-! ## An insert -/

/-- The table and the files before an insert evicts. -/
def ChunkCache.withBlob (c : ChunkCache) (cid : String) (bytes : Bytes) : ChunkCache :=
  { c with
    files := Function.update c.files cid (some bytes)
    rows := upsertRow c.rows cid bytes.length c.nextSeq }

/-- The budget has no room for the bytes next to what is pinned. -/
def ChunkCache.Refuses (c : ChunkCache) (bytes : Bytes) : Prop :=
  c.budget < bytes.length + c.pinnedBytes

variable {bytes : Bytes}

lemma insert_of_refuses (h : c.Refuses bytes) : c.insert cid bytes = (c, false) := by
  rw [ChunkCache.insert]
  exact if_pos (Or.inr h)

lemma insert_of_not_refuses (h : ¬ c.Refuses bytes) :
    c.insert cid bytes = ((c.withBlob cid bytes).evictToBudget, true) := by
  rw [ChunkCache.Refuses] at h
  rw [ChunkCache.insert]
  exact if_neg (by omega)

lemma distinct_withBlob (hdist : Distinct c.rows) : Distinct (c.withBlob cid bytes).rows :=
  hdist.upsertRow fun _ hr => accessSeq_lt_nextSeq hr

lemma evicts_withBlob (hdist : Distinct c.rows) :
    Evicts (c.withBlob cid bytes) (c.withBlob cid bytes).evictToBudget :=
  evictLoop_evicts (distinct_withBlob hdist) le_rfl

/-- The row an insert stores. -/
def ChunkCache.storedRow (c : ChunkCache) (cid : String) (bytes : Bytes) : CacheRow :=
  ⟨cid, bytes.length, c.nextSeq, pinnedAt c.rows cid⟩

lemma mem_withBlob (hdist : Distinct c.rows) : r ∈ (c.withBlob cid bytes).rows ↔
    (r ∈ c.rows ∧ r.cid ≠ cid) ∨ r = c.storedRow cid bytes :=
  mem_upsertRow hdist

/-- Evicted rows were unpinned. -/
lemma Evicts.mem_of_pinned (h : Evicts c c') (hr : r ∈ c.rows) (hpinned : r.pinned = true) :
    r ∈ c'.rows := by
  obtain ⟨seq, hseq⟩ := h.rows
  rw [hseq]
  exact List.mem_filter.mpr ⟨hr, by simp [keeps, hpinned]⟩

lemma Evicts.subset (h : Evicts c c') (hr : r ∈ c'.rows) : r ∈ c.rows := by
  obtain ⟨seq, hseq⟩ := h.rows
  rw [hseq] at hr
  exact (List.mem_filter.mp hr).1

/-- Where everything left is pinned, the total is what was pinned. -/
lemma Evicts.totalBytes_of_pinned (h : Evicts c c') (hpinned : ∀ r ∈ c'.rows, r.pinned = true) :
    c'.totalBytes = c.pinnedBytes := by
  obtain ⟨seq, hseq⟩ := h.rows
  have hall : c'.rows = c.rows.filter CacheRow.pinned := by
    rw [hseq]
    refine List.filter_congr fun r hr => ?_
    cases hp : r.pinned with
    | true => simp [keeps, hp]
    | false =>
        rw [Bool.eq_false_iff]
        intro hkeeps
        have hin : r ∈ c'.rows := by
          rw [hseq]
          exact List.mem_filter.mpr ⟨hr, hkeeps⟩
        rw [hpinned r hin] at hp
        cases hp
  rw [ChunkCache.totalBytes, hall]
  rfl

/-- What an insert may add to the pinned bytes. -/
lemma sizes_pinned_withBlob (cid : String) (bytes : Bytes) (hdist : Distinct c.rows) :
    sizes ((ChunkCache.upsertRow c.rows cid bytes.length c.nextSeq).filter CacheRow.pinned) ≤
      sizes (c.rows.filter CacheRow.pinned) +
        if pinnedAt c.rows cid then bytes.length else 0 :=
  sizes_pinned_upsertRow hdist fun _ hr => accessSeq_lt_nextSeq hr

/-- An admitted insert leaves the total within the budget. -/
lemma totalBytes_insert_le (hdist : Distinct c.rows) (hroom : ¬ c.Refuses bytes) :
    (c.withBlob cid bytes).evictToBudget.totalBytes ≤ c.budget := by
  have hev : Evicts (c.withBlob cid bytes) (c.withBlob cid bytes).evictToBudget :=
    evicts_withBlob hdist
  obtain hfits | hpinned := hev.fits
  · exact hfits
  · rw [hev.totalBytes_of_pinned hpinned]
    have hle := sizes_pinned_withBlob cid bytes hdist
    rw [ChunkCache.Refuses, ChunkCache.pinnedBytes] at hroom
    rw [ChunkCache.pinnedBytes, ChunkCache.withBlob]
    split_ifs at hle
    · dsimp only
      omega
    · dsimp only
      omega

/-- An admitted insert keeps what it stores: as the entry used last it would go last, and then only
pinned entries are left, next to which it has room. -/
lemma storedRow_mem_insert (cid : String) (hdist : Distinct c.rows) (hroom : ¬ c.Refuses bytes) :
    c.storedRow cid bytes ∈ (c.withBlob cid bytes).evictToBudget.rows := by
  have hev : Evicts (c.withBlob cid bytes) (c.withBlob cid bytes).evictToBudget :=
    evicts_withBlob hdist
  have hmem : c.storedRow cid bytes ∈ (c.withBlob cid bytes).rows :=
    (mem_withBlob hdist).mpr (Or.inr rfl)
  by_contra hout
  have hunpinned : pinnedAt c.rows cid = false := by
    rw [Bool.eq_false_iff]
    intro hpinned
    exact hout (hev.mem_of_pinned hmem hpinned)
  have hlast : ∀ r ∈ (c.withBlob cid bytes).rows, r.accessSeq ≤ c.nextSeq := by
    intro r hr
    obtain ⟨hold, -⟩ | rfl := (mem_withBlob hdist).mp hr
    · exact (accessSeq_lt_nextSeq hold).le
    · exact le_rfl
  have hneeded := hev.needed _ hmem hout fun r hr _ => hlast r hr
  have hpinned : ∀ r ∈ (c.withBlob cid bytes).evictToBudget.rows, r.pinned = true := by
    obtain ⟨seq, hseq⟩ := hev.rows
    intro r hr
    rw [hseq] at hr hout
    obtain ⟨hr, hkeeps⟩ := List.mem_filter.mp hr
    have hgone : ¬ seq ≤ c.nextSeq := by
      intro hle
      exact hout (List.mem_filter.mpr ⟨hmem, by simp [keeps, ChunkCache.storedRow, hle]⟩)
    have hle := hlast r hr
    have hnot : ¬ seq ≤ r.accessSeq := by omega
    simpa [keeps, hnot] using hkeeps
  rw [hev.totalBytes_of_pinned hpinned] at hneeded
  have hle := sizes_pinned_withBlob cid bytes hdist
  rw [hunpinned] at hle
  rw [ChunkCache.Refuses, ChunkCache.pinnedBytes] at hroom
  have hbudget : c.budget < sizes ((ChunkCache.upsertRow c.rows cid bytes.length c.nextSeq).filter
      CacheRow.pinned) + bytes.length := hneeded
  simp only [Bool.false_eq_true, ↓reduceIte] at hle
  omega

end

/-! ## The invariant -/

/-- Every row is that of its file, the total fits the budget, and the counters order the entries by
their last uses. -/
structure Tidy (C : Crypto) (w : CacheWorld) : Prop where
  distinct : Distinct w.cache.rows
  files : ∀ r ∈ w.cache.rows, ∃ bytes, w.cache.files r.cid = some bytes ∧
    r.size = bytes.length ∧ C.sha256Hex bytes = r.cid
  total : w.cache.totalBytes ≤ w.cache.budget
  recency : ∀ r ∈ w.cache.rows, ∀ r' ∈ w.cache.rows,
    r.accessSeq < r'.accessSeq ↔ w.used r.cid < w.used r'.cid
  clock : ∀ r ∈ w.cache.rows, w.used r.cid < w.clock

section

variable {C : Crypto} {w : CacheWorld} {cid : String} {bytes : Bytes} {r : CacheRow}

lemma Tidy.init (C : Crypto) (budget : Nat) : Tidy C (.init budget) where
  distinct := ⟨List.nodup_nil, List.nodup_nil⟩
  files _ hr := by cases hr
  total := Nat.zero_le _
  recency _ hr := by cases hr
  clock _ hr := by cases hr

/-- The cache and the uses once a blob is used: its row is stored or refreshed. -/
def CacheWorld.use (w : CacheWorld) (cid : String) (bytes : Bytes) : CacheWorld where
  cache := w.cache.withBlob cid bytes
  clock := w.clock + 1
  used := Function.update w.used cid w.clock

/-- A use orders the used entry behind the others. -/
lemma Tidy.use_order (h : Tidy C w) (cid : String) (bytes : Bytes) :
    (∀ r ∈ (w.use cid bytes).cache.rows, ∀ r' ∈ (w.use cid bytes).cache.rows,
        r.accessSeq < r'.accessSeq ↔ (w.use cid bytes).used r.cid < (w.use cid bytes).used r'.cid) ∧
      ∀ r ∈ (w.use cid bytes).cache.rows, (w.use cid bytes).used r.cid < w.clock + 1 := by
  have hused : ∀ r : CacheRow, r.cid ≠ cid → (w.use cid bytes).used r.cid = w.used r.cid :=
    fun r hcid => Function.update_of_ne hcid _ _
  have hnew : (w.use cid bytes).used (w.cache.storedRow cid bytes).cid = w.clock :=
    Function.update_self ..
  have hseq : (w.cache.storedRow cid bytes).accessSeq = w.cache.nextSeq := rfl
  refine ⟨?_, ?_⟩
  · intro r hr r' hr'
    obtain ⟨hold, hcid⟩ | rfl := (mem_withBlob h.distinct).mp hr
    · obtain ⟨hold', hcid'⟩ | rfl := (mem_withBlob h.distinct).mp hr'
      · rw [hused r hcid, hused r' hcid']
        exact h.recency r hold r' hold'
      · rw [hused r hcid, hnew, hseq]
        exact iff_of_true (accessSeq_lt_nextSeq hold) (h.clock r hold)
    · obtain ⟨hold', hcid'⟩ | rfl := (mem_withBlob h.distinct).mp hr'
      · rw [hused r' hcid', hnew, hseq]
        have hlt := accessSeq_lt_nextSeq hold'
        have hlt' := h.clock r' hold'
        exact iff_of_false (by omega) (by omega)
      · exact iff_of_false (lt_irrefl _) (lt_irrefl _)
  · intro r hr
    obtain ⟨hold, hcid⟩ | rfl := (mem_withBlob h.distinct).mp hr
    · rw [hused r hcid]
      exact (h.clock r hold).trans (Nat.lt_succ_self _)
    · rw [hnew]
      exact Nat.lt_succ_self _

/-- A use stores the row of its file. -/
lemma Tidy.use_files (h : Tidy C w) (haddr : C.sha256Hex bytes = cid) :
    ∀ r ∈ (w.use cid bytes).cache.rows, ∃ b, (w.use cid bytes).cache.files r.cid = some b ∧
      r.size = b.length ∧ C.sha256Hex b = r.cid := by
  intro r hr
  obtain ⟨hold, hcid⟩ | rfl := (mem_withBlob h.distinct).mp hr
  · obtain ⟨b, hb, hsize, hhash⟩ := h.files r hold
    exact ⟨b, (Function.update_of_ne hcid _ _).trans hb, hsize, hhash⟩
  · exact ⟨bytes, Function.update_self .., rfl, haddr⟩

lemma step_insert_of_refuses (hroom : w.cache.Refuses bytes) :
    w.step C (.insert cid bytes) = { w with clock := w.clock + 1 } := by
  rw [CacheWorld.step, insert_of_refuses hroom]
  rfl

lemma step_insert_of_not_refuses (hroom : ¬ w.cache.Refuses bytes) :
    w.step C (.insert cid bytes) =
      { w.use cid bytes with cache := (w.use cid bytes).cache.evictToBudget } := by
  rw [CacheWorld.step, insert_of_not_refuses hroom]
  rfl

/-- An operation that leaves the cache alone. -/
lemma Tidy.tick (h : Tidy C w) : Tidy C { w with clock := w.clock + 1 } where
  distinct := h.distinct
  files := h.files
  total := h.total
  recency := h.recency
  clock r hr := (h.clock r hr).trans (Nat.lt_succ_self _)

lemma Tidy.insert (h : Tidy C w) (haddr : C.sha256Hex bytes = cid) :
    Tidy C (w.step C (.insert cid bytes)) := by
  by_cases hroom : w.cache.Refuses bytes
  · rw [step_insert_of_refuses hroom]
    exact h.tick
  · rw [step_insert_of_not_refuses hroom]
    have hev : Evicts (w.use cid bytes).cache (w.use cid bytes).cache.evictToBudget :=
      evicts_withBlob h.distinct
    obtain ⟨hrecency, hclock⟩ := h.use_order cid bytes
    refine ⟨?_, ?_, ?_, ?_, ?_⟩
    · obtain ⟨seq, hseq⟩ := hev.rows
      show Distinct (w.use cid bytes).cache.evictToBudget.rows
      rw [hseq]
      exact (distinct_withBlob h.distinct).filter _
    · intro r hr
      obtain ⟨b, hb, hrest⟩ := h.use_files haddr r (hev.subset hr)
      exact ⟨b, (hev.files r hr).trans hb, hrest⟩
    · show (w.use cid bytes).cache.evictToBudget.totalBytes ≤
        (w.use cid bytes).cache.evictToBudget.budget
      rw [hev.budget]
      exact totalBytes_insert_le h.distinct hroom
    · intro r hr r' hr'
      exact hrecency r (hev.subset hr) r' (hev.subset hr')
    · intro r hr
      exact hclock r (hev.subset hr)

/-- Refreshing an entry keeps the total. -/
lemma totalBytes_withBlob {c : ChunkCache} (hdist : Distinct c.rows) (hr : r ∈ c.rows)
    (hsize : r.size = bytes.length) : (c.withBlob r.cid bytes).totalBytes = c.totalBytes := by
  have hold := sizes_filter_ne hdist.cids hr
  have hdist' : Distinct (c.withBlob r.cid bytes).rows := distinct_withBlob hdist
  have hnew := sizes_filter_ne hdist'.cids ((mem_withBlob hdist).mpr (Or.inr rfl))
  rw [ChunkCache.totalBytes, ← hnew, ChunkCache.totalBytes, ← hold, hsize]
  congr 1
  exact congrArg sizes filter_ne_upsertRow

/-- A get of an entry is a hit, and a use of it. -/
lemma Tidy.get_cases (h : Tidy C w) (cid : String) :
    w.step C (.get cid) = { w with clock := w.clock + 1 } ∨
      ∃ bytes, (∃ r ∈ w.cache.rows, r.cid = cid) ∧ w.cache.files cid = some bytes ∧
        C.sha256Hex bytes = cid ∧ w.step C (.get cid) = w.use cid bytes := by
  by_cases hin : ∃ r ∈ w.cache.rows, r.cid = cid
  · obtain ⟨r, hr, rfl⟩ := hin
    obtain ⟨bytes, hfile, hsize, hhash⟩ := h.files r hr
    refine Or.inr ⟨bytes, ⟨r, hr, rfl⟩, hfile, hhash, ?_⟩
    have hany : w.cache.rows.any (·.cid = r.cid) = true :=
      List.any_eq_true.mpr ⟨r, hr, by simp⟩
    have hverify : verifyContent C r.cid bytes = .ok () := by
      rw [verifyContent, verifyServerCid, if_pos hhash.symm]
    -- the file is there with these bytes, and its row has their length
    have hfiles : Function.update w.cache.files r.cid (some bytes) = w.cache.files := by
      rw [← hfile]
      exact Function.update_eq_self _ _
    have hrows : ChunkCache.upsertRow w.cache.rows r.cid bytes.length w.cache.nextSeq =
        w.cache.rows.map fun x =>
          if x.cid = r.cid then { x with accessSeq := w.cache.nextSeq } else x := by
      rw [upsertRow_of_mem ⟨r, hr, rfl⟩]
      refine List.map_congr_left fun x hx => ?_
      split_ifs with hcid
      · rw [h.distinct.eq_of_cid hx hr hcid, hsize]
      · rfl
    rw [CacheWorld.step, ChunkCache.get, if_pos hany, hfile]
    dsimp only
    rw [hverify, CacheWorld.use, ChunkCache.withBlob, hfiles, hrows]
    rfl
  · left
    have hany : ¬ w.cache.rows.any (·.cid = cid) = true := by
      intro hany
      obtain ⟨r, hr, hcid⟩ := List.any_eq_true.mp hany
      exact hin ⟨r, hr, by simpa using hcid⟩
    rw [CacheWorld.step, ChunkCache.get, if_neg hany]
    rfl

lemma Tidy.get (h : Tidy C w) (cid : String) : Tidy C (w.step C (.get cid)) := by
  obtain heq | ⟨bytes, ⟨r, hr, hcid⟩, hfile, hhash, heq⟩ := h.get_cases cid
  · rw [heq]
    exact h.tick
  · rw [heq]
    obtain ⟨hrecency, hclock⟩ := h.use_order cid bytes
    refine ⟨distinct_withBlob h.distinct, h.use_files hhash, ?_, hrecency, hclock⟩
    obtain ⟨b, hb, hsize, -⟩ := h.files r hr
    rw [hcid, hfile] at hb
    cases hb
    show (w.cache.withBlob cid bytes).totalBytes ≤ w.cache.budget
    rw [← hcid, totalBytes_withBlob h.distinct hr hsize]
    exact h.total

/-- The rows once a pin is set or cleared: each is one from before, or that with another pin. -/
lemma mem_setPinned {c : ChunkCache} {pinned : Bool} (hr : r ∈ (c.setPinned cid pinned).1.rows) :
    ∃ r' ∈ c.rows, r.cid = r'.cid ∧ r.size = r'.size ∧ r.accessSeq = r'.accessSeq := by
  obtain ⟨r', hr', rfl⟩ := List.mem_map.mp hr
  refine ⟨r', hr', ?_⟩
  split_ifs
  · exact ⟨rfl, rfl, rfl⟩
  · exact ⟨rfl, rfl, rfl⟩

/-- A pin changes no address, size or counter. -/
lemma map_setPinned {c : ChunkCache} {pinned : Bool} {β : Type*} {f : CacheRow → β}
    (hf : ∀ r : CacheRow, f { r with pinned := pinned } = f r) :
    (c.setPinned cid pinned).1.rows.map f = c.rows.map f := by
  show (c.rows.map fun r => if r.cid = cid then { r with pinned := pinned } else r).map f = _
  rw [List.map_map]
  refine List.map_congr_left fun r _ => ?_
  show f (if r.cid = cid then _ else r) = f r
  split_ifs
  · exact hf r
  · rfl

lemma Tidy.setPinned (h : Tidy C w) (cid : String) (pinned : Bool) :
    Tidy C { w with cache := (w.cache.setPinned cid pinned).1, clock := w.clock + 1 } := by
  refine ⟨⟨?_, ?_⟩, ?_, ?_, ?_, ?_⟩
  · show ((w.cache.setPinned cid pinned).1.rows.map CacheRow.cid).Nodup
    rw [map_setPinned fun r => rfl]
    exact h.distinct.cids
  · show ((w.cache.setPinned cid pinned).1.rows.map CacheRow.accessSeq).Nodup
    rw [map_setPinned fun r => rfl]
    exact h.distinct.seqs
  · intro r hr
    obtain ⟨r', hr', hcid, hsize, -⟩ := mem_setPinned hr
    rw [hcid, hsize]
    exact h.files r' hr'
  · show ((w.cache.setPinned cid pinned).1.rows.map CacheRow.size).sum ≤ w.cache.budget
    rw [map_setPinned fun r => rfl]
    exact h.total
  · intro r hr r' hr'
    obtain ⟨x, hx, hcid, -, hseq⟩ := mem_setPinned hr
    obtain ⟨x', hx', hcid', -, hseq'⟩ := mem_setPinned hr'
    rw [hcid, hcid', hseq, hseq']
    exact h.recency x hx x' hx'
  · intro r hr
    obtain ⟨x, hx, hcid, -, -⟩ := mem_setPinned hr
    show w.used r.cid < w.clock + 1
    rw [hcid]
    exact (h.clock x hx).trans (Nat.lt_succ_self _)

lemma Tidy.step (h : Tidy C w) {a : CacheAction} (ha : Addressed C a) : Tidy C (w.step C a) := by
  cases a with
  | insert cid bytes => exact h.insert ha
  | get cid => exact h.get cid
  | pin cid => exact h.setPinned cid true
  | unpin cid => exact h.setPinned cid false

/-! ## What an insert returns, and what it evicts -/

/-- The blob is in the cache: there is a row for it, and its file has its bytes. -/
def ChunkCache.Holds (c : ChunkCache) (cid : String) (bytes : Bytes) : Prop :=
  (∃ r ∈ c.rows, r.cid = cid) ∧ c.files cid = some bytes

/-- The blob is in the cache and pinned, and its length counted next to all pinned bytes, its own
among them, is over the budget. -/
def ChunkCache.BlocksItself (c : ChunkCache) (cid : String) (bytes : Bytes) : Prop :=
  c.Holds cid bytes ∧ (∃ r ∈ c.rows, r.cid = cid ∧ r.pinned = true) ∧ c.Refuses bytes

/-- An insert says whether the blob is cached afterwards, unless the blob blocks itself. -/
lemma Tidy.insert_returns_iff (h : Tidy C w) :
    ((w.cache.insert cid bytes).2 = true ↔ (w.cache.insert cid bytes).1.Holds cid bytes) ↔
      ¬ w.cache.BlocksItself cid bytes := by
  by_cases hroom : w.cache.Refuses bytes
  · rw [insert_of_refuses hroom]
    -- an unpinned entry of this length is within the total next to the pinned ones
    have hpinned : w.cache.Holds cid bytes → ∃ r ∈ w.cache.rows, r.cid = cid ∧ r.pinned = true := by
      rintro ⟨⟨r, hr, rfl⟩, hfile⟩
      refine ⟨r, hr, rfl, ?_⟩
      by_contra hunpinned
      obtain ⟨b, hb, hsize, -⟩ := h.files r hr
      rw [hfile] at hb
      cases hb
      have hself : (w.cache.rows.filter (·.cid ≠ r.cid)).filter CacheRow.pinned =
          w.cache.rows.filter CacheRow.pinned := by
        rw [List.filter_comm]
        refine List.filter_eq_self.mpr fun x hx => ?_
        obtain ⟨hmem, hpin⟩ := List.mem_filter.mp hx
        simp only [ne_eq, decide_not, Bool.not_eq_eq_eq_not, Bool.not_true, decide_eq_false_iff_not]
        intro hcid
        obtain rfl := h.distinct.eq_of_cid hmem hr hcid
        exact hunpinned hpin
      have hsplit := sizes_filter_ne h.distinct.cids hr
      have hle : sizes ((w.cache.rows.filter (·.cid ≠ r.cid)).filter CacheRow.pinned) ≤
          sizes (w.cache.rows.filter (·.cid ≠ r.cid)) := sizes_filter_le _
      rw [hself] at hle
      have htotal := h.total
      rw [ChunkCache.totalBytes] at htotal
      rw [ChunkCache.Refuses, ChunkCache.pinnedBytes] at hroom
      omega
    constructor
    · intro hiff hblocks
      exact absurd (hiff.mpr hblocks.1) (by simp)
    · intro hblocks
      refine iff_of_false (by simp) ?_
      intro hholds
      exact hblocks ⟨hholds, hpinned hholds, hroom⟩
  · rw [insert_of_not_refuses hroom]
    have hstored := storedRow_mem_insert cid h.distinct hroom
    have hev : Evicts (w.cache.withBlob cid bytes) (w.cache.withBlob cid bytes).evictToBudget :=
      evicts_withBlob h.distinct
    have hfile := hev.files _ hstored
    refine iff_of_true (iff_of_true rfl ⟨⟨_, hstored, rfl⟩, ?_⟩) fun hblocks => hroom hblocks.2.2
    exact hfile.trans (Function.update_self ..)

/-- The entry of a row is no longer there. -/
def Gone (w w' : CacheWorld) (r : CacheRow) : Prop :=
  r ∈ w.cache.rows ∧ ∀ r' ∈ w'.cache.rows, r'.cid ≠ r.cid

/-- What is gone was unpinned and used before everything unpinned that is left, and the last of it
was over the budget. -/
structure EvictsLeast (w w' : CacheWorld) : Prop where
  unpinned : ∀ r, Gone w w' r → r.pinned = false
  least : ∀ r, Gone w w' r → ∀ r' ∈ w'.cache.rows, r'.pinned = false →
    w'.used r.cid < w'.used r'.cid
  needed : ∀ r, Gone w w' r → (∀ r', Gone w w' r' → w'.used r'.cid ≤ w'.used r.cid) →
    w.cache.budget < w'.cache.totalBytes + r.size

lemma Tidy.insert_evictsLeast (h : Tidy C w) :
    EvictsLeast w (w.step C (.insert cid bytes)) := by
  by_cases hroom : w.cache.Refuses bytes
  · rw [step_insert_of_refuses hroom]
    have hnone : ∀ r, ¬ Gone w { w with clock := w.clock + 1 } r :=
      fun r hr => hr.2 r hr.1 rfl
    exact ⟨fun r hr => absurd hr (hnone r), fun r hr => absurd hr (hnone r),
      fun r hr => absurd hr (hnone r)⟩
  · rw [step_insert_of_not_refuses hroom]
    have hev : Evicts (w.use cid bytes).cache (w.use cid bytes).cache.evictToBudget :=
      evicts_withBlob h.distinct
    have hdist : Distinct (w.use cid bytes).cache.rows := distinct_withBlob h.distinct
    have hstored := storedRow_mem_insert cid h.distinct hroom
    obtain ⟨hrecency, -⟩ := h.use_order cid bytes
    -- what is gone is a row of another blob, and was evicted
    have hgone : ∀ r, Gone w { w.use cid bytes with
        cache := (w.use cid bytes).cache.evictToBudget } r →
          r ∈ (w.use cid bytes).cache.rows ∧ r ∉ (w.use cid bytes).cache.evictToBudget.rows := by
      intro r hr
      have hcid : r.cid ≠ cid := fun hsame => hr.2 _ hstored hsame.symm
      exact ⟨(mem_withBlob h.distinct).mpr (Or.inl ⟨hr.1, hcid⟩), fun hin => hr.2 r hin rfl⟩
    have hevicted : ∀ r ∈ (w.use cid bytes).cache.rows,
        r ∉ (w.use cid bytes).cache.evictToBudget.rows →
          Gone w { w.use cid bytes with cache := (w.use cid bytes).cache.evictToBudget } r := by
      intro r hr hout
      obtain ⟨hold, -⟩ | rfl := (mem_withBlob h.distinct).mp hr
      · refine ⟨hold, fun r' hr' hcid => ?_⟩
        obtain rfl := hdist.eq_of_cid (hev.subset hr') hr hcid
        exact hout hr'
      · exact absurd hstored hout
    refine ⟨?_, ?_, ?_⟩
    · intro r hr
      rw [Bool.eq_false_iff]
      intro hpinned
      exact (hgone r hr).2 (hev.mem_of_pinned (hgone r hr).1 hpinned)
    · intro r hr r' hr' hpinned
      obtain ⟨hmem, hout⟩ := hgone r hr
      apply (hrecency r hmem r' (hev.subset hr')).mp
      obtain ⟨seq, hseq⟩ := hev.rows
      rw [hseq] at hout
      have hkeeps := hr'
      show r.accessSeq < r'.accessSeq
      have hbefore : ¬ seq ≤ r.accessSeq := by
        intro hle
        exact hout (List.mem_filter.mpr ⟨hmem, by simp [keeps, hle]⟩)
      have hafter : seq ≤ r'.accessSeq := by
        have hin : r' ∈ (w.use cid bytes).cache.evictToBudget.rows := hr'
        rw [hseq] at hin
        simpa [keeps, hpinned] using (List.mem_filter.mp hin).2
      omega
    · intro r hr hlast
      obtain ⟨hmem, hout⟩ := hgone r hr
      refine hev.needed r hmem hout fun r' hr' hout' => ?_
      by_contra hlt
      have hused := (hrecency r hmem r' hr').mp (by omega)
      have hle := hlast r' (hevicted r' hr' hout')
      exact absurd hused (not_lt.mpr hle)

/-- **A pinned entry stays**, and stays pinned unless it is unpinned. -/
lemma Tidy.pinned_stays (h : Tidy C w) (a : CacheAction) (hr : r ∈ w.cache.rows)
    (hpinned : r.pinned = true) :
    ∃ r' ∈ (w.step C a).cache.rows, r'.cid = r.cid ∧ (a ≠ .unpin r.cid → r'.pinned = true) := by
  cases a with
  | insert cid bytes =>
      by_cases hroom : w.cache.Refuses bytes
      · rw [step_insert_of_refuses hroom]
        exact ⟨r, hr, rfl, fun _ => hpinned⟩
      · rw [step_insert_of_not_refuses hroom]
        have hev : Evicts (w.use cid bytes).cache (w.use cid bytes).cache.evictToBudget :=
          evicts_withBlob h.distinct
        by_cases hcid : r.cid = cid
        · refine ⟨_, storedRow_mem_insert cid h.distinct hroom, hcid.symm, fun _ => ?_⟩
          rw [ChunkCache.storedRow, ← hcid, pinnedAt_of_mem h.distinct hr]
          exact hpinned
        · have hmem : r ∈ (w.use cid bytes).cache.rows :=
            (mem_withBlob h.distinct).mpr (Or.inl ⟨hr, hcid⟩)
          exact ⟨r, hev.mem_of_pinned hmem hpinned, rfl, fun _ => hpinned⟩
  | get cid =>
      obtain heq | ⟨bytes, -, -, -, heq⟩ := h.get_cases cid
      · rw [heq]
        exact ⟨r, hr, rfl, fun _ => hpinned⟩
      · rw [heq]
        by_cases hcid : r.cid = cid
        · refine ⟨w.cache.storedRow cid bytes, (mem_withBlob h.distinct).mpr (Or.inr rfl),
            hcid.symm, fun _ => ?_⟩
          rw [ChunkCache.storedRow, ← hcid, pinnedAt_of_mem h.distinct hr]
          exact hpinned
        · exact ⟨r, (mem_withBlob h.distinct).mpr (Or.inl ⟨hr, hcid⟩), rfl, fun _ => hpinned⟩
  | pin cid =>
      refine ⟨_, List.mem_map_of_mem hr, ?_, fun _ => ?_⟩
      · split_ifs
        · rfl
        · rfl
      · split_ifs
        · rfl
        · exact hpinned
  | unpin cid =>
      refine ⟨_, List.mem_map_of_mem hr, ?_, fun hne => ?_⟩
      · split_ifs
        · rfl
        · rfl
      · rw [if_neg]
        · exact hpinned
        · rintro rfl
          exact hne rfl

/-- The budget is fixed. -/
lemma budget_step (C : Crypto) (w : CacheWorld) (h : Tidy C w) {a : CacheAction} :
    (w.step C a).cache.budget = w.cache.budget := by
  cases a with
  | insert cid bytes =>
      by_cases hroom : w.cache.Refuses bytes
      · rw [step_insert_of_refuses hroom]
      · rw [step_insert_of_not_refuses hroom]
        exact (evicts_withBlob h.distinct).budget
  | get cid =>
      obtain heq | ⟨bytes, -, -, -, heq⟩ := h.get_cases cid
      · rw [heq]
      · rw [heq]
        rfl
  | pin cid => rfl
  | unpin cid => rfl

/-- **The invariants of the chunk cache.**  After every run of operations on blobs that hash to
their addresses: the total is within the budget; no operation takes a pinned entry out; an insert
evicts the least recently used unpinned entries and none in vain; and it returns whether the blob
is cached afterwards, exactly unless the blob is there, pinned, and over the budget next to the
pinned bytes, which count its own. -/
theorem chunk_cache_invariants (C : Crypto) (budget : Nat) (acts : List CacheAction)
    (haddr : ∀ a ∈ acts, Addressed C a) :
    (run (CacheWorld.step C) (.init budget) acts).cache.totalBytes ≤ budget ∧
      (∀ a r, r ∈ (run (CacheWorld.step C) (.init budget) acts).cache.rows → r.pinned = true →
        ∃ r' ∈ ((run (CacheWorld.step C) (.init budget) acts).step C a).cache.rows,
          r'.cid = r.cid ∧ (a ≠ .unpin r.cid → r'.pinned = true)) ∧
      (∀ cid bytes, EvictsLeast (run (CacheWorld.step C) (.init budget) acts)
        ((run (CacheWorld.step C) (.init budget) acts).step C (.insert cid bytes))) ∧
      ∀ cid bytes,
        ((((run (CacheWorld.step C) (.init budget) acts).cache.insert cid bytes).2 = true ↔
            ((run (CacheWorld.step C) (.init budget) acts).cache.insert cid bytes).1.Holds cid
              bytes) ↔
          ¬ (run (CacheWorld.step C) (.init budget) acts).cache.BlocksItself cid bytes) := by
  have halong : Along (CacheWorld.step C) (fun _ a => a ∈ acts) (.init budget) acts :=
    along_of_take fun k a hk => List.mem_of_getElem? hk
  have hinv := run_invariant
    (I := fun w : CacheWorld => Tidy C w ∧ w.cache.budget = budget)
    (fun w a hw ha => ⟨hw.1.step (haddr a ha), (budget_step C w hw.1).trans hw.2⟩)
    ⟨Tidy.init C budget, rfl⟩ halong
  obtain ⟨htidy, hbudget⟩ := hinv
  refine ⟨htidy.total.trans hbudget.le, ?_, ?_, ?_⟩
  · intro a r hr hpinned
    exact htidy.pinned_stays a hr hpinned
  · intro cid bytes
    exact htidy.insert_evictsLeast
  · intro cid bytes
    exact htidy.insert_returns_iff

end

/-! ### A cache of ten bytes -/

/-- The address of six bytes. -/
def abcdefCid : String := "bef57ec7f53a6d40beb640a780a639c83bc29ac8a9816f1fc6c5c6dcd93c4721"

/-- The address of five bytes. -/
def helloCid : String := "2cf24dba5fb0a30e26e83b2ac5b9e29e1b161e5c1fa7425e73043362938b9824"

/-- SHA-256 on two blobs of six and of five bytes. -/
def cacheCrypto : Crypto where
  sha256Hex := tabulatedHash [(asBytes "abcdef", abcdefCid), (asBytes "hello", helloCid)]
  isPublicKey _ := false
  verifyStrict _ _ _ := false

/-- The six bytes are inserted. -/
def insertSix : CacheAction := .insert abcdefCid (asBytes "abcdef")

/-- The five bytes are inserted. -/
def insertFive : CacheAction := .insert helloCid (asBytes "hello")

lemma insertSix_addressed : Addressed cacheCrypto insertSix := by
  show cacheCrypto.sha256Hex (asBytes "abcdef") = _
  decide +kernel

/-- The five bytes take the place of the six. -/
theorem chunk_cache_invariants_five :
    (run (CacheWorld.step cacheCrypto) (.init 10) [insertSix]).cache.totalBytes ≤ 10 ∧
      EvictsLeast (run (CacheWorld.step cacheCrypto) (.init 10) [insertSix])
        (run (CacheWorld.step cacheCrypto) (.init 10) [insertSix, insertFive]) ∧
      (run (CacheWorld.step cacheCrypto) (.init 10)
        [insertSix, insertFive]).cache.totalBytes = 5 := by
  have h := chunk_cache_invariants cacheCrypto 10 [insertSix] fun a ha => by
    rw [List.mem_singleton.mp ha]
    exact insertSix_addressed
  refine ⟨h.1, ?_, by decide +kernel⟩
  exact h.2.2.1 helloCid (asBytes "hello")

/-- The six bytes are there and pinned, and inserting them again returns `false`. -/
theorem reinsert_of_pinned_returns_false :
    ¬ ∀ (C : Crypto) (budget : Nat) (acts : List CacheAction), (∀ a ∈ acts, Addressed C a) →
      ∀ cid bytes, C.sha256Hex bytes = cid →
        (((run (CacheWorld.step C) (.init budget) acts).cache.insert cid bytes).2 = true ↔
          ((run (CacheWorld.step C) (.init budget) acts).cache.insert cid bytes).1.Holds cid
            bytes) := by
  intro h
  have hiff := h cacheCrypto 10 [insertSix, .pin abcdefCid] ?_ _ _ insertSix_addressed
  · have hreturns : ((run (CacheWorld.step cacheCrypto) (.init 10)
        [insertSix, .pin abcdefCid]).cache.insert abcdefCid (asBytes "abcdef")).2 = false := by
      decide +kernel
    rw [hreturns] at hiff
    refine absurd (hiff.mpr ⟨?_, ?_⟩) (by simp)
    · decide +kernel
    · decide +kernel
  · intro a ha
    obtain rfl | ha := List.mem_cons.mp ha
    · exact insertSix_addressed
    · rw [List.mem_singleton.mp ha]
      trivial

end Ciss
