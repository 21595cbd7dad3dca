import Mathlib.Data.List.MinMax
import Std.Data.ExtTreeMap
import Ciss.Chain.Store
import Ciss.Framework.Recency
import Ciss.Server.Objects

/-!
# Who asked for what

The compute ledger counts, for each caller and each class of operation, the requests that dispatch
ran and the time it spent on them.  It is kept in memory and bounded: when a caller that is not
tracked needs a place and all of them are taken, the caller seen longest ago is given up, with its
counts.

`tracked_callers_most_recent` says whom the ledger tracks after any run, and `cell_counts_since`
what it has counted for them: everything since the caller was last taken in, and nothing else.
`flush_reports_cells` follows the counts into the table that `ciss usage` reads.
-/

namespace Ciss

/-! ## The ledger -/

/-- Callers tracked before the one seen longest ago is given up. -/
def maxTrackedCallers : Nat := 1024

/-- The requests of one caller and class, and the microseconds spent on them. -/
structure ComputeCell where
  requests : Nat
  micros : Nat
  deriving DecidableEq, Repr

/-- A row of a snapshot. -/
structure ComputeRow where
  caller : String
  opClass : String
  cell : ComputeCell
  deriving DecidableEq, Repr

/-- A caller and a class. -/
def ComputeRow.key (row : ComputeRow) : String × String := (row.caller, row.opClass)

/-- Callers by their bytes, and classes under one caller. -/
def rowCompare : String × String → String × String → Ordering :=
  compareLex (compareOn fun key => asBytes key.1) (compareOn fun key => asBytes key.2)

/-- Sort by caller and then by class. -/
def sortRows {α : Type} (key : α → String × String) (rows : List α) : List α :=
  rows.insertionSort fun a b => (rowCompare (key a) (key b)).isLE = true

/-- The cells of one caller, by class. -/
abbrev ComputeCells := Std.ExtTreeMap String ComputeCell compare

/-- The bounded ledger. -/
structure ComputeLedger where
  cells : Std.ExtTreeMap String ComputeCells compare
  tick : Nat
  seen : Std.ExtTreeMap String Nat compare

/-- A dispatched request: its caller, the class of the operation, and how long it took. -/
abbrev ComputeCall := String × String × Nat

/-- Count one request. -/
def ComputeCells.count (cells : ComputeCells) (opClass : String) (micros : Nat) : ComputeCells :=
  let cell := cells.getD opClass ⟨0, 0⟩
  cells.insert opClass ⟨saturatingAdd cell.requests 1, saturatingAdd cell.micros micros⟩

namespace ComputeLedger

variable (L : ComputeLedger)

/-- A fresh ledger. -/
def new : ComputeLedger := ⟨∅, 0, ∅⟩

/-- The caller seen longest ago. -/
def leastRecent : Option String := (L.seen.toList.argmin Prod.snd).map Prod.fst

/-- Give up a caller if `caller` needs a place and there is none. -/
def makeRoom (caller : String) : ComputeLedger :=
  if caller ∉ L.cells ∧ L.cells.size ≥ maxTrackedCallers then
    match L.leastRecent with
    | none => L
    | some evict => { L with cells := L.cells.erase evict, seen := L.seen.erase evict }
  else L

/-- Record a dispatched request.  The tick is checked: its overflow panics, and what the request has
written by then stays. -/
def record (caller opClass : String) (micros : Nat) : ComputeLedger :=
  let L := L.makeRoom caller
  if L.tick + 1 = 2 ^ 64 then L
  else
    { cells := L.cells.insert caller ((L.cells.getD caller ∅).count opClass micros)
      tick := L.tick + 1
      seen := L.seen.insert caller (L.tick + 1) }

/-- Callers currently tracked. -/
def trackedCallers : Nat := L.cells.size

/-- The rows of the cells, in the order of the maps. -/
def rows : List ComputeRow :=
  L.cells.toList.flatMap fun c => c.2.toList.map fun k => ⟨c.1, k.1, k.2⟩

/-- Every cell, by caller and then by class. -/
def snapshot : List ComputeRow := sortRows ComputeRow.key L.rows

/-- One dispatched request is recorded. -/
def step (call : ComputeCall) : ComputeLedger := L.record call.1 call.2.1 call.2.2

/-- The ledger after some requests. -/
def after (calls : List ComputeCall) : ComputeLedger := run step new calls

end ComputeLedger

/-- The callers of some requests, the one seen last in front. -/
def recentCallers (calls : List ComputeCall) : List String :=
  distinct (calls.map Prod.fst).reverse

/-! ## Whom it tracks -/

namespace ComputeLedger

/-- The ledger tracks the callers `r`, the one seen last in front. -/
structure Tracks (L : ComputeLedger) (r : List String) : Prop where
  nodup : r.Nodup
  short : r.length ≤ maxTrackedCallers
  cells : ∀ c, c ∈ L.cells ↔ c ∈ r
  seen : ∀ c, c ∈ L.seen ↔ c ∈ r
  later : r.Pairwise fun a b => L.seen.getD b 0 < L.seen.getD a 0
  past : ∀ c, L.seen.getD c 0 ≤ L.tick

variable {L : ComputeLedger} {r : List String} {caller opClass : String} {micros : Nat}

lemma Tracks.new : new.Tracks [] where
  nodup := List.nodup_nil
  short := Nat.zero_le _
  cells c := by simp [ComputeLedger.new]
  seen c := by simp [ComputeLedger.new]
  later := List.Pairwise.nil
  past c := by simp [ComputeLedger.new]

lemma Tracks.size (h : L.Tracks r) : L.cells.size = r.length := by
  rw [← Std.ExtTreeMap.length_keys]
  refine List.Perm.length_eq ?_
  rw [List.perm_ext_iff_of_nodup Std.ExtTreeMap.nodup_keys h.nodup]
  intro c
  rw [Std.ExtTreeMap.mem_keys, h.cells]

/-- The last of the list is the caller seen longest ago. -/
lemma Tracks.leastRecent_concat (h : L.Tracks (r ++ [caller])) :
    L.leastRecent = some caller := by
  have hmem : caller ∈ L.seen := (h.seen caller).mpr (by simp)
  unfold leastRecent
  cases hmin : L.seen.toList.argmin Prod.snd with
  | none =>
      rw [List.argmin_eq_none] at hmin
      have hnot : (caller, L.seen[caller]) ∈ L.seen.toList :=
        Std.ExtTreeMap.mem_toList_iff_getElem?_eq_some.mpr (Std.ExtTreeMap.getElem?_eq_some_getElem hmem)
      rw [hmin] at hnot
      cases hnot
  | some m =>
      have hm := Std.ExtTreeMap.mem_toList_iff_getElem?_eq_some.mp (List.argmin_mem hmin)
      have hle := List.le_of_mem_argmin (Std.ExtTreeMap.mem_toList_iff_getElem?_eq_some.mpr
        (Std.ExtTreeMap.getElem?_eq_some_getElem hmem)) hmin
      have hmr : m.1 ∈ r ++ [caller] :=
        (h.seen m.1).mp (Std.ExtTreeMap.mem_iff_isSome_getElem?.mpr (by rw [hm]; rfl))
      rw [Option.map_some, Option.some.injEq]
      by_contra hne
      have hmr' : m.1 ∈ r := by simpa [hne] using hmr
      have hlt := (List.pairwise_append.mp h.later).2.2 m.1 hmr' caller (by simp)
      rw [Std.ExtTreeMap.getD_eq_getD_getElem?, Std.ExtTreeMap.getD_eq_getD_getElem?, hm,
        Std.ExtTreeMap.getElem?_eq_some_getElem hmem] at hlt
      exact absurd hle (not_le.mpr hlt)

/-- Giving up the caller seen longest ago. -/
lemma Tracks.dropLast (h : L.Tracks (r ++ [caller])) :
    Tracks { L with cells := L.cells.erase caller, seen := L.seen.erase caller } r := by
  obtain ⟨hr, -, hnot⟩ := List.nodup_append'.mp h.nodup
  have hne : ∀ c ∈ r, c ≠ caller := by
    rintro c hc rfl
    exact hnot hc (List.mem_singleton_self c)
  have hseen : ∀ c ∈ r, (L.seen.erase caller).getD c 0 = L.seen.getD c 0 := by
    intro c hc
    rw [Std.ExtTreeMap.getD_erase, if_neg (by simpa using (hne c hc).symm)]
  constructor
  · exact hr
  · have := h.short
    rw [List.length_append, List.length_singleton] at this
    omega
  · intro c
    rw [Std.ExtTreeMap.mem_erase, h.cells, List.mem_append, List.mem_singleton]
    constructor
    · rintro ⟨hc, hmem | rfl⟩
      · exact hmem
      · simp at hc
    · intro hc
      exact ⟨by simpa using (hne c hc).symm, Or.inl hc⟩
  · intro c
    rw [Std.ExtTreeMap.mem_erase, h.seen, List.mem_append, List.mem_singleton]
    constructor
    · rintro ⟨hc, hmem | rfl⟩
      · exact hmem
      · simp at hc
    · intro hc
      exact ⟨by simpa using (hne c hc).symm, Or.inl hc⟩
  · refine (List.pairwise_append.mp h.later).1.imp_of_mem ?_
    intro a b ha hb hab
    rwa [hseen a ha, hseen b hb]
  · intro c
    rw [Std.ExtTreeMap.getD_erase]
    split_ifs
    · exact Nat.zero_le _
    · exact h.past c

/-- Making room leaves a place for `caller`. -/
lemma Tracks.makeRoom (h : L.Tracks r) :
    (L.makeRoom caller).Tracks (if caller ∈ r then r else r.take (maxTrackedCallers - 1)) := by
  rw [ComputeLedger.makeRoom]
  by_cases hc : caller ∈ r
  · rw [if_neg (by simp [h.cells, hc]), if_pos hc]
    exact h
  · rw [if_neg hc]
    by_cases hfull : L.cells.size ≥ maxTrackedCallers
    · rw [if_pos ⟨by rwa [h.cells], hfull⟩]
      have hlen : r.length = maxTrackedCallers := by
        have := h.short
        rw [h.size] at hfull
        omega
      obtain ⟨r', last, rfl⟩ : ∃ r' last, r = r' ++ [last] := by
        cases List.eq_nil_or_concat r with
        | inl hnil => subst hnil; simp [maxTrackedCallers] at hlen
        | inr h => simpa using h
      have htake : (r' ++ [last]).take (maxTrackedCallers - 1) = r' := by
        rw [← hlen, List.length_append, List.length_singleton, Nat.add_sub_cancel]
        exact List.take_left
      rw [h.leastRecent_concat, htake]
      exact h.dropLast
    · rw [if_neg (by simp [hfull]), List.take_of_length_le (by rw [h.size] at hfull; omega)]
      exact h

/-- A caller that is seen when there is room for it comes to the front. -/
lemma Tracks.seen_front (h : L.Tracks r) (cells : ComputeCells)
    (hroom : caller ∉ r → r.length < maxTrackedCallers) :
    Tracks ⟨L.cells.insert caller cells, L.tick + 1, L.seen.insert caller (L.tick + 1)⟩
      (caller :: r.erase caller) := by
  have hold : ∀ c ∈ r.erase caller, (L.seen.insert caller (L.tick + 1)).getD c 0 =
      L.seen.getD c 0 := by
    intro c hc
    rw [Std.ExtTreeMap.getD_insert, if_neg]
    simpa using ((h.nodup.mem_erase_iff.mp hc).1).symm
  have hmem : ∀ c, caller = c ∨ c ∈ r ↔ c ∈ caller :: r.erase caller := by
    intro c
    rw [List.mem_cons, h.nodup.mem_erase_iff]
    by_cases hc : c = caller
    · simp [hc]
    · simp [hc, Ne.symm hc]
  constructor
  · exact List.nodup_cons.mpr ⟨h.nodup.not_mem_erase, h.nodup.erase caller⟩
  · rw [List.length_cons, List.length_erase]
    have := h.short
    split_ifs with hc
    · have := List.length_pos_of_mem hc
      omega
    · exact hroom hc
  · intro c
    rw [Std.ExtTreeMap.mem_insert, h.cells, Std.LawfulEqCmp.compare_eq_iff_eq, hmem]
  · intro c
    rw [Std.ExtTreeMap.mem_insert, h.seen, Std.LawfulEqCmp.compare_eq_iff_eq, hmem]
  · refine List.pairwise_cons.mpr ⟨?_, ?_⟩
    · intro c hc
      rw [hold c hc, Std.ExtTreeMap.getD_insert_self]
      exact Nat.lt_succ_of_le (h.past c)
    · refine (h.later.sublist List.erase_sublist).imp_of_mem ?_
      intro a b ha hb hab
      rwa [hold a ha, hold b hb]
  · intro c
    rw [Std.ExtTreeMap.getD_insert]
    split_ifs
    · exact le_rfl
    · exact (h.past c).trans (Nat.le_succ _)

@[simp] lemma makeRoom_tick : (L.makeRoom caller).tick = L.tick := by
  rw [makeRoom]
  split_ifs
  · cases L.leastRecent <;> rfl
  · rfl

lemma record_eq (htick : L.tick + 1 < 2 ^ 64) : L.record caller opClass micros =
    { cells := (L.makeRoom caller).cells.insert caller
        (((L.makeRoom caller).cells.getD caller ∅).count opClass micros)
      tick := L.tick + 1
      seen := (L.makeRoom caller).seen.insert caller (L.tick + 1) } := by
  rw [record, makeRoom_tick, if_neg htick.ne]

/-- **One request.**  Its caller comes to the front of those tracked. -/
lemma Tracks.record (h : L.Tracks r) (htick : L.tick + 1 < 2 ^ 64) :
    (L.record caller opClass micros).Tracks (touch maxTrackedCallers r caller) := by
  have hroom : (L.makeRoom caller).Tracks (if caller ∈ r then r else r.take (maxTrackedCallers - 1)) :=
    h.makeRoom
  have hkeep : (L.makeRoom caller).tick = L.tick := makeRoom_tick
  rw [record_eq htick, ← hkeep, touch]
  by_cases hc : caller ∈ r
  · rw [if_pos hc] at hroom
    rw [List.take_of_length_le]
    · exact hroom.seen_front _ fun hnot => absurd hc hnot
    · have := List.length_pos_of_mem hc
      have := h.short
      rw [List.length_cons, List.length_erase_of_mem hc]
      omega
  · rw [if_neg hc] at hroom
    have hnot : caller ∉ r.take (maxTrackedCallers - 1) := fun hin => hc (List.mem_of_mem_take hin)
    have hshort : (r.take (maxTrackedCallers - 1)).length < maxTrackedCallers := by
      rw [List.length_take]
      simp only [maxTrackedCallers]
      omega
    have hseen := @Tracks.seen_front _ _ caller hroom
      (((L.makeRoom caller).cells.getD caller ∅).count opClass micros) fun _ => hshort
    rw [List.erase_of_not_mem hnot] at hseen
    rw [List.erase_of_not_mem hc]
    exact hseen

/-- The ledger after some requests, fewer than the tick can count. -/
lemma after_tracks {calls : List ComputeCall} (hlen : calls.length < 2 ^ 64) :
    (after calls).tick = calls.length ∧
      (after calls).Tracks ((recentCallers calls).take maxTrackedCallers) := by
  have htracks : (after calls).tick = calls.length ∧
      (after calls).Tracks (run (touch maxTrackedCallers) [] (calls.map Prod.fst)) := by
    induction calls using List.reverseRecOn with
    | nil => exact ⟨rfl, Tracks.new⟩
    | append_singleton calls call ih =>
        rw [List.length_append, List.length_singleton] at hlen ⊢
        obtain ⟨htick, htracks⟩ := ih (by omega)
        have hnext : (after calls).tick + 1 < 2 ^ 64 := by omega
        rw [after, run_append, run_cons, run_nil, ← after, step, List.map_append, run_append]
        refine ⟨?_, htracks.record hnext⟩
        rw [record_eq hnext, htick]
  have hrun : run (touch maxTrackedCallers) [] (calls.map Prod.fst) =
      (recentCallers calls).take maxTrackedCallers := run_touch
  rwa [hrun] at htracks

end ComputeLedger

/-- **Whom the ledger tracks.**  After any run of fewer than `2 ^ 64` requests it tracks exactly the
callers with a request behind which fewer than `maxTrackedCallers` other callers have been seen. -/
theorem tracked_callers_most_recent (calls : List ComputeCall) (hlen : calls.length < 2 ^ 64) :
    (∀ caller, caller ∈ (ComputeLedger.after calls).cells ↔
      ∃ before call since, calls = before ++ call :: since ∧ call.1 = caller ∧
        (∀ other ∈ since, other.1 ≠ caller) ∧
        (since.map Prod.fst).toFinset.card < maxTrackedCallers) ∧
      (ComputeLedger.after calls).trackedCallers =
        min maxTrackedCallers (calls.map Prod.fst).toFinset.card := by
  obtain ⟨-, htracks⟩ := ComputeLedger.after_tracks hlen
  constructor
  · intro caller
    rw [htracks.cells, recentCallers, mem_take_distinct]
    constructor
    · rintro ⟨pre, post, hcalls, hpre, hcard⟩
      rw [List.reverse_eq_iff, List.reverse_append, List.reverse_cons, List.append_assoc,
        List.singleton_append, List.map_eq_append_iff] at hcalls
      obtain ⟨before, rest, rfl, hbefore, hrest⟩ := hcalls
      obtain ⟨call, since, rfl, rfl, hsince⟩ := List.map_eq_cons_iff.mp hrest
      refine ⟨before, call, since, rfl, rfl, ?_, ?_⟩
      · intro other hother heq
        refine hpre ?_
        rw [← List.mem_reverse, ← hsince, ← heq]
        exact List.mem_map_of_mem hother
      · rwa [hsince, List.toFinset_reverse]
    · rintro ⟨before, call, since, rfl, rfl, hsince, hcard⟩
      refine ⟨(since.map Prod.fst).reverse, (before.map Prod.fst).reverse, by simp, ?_, ?_⟩
      · simpa using fun cls micros hother => hsince (call.1, cls, micros) hother rfl
      · rwa [List.toFinset_reverse]
  · rw [ComputeLedger.trackedCallers, htracks.size, List.length_take, recentCallers,
      length_distinct, List.toFinset_reverse]

/-- Three requests of two callers. -/
def sampleCalls : List ComputeCall := [("alice", "get", 3), ("bob", "put", 5), ("alice", "get", 4)]

/-- Both callers are tracked, Bob with one other caller behind his request. -/
theorem tracked_callers_most_recent_two : "bob" ∈ (ComputeLedger.after sampleCalls).cells ∧
    (ComputeLedger.after sampleCalls).trackedCallers = 2 := by
  have hlen : sampleCalls.length < 2 ^ 64 := by decide
  obtain ⟨htracked, hcount⟩ := tracked_callers_most_recent sampleCalls hlen
  constructor
  · refine (htracked "bob").mpr
      ⟨[("alice", "get", 3)], ("bob", "put", 5), [("alice", "get", 4)], rfl, rfl, ?_, ?_⟩
    · simp
    · simp [maxTrackedCallers]
  · rw [hcount]
    decide

/-! ## What it has counted -/

/-- The cell of requests of the given durations; without a request there is none. -/
def ComputeCell.total (durations : List Nat) : Option ComputeCell :=
  if durations = [] then none
  else some ⟨min durations.length (2 ^ 64 - 1), min durations.sum (2 ^ 64 - 1)⟩

/-- The requests of `caller` in class `opClass` among `calls`, by their durations. -/
def durationsOf (caller opClass : String) (calls : List ComputeCall) : List Nat :=
  (calls.filter fun call => call.1 = caller ∧ call.2.1 = opClass).map fun call => call.2.2

lemma ComputeCell.total_concat (durations : List Nat) (micros : Nat) :
    let cell := (total durations).getD ⟨0, 0⟩
    total (durations ++ [micros]) =
      some ⟨saturatingAdd cell.requests 1, saturatingAdd cell.micros micros⟩ := by
  by_cases hd : durations = []
  · subst hd
    simp [total, saturatingAdd]
  · simp only [total, hd, List.append_eq_nil_iff, false_and, if_false, Option.getD_some,
      List.length_append, List.length_singleton, List.sum_append, List.sum_singleton,
      saturatingAdd, Option.some.injEq, ComputeCell.mk.injEq]
    omega

lemma ComputeCells.getElem?_count (cells : ComputeCells) (cls opClass : String) (micros : Nat) :
    (cells.count cls micros)[opClass]? =
      if cls = opClass then
        some ⟨saturatingAdd (cells[opClass]?.getD ⟨0, 0⟩).requests 1,
          saturatingAdd (cells[opClass]?.getD ⟨0, 0⟩).micros micros⟩
      else cells[opClass]? := by
  rw [count, Std.ExtTreeMap.getElem?_insert]
  by_cases h : cls = opClass
  · rw [if_pos (by simpa using h), if_pos h, h, Std.ExtTreeMap.getD_eq_getD_getElem?]
  · rw [if_neg (by simpa using h), if_neg h]

/-- What counting builds up in the cells of one caller. -/
lemma getElem?_valueOf_count (counted : List (String × Nat)) (opClass : String) :
    ((valueOf (fun (cells : Option ComputeCells) c => (cells.getD ∅).count c.1 c.2)
        counted).getD ∅)[opClass]? =
      ComputeCell.total ((counted.filter fun c => c.1 = opClass).map Prod.snd) := by
  induction counted using List.reverseRecOn with
  | nil => simp [valueOf, ComputeCell.total]
  | append_singleton counted c ih =>
      rw [valueOf_concat, Option.getD_some, ComputeCells.getElem?_count, ih, List.filter_append,
        List.map_append]
      by_cases hc : c.1 = opClass
      · rw [if_pos hc, List.filter_singleton, decide_eq_true hc, Bool.cond_true, List.map_singleton,
          ComputeCell.total_concat]
      · rw [if_neg hc, List.filter_singleton, decide_eq_false hc, Bool.cond_false, List.map_nil,
          List.append_nil]

namespace ComputeLedger

variable {L : ComputeLedger} {caller other opClass : String} {micros : Nat}

/-- Making room for `caller` does not touch its cells. -/
lemma getElem?_makeRoom_self : (L.makeRoom caller).cells[caller]? = L.cells[caller]? := by
  rw [makeRoom]
  split_ifs with h
  · cases L.leastRecent with
    | none => rfl
    | some evict =>
        rw [Std.ExtTreeMap.getElem?_erase, Std.ExtTreeMap.getElem?_eq_none h.1]
        split_ifs <;> rfl
  · rfl

/-- Making room leaves the cells of a caller, or gives up the caller. -/
lemma getElem?_makeRoom : (L.makeRoom caller).cells[other]? = L.cells[other]? ∨
    (L.makeRoom caller).cells[other]? = none := by
  rw [makeRoom]
  split_ifs with h
  · cases L.leastRecent with
    | none => exact Or.inl rfl
    | some evict =>
        rw [Std.ExtTreeMap.getElem?_erase]
        split_ifs
        · exact Or.inr rfl
        · exact Or.inl rfl
  · exact Or.inl rfl

/-- The cells of the caller after a request. -/
lemma getElem?_record_self (htick : L.tick + 1 < 2 ^ 64) :
    (L.record caller opClass micros).cells[caller]? =
      some ((L.cells[caller]?.getD ∅).count opClass micros) := by
  rw [record_eq htick, Std.ExtTreeMap.getElem?_insert_self, Std.ExtTreeMap.getD_eq_getD_getElem?,
    getElem?_makeRoom_self]

/-- The cells of another caller after a request. -/
lemma getElem?_record_of_ne (htick : L.tick + 1 < 2 ^ 64) (hne : caller ≠ other) :
    (L.record caller opClass micros).cells[other]? = L.cells[other]? ∨
      (L.record caller opClass micros).cells[other]? = none := by
  have hcells : (L.record caller opClass micros).cells[other]? =
      (L.makeRoom caller).cells[other]? := by
    rw [record_eq htick, Std.ExtTreeMap.getElem?_insert, if_neg (by simpa using hne)]
  rw [hcells]
  exact getElem?_makeRoom

end ComputeLedger

/-- **What the ledger has counted.**  A caller that is tracked throughout `since`, before which it
was not, has in each class the requests it made in `since` and the time spent on them, up to the
largest number a counter holds: what was counted before the caller was last taken in is forgotten,
and nothing else is. -/
theorem cell_counts_since (before since : List ComputeCall) (caller opClass : String)
    (hlen : (before ++ since).length < 2 ^ 64)
    (hnew : caller ∉ (ComputeLedger.after before).cells)
    (hkept : ∀ p, p ≠ [] → p <+: since → caller ∈ (ComputeLedger.after (before ++ p)).cells) :
    ((ComputeLedger.after (before ++ since)).cells.getD caller ∅)[opClass]? =
      ComputeCell.total (durationsOf caller opClass since) := by
  have htick : ∀ p u, p ++ [u] <+: since →
      (run ComputeLedger.step (ComputeLedger.after before) p).tick + 1 < 2 ^ 64 := by
    intro p u hp
    have hle := hp.length_le
    rw [List.length_append, List.length_singleton] at hle
    rw [List.length_append] at hlen
    have hshort : (before ++ p).length < 2 ^ 64 := by rw [List.length_append]; omega
    rw [ComputeLedger.after, ← run_append, ← ComputeLedger.after,
      (ComputeLedger.after_tracks hshort).1, List.length_append]
    omega
  have hvalue : (run ComputeLedger.step (ComputeLedger.after before) since).cells[caller]? =
      valueOf (fun cells c => (cells.getD ∅).count c.1 c.2) (usesOf caller since) := by
    refine value_since ComputeLedger.step (fun L c => L.cells[c]?) _ ?_ ?_
      (Std.ExtTreeMap.getElem?_eq_none hnew) ?_
    · rintro p ⟨c, cls, micros⟩ hp rfl
      rw [run_append]
      exact ComputeLedger.getElem?_record_self (htick p _ hp)
    · rintro p ⟨c, cls, micros⟩ hp hne
      rw [run_append]
      exact ComputeLedger.getElem?_record_of_ne (htick p _ hp) hne
    · intro p hne hp
      have hmem := hkept p hne hp
      rw [ComputeLedger.after, run_append, ← ComputeLedger.after] at hmem
      exact Option.isSome_iff_ne_none.mp (Std.ExtTreeMap.mem_iff_isSome_getElem?.mp hmem)
  rw [ComputeLedger.after, run_append, ← ComputeLedger.after, Std.ExtTreeMap.getD_eq_getD_getElem?,
    hvalue, getElem?_valueOf_count, usesOf, durationsOf, List.filter_map, List.map_map,
    List.filter_filter]
  refine congrArg (fun calls => ComputeCell.total (List.map _ calls)) (List.filter_congr ?_)
  intro call _
  simp [Bool.and_comm]

/-- Alice has been tracked since the first of the three requests. -/
theorem cell_counts_since_two :
    ((ComputeLedger.after sampleCalls).cells.getD "alice" ∅)["get"]? = some ⟨2, 7⟩ := by
  have hlen : ([] ++ sampleCalls : List ComputeCall).length < 2 ^ 64 := by decide
  have hnew : "alice" ∉ (ComputeLedger.after []).cells := by
    simp [ComputeLedger.after, ComputeLedger.new]
  refine (cell_counts_since [] sampleCalls "alice" "get" hlen hnew ?_).trans rfl
  intro p hne hp
  have hshort : p.length < 2 ^ 64 := hp.length_le.trans_lt hlen
  rw [List.nil_append, (ComputeLedger.after_tracks hshort).2.cells]
  have hall : ∀ q ∈ sampleCalls.inits, q ≠ [] →
      "alice" ∈ (recentCallers q).take maxTrackedCallers := by
    decide
  exact hall p ((List.mem_inits _ _).mpr hp) hne

/-! ## The report -/

/-- A row of `compute_usage`. -/
structure ComputeUsageRecord where
  caller : String
  opClass : String
  requests : Int
  micros : Int
  deriving DecidableEq, Repr

/-- A row of the report. -/
structure ComputeUsageRow where
  caller : String
  opClass : String
  requests : Nat
  micros : Nat
  deriving DecidableEq, Repr

/-- The primary key of a row. -/
def ComputeUsageRecord.key (row : ComputeUsageRecord) : String × String := (row.caller, row.opClass)

/-- The columns a cell is stored in. -/
def ComputeRow.toRecord (row : ComputeRow) : ComputeUsageRecord :=
  ⟨row.caller, row.opClass, toColumn row.cell.requests, toColumn row.cell.micros⟩

/-- Read a row back. -/
def ComputeUsageRecord.toRow (row : ComputeUsageRecord) : ComputeUsageRow :=
  ⟨row.caller, row.opClass, (max row.requests 0).natAbs, (max row.micros 0).natAbs⟩

/-- `INSERT INTO compute_usage`. -/
def insertComputeUsage (table : List ComputeUsageRecord) (row : ComputeRow) :
    Except PersistError (List ComputeUsageRecord) :=
  if row.key ∈ table.map ComputeUsageRecord.key then .error .constraintViolation
  else .ok (table ++ [row.toRecord])

/-- Replace the persisted snapshot: every row is deleted, and the given ones inserted, in one
transaction. -/
def replaceComputeUsage (rows : List ComputeRow) : Except PersistError (List ComputeUsageRecord) :=
  rows.foldlM insertComputeUsage []

/-- Load the persisted snapshot, ordered by caller and then by class. -/
def loadComputeUsage (table : List ComputeUsageRecord) : List ComputeUsageRow :=
  (sortRows ComputeUsageRecord.key table).map ComputeUsageRecord.toRow

section

variable {α : Type} {key : α → String × String} {l : List α}

instance : Std.TransCmp rowCompare :=
  inferInstanceAs (Std.TransCmp (compareLex (compareOn fun key : String × String => asBytes key.1)
    (compareOn fun key => asBytes key.2)))

instance : Std.LawfulEqCmp rowCompare where
  eq_of_compare {a b} h := by
    rw [rowCompare, compareLex, Ordering.then_eq_eq] at h
    exact Prod.ext (byteCompare_eq_iff.mp h.1) (byteCompare_eq_iff.mp h.2)

lemma perm_sortRows : (sortRows key l).Perm l := List.perm_insertionSort _ l

/-- Rows with distinct keys are sorted strictly. -/
lemma pairwise_sortRows (hkeys : (l.map key).Nodup) :
    (sortRows key l).Pairwise fun a b => rowCompare (key a) (key b) = .lt := by
  have : Std.Total fun a b : α => (rowCompare (key a) (key b)).isLE = true := by
    refine ⟨fun a b => ?_⟩
    have hswap : rowCompare (key b) (key a) = (rowCompare (key a) (key b)).swap :=
      Std.OrientedCmp.eq_swap
    rw [hswap]
    cases rowCompare (key a) (key b) <;> simp
  have : IsTrans α fun a b => (rowCompare (key a) (key b)).isLE = true :=
    ⟨fun a b c => Std.TransCmp.isLE_trans⟩
  have hsorted : (sortRows key l).Pairwise fun a b => (rowCompare (key a) (key b)).isLE = true :=
    List.pairwise_insertionSort _ l
  have hdistinct : ((sortRows key l).map key).Nodup := (perm_sortRows.map key).nodup_iff.mpr hkeys
  rw [List.Nodup, List.pairwise_map] at hdistinct
  refine (hsorted.and hdistinct).imp ?_
  rintro a b ⟨hle, hne⟩
  have hneq : rowCompare (key a) (key b) ≠ .eq := fun h => hne (Std.LawfulEqCmp.eq_of_compare h)
  cases h : rowCompare (key a) (key b) with
  | lt => rfl
  | eq => exact absurd h hneq
  | gt => rw [h] at hle; cases hle

end

/-- Rows with distinct keys are all inserted. -/
lemma foldlM_insertComputeUsage {rows : List ComputeRow} {table : List ComputeUsageRecord}
    (hkeys : (table.map ComputeUsageRecord.key ++ rows.map ComputeRow.key).Nodup) :
    rows.foldlM insertComputeUsage table = .ok (table ++ rows.map ComputeRow.toRecord) := by
  induction rows generalizing table with
  | nil => simp [pure, Except.pure]
  | cons row rows ih =>
      have hnew : row.key ∉ table.map ComputeUsageRecord.key := by
        intro hin
        exact (List.nodup_append'.mp hkeys).2.2 hin (by simp)
      rw [List.foldlM_cons, insertComputeUsage, if_neg hnew]
      change rows.foldlM insertComputeUsage (table ++ [row.toRecord]) = _
      rw [ih]
      · simp
      · rw [List.map_append, List.append_assoc]
        exact hkeys

namespace ComputeLedger

variable {L : ComputeLedger}

lemma mem_rows {row : ComputeRow} :
    row ∈ L.rows ↔ ∃ cells, L.cells[row.caller]? = some cells ∧
      cells[row.opClass]? = some row.cell := by
  rw [rows, List.mem_flatMap]
  constructor
  · rintro ⟨⟨caller, cells⟩, hcells, hrow⟩
    obtain ⟨⟨cls, cell⟩, hcell, rfl⟩ := List.mem_map.mp hrow
    exact ⟨cells, Std.ExtTreeMap.mem_toList_iff_getElem?_eq_some.mp hcells,
      Std.ExtTreeMap.mem_toList_iff_getElem?_eq_some.mp hcell⟩
  · rintro ⟨cells, hcells, hcell⟩
    refine ⟨(row.caller, cells), Std.ExtTreeMap.mem_toList_iff_getElem?_eq_some.mpr hcells, ?_⟩
    exact List.mem_map.mpr ⟨(row.opClass, row.cell),
      Std.ExtTreeMap.mem_toList_iff_getElem?_eq_some.mpr hcell, rfl⟩

/-- No two rows share a caller and a class. -/
lemma nodup_rows : (L.rows.map ComputeRow.key).Nodup := by
  rw [rows, List.map_flatMap, List.nodup_flatMap]
  constructor
  · rintro ⟨caller, cells⟩ -
    rw [List.map_map, List.Nodup, List.pairwise_map]
    refine cells.distinct_keys_toList.imp ?_
    intro a b hne heq
    exact hne (Std.LawfulEqCmp.compare_eq_iff_eq.mpr (Prod.ext_iff.mp heq).2)
  · refine L.cells.distinct_keys_toList.imp ?_
    intro a b hne
    refine List.disjoint_left.mpr fun key ha hb => ?_
    simp only [List.map_map, List.mem_map, Function.comp_apply, ComputeRow.key] at ha hb
    obtain ⟨k, -, rfl⟩ := ha
    obtain ⟨k', -, heq⟩ := hb
    exact hne (Std.LawfulEqCmp.compare_eq_iff_eq.mpr (Prod.ext_iff.mp heq).1.symm)

/-- The snapshot does not depend on the order in which the maps are walked. -/
lemma sortRows_eq_snapshot {walk : List ComputeRow} (h : walk.Perm L.rows) :
    sortRows ComputeRow.key walk = L.snapshot := by
  have hkeys : (walk.map ComputeRow.key).Nodup := (h.map _).nodup_iff.mpr nodup_rows
  refine (perm_sortRows.trans (h.trans perm_sortRows.symm)).eq_of_pairwise ?_
    (pairwise_sortRows hkeys) (pairwise_sortRows nodup_rows)
  intro a b _ _ hab hba
  have hswap : rowCompare b.key a.key = (rowCompare a.key b.key).swap := Std.OrientedCmp.eq_swap
  rw [hswap, hab] at hba
  cases hba

end ComputeLedger

/-- **What `ciss usage` reads.**  In whatever order the maps of the ledger are walked, the snapshot
is the same, its flush succeeds, and what is read back from the table is one row for each cell and
nothing else, in the order of callers and classes, each counter as it stands or, past the range of
the column, the largest number of the column. -/
theorem flush_reports_cells (L : ComputeLedger) (walk : List ComputeRow) (hwalk : walk.Perm L.rows) :
    sortRows ComputeRow.key walk = L.snapshot ∧
    ∃ table, replaceComputeUsage L.snapshot = .ok table ∧
      (loadComputeUsage table).Pairwise
        (fun a b => rowCompare (a.caller, a.opClass) (b.caller, b.opClass) = .lt) ∧
      ∀ row, row ∈ loadComputeUsage table ↔ ∃ cells cell, L.cells[row.caller]? = some cells ∧
        cells[row.opClass]? = some cell ∧ row.requests = min cell.requests i64Max ∧
        row.micros = min cell.micros i64Max := by
  have hread : ∀ n, (max (toColumn n) 0).natAbs = min n i64Max := by
    intro n
    rw [toColumn]
    split_ifs with hn <;> omega
  have hperm : L.snapshot.Perm L.rows := perm_sortRows
  have hkeys : (L.snapshot.map ComputeRow.key).Nodup :=
    (hperm.map _).nodup_iff.mpr ComputeLedger.nodup_rows
  have hrecords : (L.snapshot.map ComputeRow.toRecord).map ComputeUsageRecord.key =
      L.snapshot.map ComputeRow.key := by
    rw [List.map_map]
    rfl
  refine ⟨ComputeLedger.sortRows_eq_snapshot hwalk, L.snapshot.map ComputeRow.toRecord, ?_, ?_, ?_⟩
  · rw [replaceComputeUsage, foldlM_insertComputeUsage (by simpa using hkeys), List.nil_append]
  · have hstored := hkeys
    rw [← hrecords] at hstored
    rw [loadComputeUsage, List.pairwise_map]
    exact pairwise_sortRows hstored
  · intro row
    rw [loadComputeUsage, List.mem_map]
    constructor
    · rintro ⟨record, hrecord, rfl⟩
      obtain ⟨r, hr, rfl⟩ := List.mem_map.mp (perm_sortRows.mem_iff.mp hrecord)
      obtain ⟨cells, hcells, hcell⟩ := ComputeLedger.mem_rows.mp (hperm.mem_iff.mp hr)
      exact ⟨cells, r.cell, hcells, hcell, hread _, hread _⟩
    · rintro ⟨cells, cell, hcells, hcell, hrequests, hmicros⟩
      have hr : (⟨row.caller, row.opClass, cell⟩ : ComputeRow) ∈ L.rows :=
        ComputeLedger.mem_rows.mpr ⟨cells, hcells, hcell⟩
      refine ⟨_, perm_sortRows.mem_iff.mpr (List.mem_map_of_mem (hperm.mem_iff.mpr hr)), ?_⟩
      obtain ⟨caller, opClass, requests, micros⟩ := row
      simp only at hrequests hmicros
      rw [ComputeRow.toRecord, ComputeUsageRecord.toRow, hread, hread, hrequests, hmicros]

/-- The two cells of the three requests, walked backwards. -/
theorem flush_reports_cells_two :
    sortRows ComputeRow.key (ComputeLedger.after sampleCalls).rows.reverse =
        (ComputeLedger.after sampleCalls).snapshot ∧
      ∃ table, replaceComputeUsage (ComputeLedger.after sampleCalls).snapshot = .ok table ∧
        ∀ row ∈ loadComputeUsage table, ∃ cells cell,
          (ComputeLedger.after sampleCalls).cells[row.caller]? = some cells ∧
            cells[row.opClass]? = some cell ∧ row.requests = min cell.requests i64Max := by
  obtain ⟨hsnapshot, table, hok, -, hrows⟩ := flush_reports_cells (ComputeLedger.after sampleCalls)
    (ComputeLedger.after sampleCalls).rows.reverse (List.reverse_perm _)
  refine ⟨hsnapshot, table, hok, fun row hrow => ?_⟩
  obtain ⟨cells, cell, hcells, hcell, hrequests, -⟩ := (hrows row).mp hrow
  exact ⟨cells, cell, hcells, hcell, hrequests⟩

end Ciss
