import Mathlib.Algebra.Order.BigOperators.Group.List
import Mathlib.Algebra.Order.Group.Nat
import Ciss.Framework.HashTable
import Ciss.Server.Objects

/-!
# Storage limits under interleaving

An upload of a new blob reads the usage of the store in one section, and adds to it in another.
`WithinLimits` says that the stored bytes are within the store ceiling and each DID's within the
provider's per-DID cap.  It is not kept by every interleaving: two uploads that each fit alone can
both read the same usage and then both commit (`racing_uploads_exceed_ceiling`).

`within_limits_of_current_usage` says that the stale read is all that is wrong: along every run in
which each commit of a new blob still finds the usage its request read (`UsageCurrent`), no state
reached is beyond a limit.  The argument carries what an admitted request knows: the usage it read
plus its size is within both limits (`StageOk`).
-/

namespace Ciss

/-! ## Stored bytes -/

namespace MeterStore

variable {s : MeterStore} {did did' : String}

/-- The total of the stored-bytes column. -/
def totalStored (s : MeterStore) : Nat := (s.didTotal.map DidTotal.storedBytes).sum

/-- No DID has two cached rows. -/
def UniqueRows (s : MeterStore) : Prop := (s.didTotal.map DidTotal.did).Nodup

lemma didStoredBytes_le_totalStored (did : String) : s.didStoredBytes did ≤ s.totalStored := by
  unfold didStoredBytes
  rcases hrow : s.totalRow did with _ | row
  · simp
  · have hmem : row ∈ s.didTotal := List.mem_of_find?_eq_some hrow
    exact List.le_sum_of_mem (List.mem_map_of_mem hmem)

lemma storeUsage_ok {used : Nat} (h : s.storeUsage = .ok used) :
    used = s.totalStored ∧ s.totalStored ≤ i64Max := by
  unfold storeUsage at h
  dsimp only at h
  split_ifs at h with hle
  cases h
  exact ⟨rfl, hle⟩

lemma totalStored_ensureTotalRow (s : MeterStore) (did : String) :
    (s.ensureTotalRow did).totalStored = s.totalStored := by
  unfold ensureTotalRow totalStored
  split
  · rfl
  · simp

lemma didStoredBytes_ensureTotalRow (s : MeterStore) (did : String) :
    (s.ensureTotalRow did).didStoredBytes did' = s.didStoredBytes did' := by
  unfold ensureTotalRow
  split
  · rfl
  · rename_i hnone
    unfold didStoredBytes totalRow
    rw [List.find?_append]
    by_cases hdid : did = did'
    · subst hdid
      unfold totalRow at hnone
      simp [hnone]
    · simp [hdid]

lemma uniqueRows_ensureTotalRow (h : s.UniqueRows) : (s.ensureTotalRow did).UniqueRows := by
  unfold ensureTotalRow
  split
  · exact h
  · rename_i hnone
    unfold UniqueRows
    rw [List.map_append, List.nodup_append]
    refine ⟨h, by simp, ?_⟩
    intro d hd d' hd' hdd
    obtain ⟨row, hrow, rfl⟩ := List.mem_map.mp hd
    have hfind := List.find?_eq_none.mp hnone row hrow
    simp only [List.map_cons, List.map_nil, List.mem_singleton] at hd'
    exact hfind (by simp [hdd, hd'])

lemma mem_ensureTotalRow (s : MeterStore) (did : String) :
    ∃ row ∈ (s.ensureTotalRow did).didTotal, row.did = did := by
  unfold ensureTotalRow
  split
  · rename_i row hrow
    exact ⟨row, List.mem_of_find?_eq_some hrow, by simpa using List.find?_some hrow⟩
  · exact ⟨_, List.mem_append_right _ (List.mem_singleton_self _), rfl⟩

/-- What an append does to the cached rows: none changes its DID or its stored bytes. -/
lemma appendReceipt_didTotal (s : MeterStore) (did : String) (r : Receipt) :
    ∃ g : DidTotal → DidTotal,
      (∀ row, (g row).did = row.did ∧ (g row).storedBytes = row.storedBytes) ∧
        (s.appendReceipt did r).didTotal = (s.ensureTotalRow did).didTotal.map g := by
  refine ⟨_, ?_, rfl⟩
  intro row
  by_cases hdid : row.did = did
  · rw [if_pos hdid]
    exact ⟨rfl, rfl⟩
  · rw [if_neg hdid]
    exact ⟨rfl, rfl⟩

/-- Looking a DID up in rows whose DIDs a function keeps. -/
lemma find?_map_did {rows : List DidTotal} {g : DidTotal → DidTotal}
    (hg : ∀ row, (g row).did = row.did) (did : String) :
    (rows.map g).find? (fun row => row.did = did) =
      (rows.find? fun row => row.did = did).map g := by
  rw [List.find?_map]
  congr 2
  funext row
  simp [hg]

lemma totalStored_appendReceipt (r : Receipt) :
    (s.appendReceipt did r).totalStored = s.totalStored := by
  obtain ⟨g, hg, hrows⟩ := s.appendReceipt_didTotal did r
  rw [← totalStored_ensureTotalRow s did]
  unfold totalStored
  rw [hrows, List.map_map]
  congr 1
  exact List.map_congr_left fun row _ => (hg row).2

lemma didStoredBytes_appendReceipt (r : Receipt) :
    (s.appendReceipt did r).didStoredBytes did' = s.didStoredBytes did' := by
  obtain ⟨g, hg, hrows⟩ := s.appendReceipt_didTotal did r
  rw [← didStoredBytes_ensureTotalRow s did]
  unfold didStoredBytes totalRow
  rw [hrows, find?_map_did (fun row => (hg row).1), Option.map_map]
  congr 2
  funext row
  exact (hg row).2

lemma uniqueRows_appendReceipt (r : Receipt) (h : s.UniqueRows) :
    (s.appendReceipt did r).UniqueRows := by
  obtain ⟨g, hg, hrows⟩ := s.appendReceipt_didTotal did r
  have hkeys : DidTotal.did ∘ g = DidTotal.did := funext fun row => (hg row).1
  unfold UniqueRows
  rw [hrows, List.map_map, hkeys]
  exact uniqueRows_ensureTotalRow h

/-- Adding to the one row of a DID adds to the column's total. -/
lemma sum_map_update {rows : List DidTotal} {size : Nat}
    (hnodup : (rows.map DidTotal.did).Nodup) (hmem : ∃ row ∈ rows, row.did = did) :
    ((rows.map fun row => if row.did = did then { row with storedBytes := row.storedBytes + size }
      else row).map DidTotal.storedBytes).sum =
      (rows.map DidTotal.storedBytes).sum + size := by
  induction rows with
  | nil =>
      obtain ⟨row, hrow, -⟩ := hmem
      cases hrow
  | cons row rows ih =>
      rw [List.map_cons, List.nodup_cons] at hnodup
      by_cases hdid : row.did = did
      · -- the rest has no row of this DID, so it is copied
        have hrest : (rows.map fun row => if row.did = did then
            { row with storedBytes := row.storedBytes + size } else row) = rows.map id := by
          refine List.map_congr_left fun row' hrow' => ?_
          rw [if_neg]
          · rfl
          · intro hsame
            exact hnodup.1 (List.mem_map.mpr ⟨row', hrow', hsame.trans hdid.symm⟩)
        rw [List.map_cons, hrest, List.map_id, if_pos hdid]
        simp only [List.map_cons, List.sum_cons]
        omega
      · obtain ⟨row', hrow', hsame⟩ := hmem
        have hmem' : ∃ row ∈ rows, row.did = did := by
          rcases List.mem_cons.mp hrow' with rfl | hin
          · exact absurd hsame hdid
          · exact ⟨row', hin, hsame⟩
        have hrest := ih hnodup.2 hmem'
        simp only [List.map_cons, List.sum_cons, if_neg hdid]
        rw [hrest]
        omega

lemma totalStored_addStoredBytes (h : s.UniqueRows) (size : Nat) :
    (s.addStoredBytes did size).totalStored = s.totalStored + size := by
  rw [← totalStored_ensureTotalRow s did]
  exact sum_map_update (uniqueRows_ensureTotalRow h) (s.mem_ensureTotalRow did)

lemma didStoredBytes_addStoredBytes (size : Nat) :
    (s.addStoredBytes did size).didStoredBytes did' =
      if did' = did then s.didStoredBytes did' + size else s.didStoredBytes did' := by
  rw [← didStoredBytes_ensureTotalRow s did]
  have hkey : ∀ row : DidTotal, (if row.did = did then
      { row with storedBytes := row.storedBytes + size } else row).did = row.did := by
    intro row
    split_ifs <;> rfl
  unfold addStoredBytes updateTotalRow didStoredBytes totalRow
  rw [find?_map_did hkey]
  rcases hfind : (s.ensureTotalRow did).didTotal.find? (fun row => row.did = did') with _ | row
  · -- the updated DID has a row, so an absent one is another's
    have hne : did' ≠ did := by
      rintro rfl
      obtain ⟨row, hrow, hdid⟩ := s.mem_ensureTotalRow did'
      exact List.find?_eq_none.mp hfind row hrow (by simpa using hdid)
    rw [hfind, if_neg hne]
    rfl
  · have hdid : row.did = did' := by simpa using List.find?_some hfind
    rw [hfind]
    simp only [Option.map_some, Option.getD_some, hdid]
    split_ifs <;> rfl

lemma uniqueRows_addStoredBytes (h : s.UniqueRows) (size : Nat) :
    (s.addStoredBytes did size).UniqueRows := by
  have hkeys : (DidTotal.did ∘ fun row : DidTotal => if row.did = did then
      { row with storedBytes := row.storedBytes + size } else row) = DidTotal.did := by
    funext row
    simp only [Function.comp]
    split_ifs <;> rfl
  unfold UniqueRows addStoredBytes updateTotalRow
  rw [List.map_map, hkeys]
  exact uniqueRows_ensureTotalRow h

end MeterStore

/-! ## What an admitted request knows -/

/-- The stored bytes are within the store ceiling, and each DID's within the per-DID cap. -/
def WithinLimits (limits : Limits) (s : MeterStore) : Prop :=
  s.totalStored ≤ limits.storeCeiling ∧
    ∀ cap, limits.didCap = some cap → ∀ did, s.didStoredBytes did ≤ cap

/-- The usage an upload read, with its own size added, is within the limits checked so far. -/
def StageOk (limits : Limits) (size : Nat) : PutStage → Prop
  | .quota read => read.storeUsed + size ≤ limits.storeCeiling ∧ read.didStored ≤ i64Max
  | .write (some read) | .commit (some read) =>
      read.storeUsed + size ≤ limits.storeCeiling ∧
        ∀ cap, limits.didCap = some cap → read.didStored + size ≤ cap
  | _ => True

section

variable {S : ObjectServer} {s : MeterStore} {w : ObjectWorld} {limits : Limits} {size : Nat}

lemma add_le_of_saturatingAdd_le {a b bound : Nat} (ha : a ≤ i64Max) (hb : b ≤ i64Max)
    (h : ¬ saturatingAdd a b > bound) : a + b ≤ bound := by
  unfold saturatingAdd at h
  unfold i64Max at ha hb
  omega

lemma readUsage_ok {did : String} {read : Usage} (hsize : size ≤ i64Max)
    (h : readUsage limits s did size = .ok read) : StageOk limits size (.quota read) := by
  unfold readUsage at h
  rcases hused : s.storeUsage with e | used
  · rw [hused] at h
    cases h
  · rw [hused] at h
    dsimp only at h
    split_ifs at h with hfull
    cases h
    obtain ⟨hused', hle⟩ := MeterStore.storeUsage_ok hused
    refine ⟨add_le_of_saturatingAdd_le (hused'.trans_le hle) hsize hfull, ?_⟩
    exact (MeterStore.didStoredBytes_le_totalStored did).trans hle

lemma checkDidQuota_ok {did : String} {read : Usage} (hsize : size ≤ i64Max)
    (hread : StageOk limits size (.quota read))
    (h : checkDidQuota limits s did read size = .ok ()) :
    StageOk limits size (.write (some read)) := by
  refine ⟨hread.1, ?_⟩
  intro cap hcap
  unfold checkDidQuota at h
  rw [hcap] at h
  rcases hdial : (s.dials did).atRestBytes with _ | dial
  · rw [hdial] at h
    simp only [effectiveCap] at h
    split_ifs at h with hfull
    exact add_le_of_saturatingAdd_le hread.2 hsize hfull
  · rw [hdial] at h
    simp only [effectiveCap] at h
    split_ifs at h with hfull
    have hmin := add_le_of_saturatingAdd_le hread.2 hsize hfull
    exact hmin.trans (Nat.min_le_left _ _)

/-- A section that goes on leaves an upload that knows what its stage asks for. -/
lemma runSection_stageOk {blobs blobs' : Blobs} {fault : Fault} {s' : MeterStore}
    {did did' key key' : String} {bytes bytes' : Slice} {stage stage' : PutStage}
    (hstage : StageOk S.limits bytes.bytes.length stage)
    (h : S.runSection s blobs fault (.put did key bytes stage) =
      (s', blobs', .continue (.put did' key' bytes' stage'))) :
    StageOk S.limits bytes'.bytes.length stage' := by
  obtain ⟨-, _, hput, hmoves⟩ := runSection_put_continue h
  cases hput
  cases hmoves with
  | gates _ => trivial
  | new _ => trivial
  | known _ => trivial
  | usage hread => exact readUsage_ok bytes.len_le hread
  | quota hquota => exact checkDidQuota_ok bytes.len_le hstage hquota
  | write read =>
      rcases read with _ | read
      · trivial
      · exact hstage

/-- Every upload in flight knows what its stage asks for. -/
def FlightOk (S : ObjectServer) (w : ObjectWorld) : Prop :=
  ∀ id did key bytes stage, w.inFlight id = some (.put did key bytes stage) →
    StageOk S.limits bytes.bytes.length stage

/-- Only an upload continues as an upload. -/
lemma runSection_continue_put {blobs blobs' : Blobs} {fault : Fault} {s' : MeterStore}
    {req : InFlight} {did key : String} {bytes : Slice} {stage : PutStage}
    (h : S.runSection s blobs fault req = (s', blobs', .continue (.put did key bytes stage))) :
    ∃ did' key' bytes' stage', req = .put did' key' bytes' stage' := by
  rcases req with ⟨did', key', bytes', stage'⟩ | ⟨did', cid⟩ | ⟨did', cid, data⟩ |
    ⟨did', contentHash, payload⟩
  · exact ⟨did', key', bytes', stage', rfl⟩
  · simp only [ObjectServer.runSection] at h
    split_ifs at h
    · cases h
    · split at h
      · cases h
      · split_ifs at h <;> cases h
  · cases h
  · cases h

lemma FlightOk.step (h : FlightOk S w) (a : ObjectAction) : FlightOk S (S.step w a) := by
  rcases a with ⟨id, request⟩ | ⟨id, fault⟩ | ⟨did, dials⟩ | did
  · simp only [ObjectServer.step]
    split
    · exact h
    · intro id' did key bytes stage hid
      by_cases hsame : id' = id
      · subst hsame
        simp only [Function.update_self, Option.some.injEq] at hid
        rcases request with _ | _ | _
        · cases hid
          trivial
        · cases hid
        · cases hid
      · simp only [Function.update_of_ne hsame] at hid
        exact h id' did key bytes stage hid
  · simp only [ObjectServer.step]
    rcases hreq : w.inFlight id with _ | req
    · exact h
    · dsimp only
      rcases hsec : S.runSection w.store w.blobs fault req with ⟨store, blobs, req' | result⟩
      · intro id' did key bytes stage hid
        by_cases hsame : id' = id
        · subst hsame
          simp only [Function.update_self, Option.some.injEq] at hid
          subst hid
          obtain ⟨did', key', bytes', stage', rfl⟩ := runSection_continue_put hsec
          exact runSection_stageOk (h id' did' key' bytes' stage' hreq) hsec
        · simp only [Function.update_of_ne hsame] at hid
          exact h id' did key bytes stage hid
      · intro id' did key bytes stage hid
        by_cases hsame : id' = id
        · subst hsame
          simp at hid
        · simp only [Function.update_of_ne hsame] at hid
          exact h id' did key bytes stage hid
  · exact h
  · exact h

/-! ## Runs with current reads -/

/-- A commit of a new blob still finds the usage its request read when it was admitted. -/
def usageCurrent (w : ObjectWorld) : ObjectAction → Bool
  | .advance id _ =>
      match w.inFlight id with
      | some (.put did _ _ (.commit (some read))) =>
          w.store.storeUsage = .ok read.storeUsed && w.store.didStoredBytes did = read.didStored
      | _ => true
  | _ => true

/-- `usageCurrent` as a condition on the steps of a run. -/
def UsageCurrent (w : ObjectWorld) (a : ObjectAction) : Prop := usageCurrent w a = true

instance (w : ObjectWorld) (a : ObjectAction) : Decidable (UsageCurrent w a) :=
  inferInstanceAs (Decidable (usageCurrent w a = true))

lemma UsageCurrent.commit {id : Nat} {fault : Fault} {did key : String} {bytes : Slice}
    {read : Usage} (h : UsageCurrent w (.advance id fault))
    (hid : w.inFlight id = some (.put did key bytes (.commit (some read)))) :
    w.store.storeUsage = .ok read.storeUsed ∧ w.store.didStoredBytes did = read.didStored := by
  unfold UsageCurrent usageCurrent at h
  simpa [hid] using h

/-- The tables of a state within the limits. -/
structure QuotaInv (S : ObjectServer) (w : ObjectWorld) : Prop where
  within : WithinLimits S.limits w.store
  unique : w.store.UniqueRows
  flight : FlightOk S w

/-- Counting an admitted blob whose read is current stays within the limits. -/
lemma WithinLimits.addStoredBytes (h : WithinLimits limits s) (hunique : s.UniqueRows)
    {did : String} {read : Usage} (hstage : StageOk limits size (.commit (some read)))
    (hused : s.storeUsage = .ok read.storeUsed) (hdid : s.didStoredBytes did = read.didStored) :
    WithinLimits limits (s.addStoredBytes did size) := by
  refine ⟨?_, ?_⟩
  · rw [MeterStore.totalStored_addStoredBytes hunique, ← (MeterStore.storeUsage_ok hused).1]
    exact hstage.1
  · intro cap hcap did'
    rw [MeterStore.didStoredBytes_addStoredBytes]
    split_ifs with hsame
    · subst hsame
      rw [hdid]
      exact hstage.2 cap hcap
    · exact h.2 cap hcap did'

lemma WithinLimits.appendReceipt (h : WithinLimits limits s) (did : String) (r : Receipt) :
    WithinLimits limits (s.appendReceipt did r) := by
  refine ⟨?_, ?_⟩
  · rw [MeterStore.totalStored_appendReceipt]
    exact h.1
  · intro cap hcap did'
    rw [MeterStore.didStoredBytes_appendReceipt]
    exact h.2 cap hcap did'

lemma WithinLimits.dropTotalRow (h : WithinLimits limits s) (did : String) :
    WithinLimits limits (s.dropTotalRow did) := by
  refine ⟨?_, ?_⟩
  · refine le_trans ?_ h.1
    exact (List.filter_sublist.map DidTotal.storedBytes).sum_le_sum (by simp)
  · intro cap hcap did'
    by_cases hsame : did' = did
    · have hnone : (s.dropTotalRow did).totalRow did' = none := by
        refine List.find?_eq_none.mpr ?_
        intro row hrow
        have hne := (List.mem_filter.mp hrow).2
        simp only [decide_eq_true_eq] at hne ⊢
        rw [hsame]
        exact hne
      simp [MeterStore.didStoredBytes, hnone]
    · have hrow : (s.dropTotalRow did).totalRow did' = s.totalRow did' := by
        unfold MeterStore.totalRow MeterStore.dropTotalRow
        rw [List.find?_filter]
        congr 1
        funext row
        by_cases hrow : row.did = did'
        · simp [hrow, hsame]
        · simp [hrow]
      unfold MeterStore.didStoredBytes
      rw [hrow]
      exact h.2 cap hcap did'

/-- The section of a request keeps the tables within the limits. -/
lemma QuotaInv.runSection (h : QuotaInv S w) {id : Nat} {fault : Fault} {req : InFlight}
    (hreq : w.inFlight id = some req) (hcur : UsageCurrent w (.advance id fault)) :
    WithinLimits S.limits (S.runSection w.store w.blobs fault req).1 ∧
      (S.runSection w.store w.blobs fault req).1.UniqueRows := by
  have hadd : ∀ did key bytes read, req = .put did key bytes (.commit (some read)) →
      WithinLimits S.limits (w.store.addStoredBytes did bytes.bytes.length) ∧
        (w.store.addStoredBytes did bytes.bytes.length).UniqueRows := by
    rintro did key bytes read rfl
    obtain ⟨hused, hdid⟩ := hcur.commit hreq
    exact ⟨h.within.addStoredBytes h.unique (h.flight id did key bytes _ hreq) hused hdid,
      MeterStore.uniqueRows_addStoredBytes h.unique _⟩
  rcases runSection_store S w.store w.blobs fault req with
    heq | ⟨did, key, bytes, read, hput, heq⟩ | ⟨did, key, bytes, read, cid, hput, heq⟩ |
    ⟨did, cid, data, -, heq⟩ | ⟨did, contentHash, payload, sig, -, heq⟩
  · rw [heq]
    exact ⟨h.within, h.unique⟩
  · rw [heq]
    exact hadd did key bytes read hput
  · rw [heq]
    rcases read with _ | read
    · exact ⟨h.within.appendReceipt did _, MeterStore.uniqueRows_appendReceipt _ h.unique⟩
    · obtain ⟨hwithin, hunique⟩ := hadd did key bytes read hput
      exact ⟨hwithin.appendReceipt did _, MeterStore.uniqueRows_appendReceipt _ hunique⟩
  · rw [heq]
    exact ⟨h.within.appendReceipt did _, MeterStore.uniqueRows_appendReceipt _ h.unique⟩
  · rw [heq]
    have hrows : (w.store.countersignReceipt did contentHash did sig).1.didTotal =
        w.store.didTotal := MeterStore.didTotal_countersignReceipt contentHash did sig
    unfold WithinLimits MeterStore.totalStored MeterStore.didStoredBytes MeterStore.totalRow
      MeterStore.UniqueRows
    rw [hrows]
    exact ⟨h.within, h.unique⟩

lemma QuotaInv.step (h : QuotaInv S w) (a : ObjectAction) (hcur : UsageCurrent w a) :
    QuotaInv S (S.step w a) := by
  have hstore : WithinLimits S.limits (S.step w a).store ∧ (S.step w a).store.UniqueRows := by
    rcases a with ⟨id, request⟩ | ⟨id, fault⟩ | ⟨did, dials⟩ | did
    · rw [step_start_store]
      exact ⟨h.within, h.unique⟩
    · rcases step_advance_store S w id fault with heq | ⟨req, hreq, heq⟩
      · rw [heq]
        exact ⟨h.within, h.unique⟩
      · rw [heq]
        exact h.runSection hreq hcur
    · exact ⟨h.within, h.unique⟩
    · refine ⟨h.within.dropTotalRow did, ?_⟩
      exact List.Nodup.sublist (List.filter_sublist.map DidTotal.did) h.unique
  exact ⟨hstore.1, hstore.2, h.flight.step a⟩

end

/-- **Limits hold while reads stay current.**  Along every run in which each commit of a new blob
finds the usage its request read, every state reached is within the limits. -/
theorem within_limits_of_current_usage (S : ObjectServer) (acts : List ObjectAction)
    (hcur : Along S.step UsageCurrent ObjectWorld.init acts) :
    ∀ reached, reached <+: acts →
      WithinLimits S.limits (run S.step ObjectWorld.init reached).store := by
  rintro reached ⟨rest, rfl⟩
  have hinit : QuotaInv S ObjectWorld.init := by
    refine ⟨⟨Nat.zero_le _, fun cap _ did => Nat.zero_le _⟩, List.nodup_nil, ?_⟩
    intro id did key bytes stage hid
    cases hid
  have hinv : QuotaInv S (run S.step ObjectWorld.init reached) :=
    run_invariant (fun w a h hc => h.step a hc) hinit (along_append.mp hcur).1
  exact hinv.within

/-! ### Two racing uploads

A store with a ceiling of five bytes, and two uploads of three bytes each by one DID, with the real
digests and the provider's real signatures. -/

/-- The digests the server computes: the two contents, and the two receipts. -/
def raceDigests : List (Bytes × String) :=
  [(asBytes "abc", "ba7816bf8f01cfea414140de5dae2223b00361a396177a9cb410ff61f20015ad"),
    (asBytes "xyz", "3608bca1e44ea6c4d268eb6db02260269892c0b42b86bbf1e77a6fa16c3c9282"),
    ((ReceiptCore.new .upload "ba7816bf8f01cfea414140de5dae2223b00361a396177a9cb410ff61f20015ad"
        (0, 3) 3 0 .active "id:fe812c12f3ab4ce6ac5db69ac352f906cb1b11ef43fb33e252ef7ff552263889"
        "did:plc:ewvi7nxzyoun6zhxrhs64oiz").toCanonicalBytes,
      "859038722f94bce726d5ada92991be904ab1b58b03c3830249e173bf7ca4da88"),
    ((ReceiptCore.new .upload "3608bca1e44ea6c4d268eb6db02260269892c0b42b86bbf1e77a6fa16c3c9282"
        (0, 3) 6 0 .active "id:fe812c12f3ab4ce6ac5db69ac352f906cb1b11ef43fb33e252ef7ff552263889"
        "did:plc:ewvi7nxzyoun6zhxrhs64oiz").toCanonicalBytes,
      "8be791eff8bf3a4f1a42a20cbbb75f90ddfcf90cfa8de267ba6a943c0528b9df")]

/-- The provider's signatures over the two receipts' content hashes. -/
def raceSignatures : List (Bytes × Bytes) :=
  [(asBytes "859038722f94bce726d5ada92991be904ab1b58b03c3830249e173bf7ca4da88",
      (hexDecode
        "2ec1be51b44631221e12444253712520981a43d0192ca030637a16a52f31677b3cde290a0a5f18380883b81357c5410413a73120123707e16fcca503d7e1df0d").getD
        []),
    (asBytes "8be791eff8bf3a4f1a42a20cbbb75f90ddfcf90cfa8de267ba6a943c0528b9df",
      (hexDecode
        "f64f540ffdbad4dc0642acb7a8859cf493048b894e887680019fde65f6dfeaddaeed810a136d62d214d19f90858d005e360f60cfad44196e0521d74681cb6400").getD
        [])]

/-- The provider's key. -/
def raceKey : VerifyingKey :=
  ⟨(hexDecode "ea4a6c63e29c520abef5507b132ec5f9954776aebebe7b92421eea691446d22c").getD []⟩

/-- A server whose store and whose DIDs may hold five bytes. -/
def raceServer : ObjectServer where
  crypto :=
    { sha256Hex := tabulatedHash raceDigests
      isPublicKey := fun bytes => bytes = raceKey.toBytes
      verifyStrict := fun key message sig =>
        key = raceKey ∧ raceSignatures.lookup message = some sig }
  provider :=
    { id := "id:fe812c12f3ab4ce6ac5db69ac352f906cb1b11ef43fb33e252ef7ff552263889"
      keypair := ⟨raceKey, fun message => (raceSignatures.lookup message).getD []⟩ }
  limits := ⟨5, some 5⟩
  day := 0
  parseCountersign := fun _ => none

/-- An upload of three bytes. -/
def raceUpload (text : String) (h : (asBytes text).length ≤ i64Max) : ObjectRequest :=
  .put "did:plc:ewvi7nxzyoun6zhxrhs64oiz" "key" ⟨asBytes text, h⟩

lemma abc_fits : (asBytes "abc").length ≤ i64Max := by decide +kernel

lemma xyz_fits : (asBytes "xyz").length ≤ i64Max := by decide +kernel

/-- The next `n` sections of a request. -/
def sections (id n : Nat) : List ObjectAction := List.replicate n (.advance id .none)

/-- The two uploads one after the other: the second is refused at its usage read. -/
def soloUploads : List ObjectAction :=
  .start 1 (raceUpload "abc" abc_fits) :: sections 1 6 ++
    .start 2 (raceUpload "xyz" xyz_fits) :: sections 2 6

/-- Both uploads read the usage before either commits. -/
def racingUploads : List ObjectAction :=
  [.start 1 (raceUpload "abc" abc_fits),
    .start 2 (raceUpload "xyz" xyz_fits)] ++
    (sections 1 4 ++ sections 2 4 ++ sections 1 2 ++ sections 2 2)

theorem within_limits_of_current_usage_example :
    (run raceServer.step ObjectWorld.init soloUploads).store.totalStored = 3 ∧
      WithinLimits raceServer.limits
        (run raceServer.step ObjectWorld.init soloUploads).store := by
  refine ⟨by decide +kernel, ?_⟩
  exact within_limits_of_current_usage raceServer soloUploads (by decide +kernel) soloUploads
    (List.prefix_refl _)

/-- Two uploads of three bytes each, admitted against the same empty store, leave six bytes in a
store of five. -/
theorem racing_uploads_exceed_ceiling :
    ¬ WithinLimits raceServer.limits
      (run raceServer.step ObjectWorld.init racingUploads).store := by
  intro h
  have htotal : (run raceServer.step ObjectWorld.init racingUploads).store.totalStored = 6 := by
    decide +kernel
  have hle := h.1
  rw [htotal] at hle
  exact absurd hle (by decide)

end Ciss
