import Ciss.Chain.Soundness

/-!
# Compaction preserves meaning

The same writes are sent to two stores: one compacts, on acknowledgment or at explicit requests
placed anywhere between the writes, the other never does (`ChainServer.plain`).  Both track the
same history (`SameHistory`), and what a tracking store answers is read off the history, so the
two cannot be told apart: every write gets the same answer, and every chain has the same head and
recomputes to the same total (`compaction_preserves_meaning`).

The only premise is that no accepted total leaves the `i64` column.
-/

namespace Ciss

/-- The server with the same keys that never compacts on a write. -/
def ChainServer.plain (S : ChainServer) : ChainServer := { S with compaction := .deferred }

/-- The writes of a request list; a compaction is dropped. -/
def ChainAction.writes : ChainAction → List ChainAction
  | .put did subkey body authed => [.put did subkey body authed]
  | .compact _ _ => []

section

variable {S : ChainServer} {r c f : ChainRun} {did : String} {subkey : Option String}
  {body : Bytes} {authed : Option AuthedWrite}

lemma ChainServer.TracksAll.accepted_put (h : S.TracksAll r) :
    (S.step r (.put did subkey body authed)).accepted =
      r.accepted ++ History.accepts S (r.acceptedFor did subkey) did subkey body authed := by
  rcases step_put_cases h did subkey body authed with
    ⟨hnone, heq⟩ | ⟨record, step, out, -, -, -, -, haccepts, heq⟩
  · rw [hnone, heq, List.append_nil]
  · rw [haccepts, heq]

/-- The accepted writes only ever grow. -/
lemma accepted_prefix_step (a : ChainAction) : r.accepted <+: (S.step r a).accepted := by
  unfold ChainServer.step
  cases a with
  | put did subkey body authed =>
      dsimp only
      split
      · exact List.prefix_append _ _
      · exact List.prefix_refl _
  | compact did subkey =>
      dsimp only
      split <;> exact List.prefix_refl _

lemma accepted_prefix_run (acts : List ChainAction) :
    r.accepted <+: (run S.step r acts).accepted := by
  induction acts generalizing r with
  | nil => exact List.prefix_refl _
  | cons a acts ih => exact (accepted_prefix_step a).trans ih

/-- What holds of every write accepted by the end of a run holds at each of its steps. -/
lemma along_of_accepted {Q : AcceptedWrite → Prop} {acts : List ChainAction}
    (h : ∀ w ∈ (run S.step r acts).accepted, Q w) :
    Along S.step (fun r a => ∀ w ∈ (S.step r a).accepted, Q w) r acts := by
  induction acts generalizing r with
  | nil => trivial
  | cons a acts ih =>
      exact ⟨fun w hw => h w ((accepted_prefix_run acts).subset hw), ih h⟩

lemma map_snd_bind_map {ε α β γ : Type} (x : Except ε α) (g : α → Except ε β)
    (k : α → β → γ) :
    (x.bind fun a => (g a).map fun b => (k a b, b)).map Prod.snd = x.bind g := by
  cases x with
  | error e => rfl
  | ok a =>
      change ((g a).map fun b => (k a b, b)).map Prod.snd = g a
      cases g a <;> rfl

/-- The compacting and the plain store track the same accepted writes. -/
structure SameHistory (S : ChainServer) (c f : ChainRun) : Prop where
  compacted : S.TracksAll c
  full : S.plain.TracksAll f
  accepted : c.accepted = f.accepted

lemma SameHistory.acceptedFor_eq (h : SameHistory S c f) (did : String)
    (subkey : Option String) : c.acceptedFor did subkey = f.acceptedFor did subkey := by
  simp [ChainRun.acceptedFor, h.accepted]

/-- One request to the compacting store, answered by its write, if it is one, to the plain
store. -/
lemma SameHistory.step (h : SameHistory S c f) (a : ChainAction)
    (hbound : Along S.plain.step
      (fun r a => ∀ w ∈ (S.plain.step r a).accepted, w.step.total ≤ i64Max) f a.writes) :
    SameHistory S (S.step c a) (run S.plain.step f a.writes) := by
  cases a with
  | compact did subkey =>
      refine ⟨h.compacted.compact, h.full, ?_⟩
      have hsame : (S.step c (.compact did subkey)).accepted = c.accepted := by
        unfold ChainServer.step
        dsimp only
        split <;> rfl
      exact hsame.trans h.accepted
  | put did subkey body authed =>
      have haccepts : History.accepts S (c.acceptedFor did subkey) did subkey body authed =
          History.accepts S.plain (f.acceptedFor did subkey) did subkey body authed := by
        rw [h.acceptedFor_eq]
        rfl
      have hfit : ∀ w ∈ History.accepts S.plain (f.acceptedFor did subkey) did subkey body authed,
          w.step.total ≤ i64Max := by
        intro w hw
        refine hbound.1 w ?_
        rw [h.full.accepted_put]
        exact List.mem_append_right _ hw
      refine ⟨h.compacted.put (haccepts ▸ hfit), h.full.put hfit, ?_⟩
      change (S.step c (.put did subkey body authed)).accepted =
        (S.plain.step f (.put did subkey body authed)).accepted
      rw [h.compacted.accepted_put, h.full.accepted_put, haccepts, h.accepted]

/-- Two stores with the same history answer every write alike. -/
lemma SameHistory.verdict_eq (h : SameHistory S c f) (did : String) (subkey : Option String)
    (body : Bytes) (authed : Option AuthedWrite) :
    (S.opPutAssertion c.store did subkey body authed).map Prod.snd =
      (S.plain.opPutAssertion f.store did subkey body authed).map Prod.snd := by
  have hc : (S.opPutAssertion c.store did subkey body authed).map Prod.snd =
      (S.submittedRecord did subkey body authed).bind fun record =>
        History.put S (c.acceptedFor did subkey) subkey record := by
    rw [h.compacted.opPutAssertion_eq]
    exact map_snd_bind_map _ _ _
  have hf : (S.plain.opPutAssertion f.store did subkey body authed).map Prod.snd =
      (S.submittedRecord did subkey body authed).bind fun record =>
        History.put S (f.acceptedFor did subkey) subkey record := by
    rw [h.full.opPutAssertion_eq]
    exact map_snd_bind_map _ _ _
  rw [hc, hf, h.acceptedFor_eq]

end

/-- **Compaction preserves meaning.**  After every prefix of a request list, the compacting store
and the store that got its writes only answer the next write alike, and agree on every chain's
head and recomputed total. -/
theorem compaction_preserves_meaning (S : ChainServer) (acts : List ChainAction)
    (hbound : ∀ w ∈ (run S.plain.step ChainRun.init (acts.flatMap ChainAction.writes)).accepted,
      w.step.total ≤ i64Max) :
    ∀ reached, reached <+: acts →
      (∀ did subkey body authed,
        (S.opPutAssertion (run S.step ChainRun.init reached).store did subkey body authed).map
            Prod.snd =
          (S.plain.opPutAssertion
            (run S.plain.step ChainRun.init (reached.flatMap ChainAction.writes)).store
            did subkey body authed).map Prod.snd) ∧
      ∀ did subkey,
        (run S.step ChainRun.init reached).store.latestChainEntry did chainCounterKind subkey =
          (run S.plain.step ChainRun.init
            (reached.flatMap ChainAction.writes)).store.latestChainEntry did chainCounterKind
            subkey ∧
        recomputeTotal S.crypto.sha256Hex
            (((run S.step ChainRun.init reached).store.chainEntries did chainCounterKind
              subkey).map Prod.fst) =
          recomputeTotal S.crypto.sha256Hex
            (((run S.plain.step ChainRun.init
              (reached.flatMap ChainAction.writes)).store.chainEntries did chainCounterKind
              subkey).map Prod.fst) := by
  rintro reached ⟨rest, rfl⟩
  have hsame : SameHistory S (run S.step ChainRun.init reached)
      (run S.plain.step ChainRun.init (reached.flatMap ChainAction.writes)) := by
    refine run_relation (fun c f a h => h.step a) ⟨tracksAll_init, tracksAll_init, rfl⟩ ?_
    rw [List.flatMap_append] at hbound
    exact (along_append.mp (along_of_accepted hbound)).1
  refine ⟨hsame.verdict_eq, fun did subkey => ⟨?_, ?_⟩⟩
  · rw [(hsame.compacted did subkey).latestChainEntry_eq, (hsame.full did subkey).latestChainEntry_eq,
      hsame.acceptedFor_eq]
    rfl
  · have hf := (hsame.full did subkey).recomputeTotal_eq
    rw [(hsame.compacted did subkey).recomputeTotal_eq, hsame.acceptedFor_eq]
    exact hf.symm

/-- The compacted chain holds the checkpoint alone, the plain one both entries; they recompute
alike. -/
theorem compaction_preserves_meaning_example :
    ((run (sampleServer .onAck).step ChainRun.init soundActs).store.chainEntries sampleDid
        chainCounterKind sampleSubkey).length = 1 ∧
      ((run (sampleServer .onAck).plain.step ChainRun.init
        (soundActs.flatMap ChainAction.writes)).store.chainEntries sampleDid chainCounterKind
          sampleSubkey).length = 2 ∧
      recomputeTotal (sampleServer .onAck).crypto.sha256Hex
          (((run (sampleServer .onAck).step ChainRun.init soundActs).store.chainEntries sampleDid
            chainCounterKind sampleSubkey).map Prod.fst) =
        recomputeTotal (sampleServer .onAck).crypto.sha256Hex
          (((run (sampleServer .onAck).plain.step ChainRun.init
            (soundActs.flatMap ChainAction.writes)).store.chainEntries sampleDid chainCounterKind
              sampleSubkey).map Prod.fst) := by
  have hbound : ∀ w ∈ (run (sampleServer .onAck).plain.step ChainRun.init
      (soundActs.flatMap ChainAction.writes)).accepted, w.step.total ≤ i64Max := by
    decide +kernel
  have hsame := compaction_preserves_meaning (sampleServer .onAck) soundActs hbound soundActs
    (List.prefix_refl _)
  exact ⟨by decide +kernel, by decide +kernel, (hsame.2 sampleDid sampleSubkey).2⟩

end Ciss
