import Mathlib.Logic.Function.Basic
import Ciss.Framework.Machine
import Ciss.Server.Manifest

/-!
# The manifest slot over whole runs

The server keeps one manifest and one account mode per identifier.  A run is any sequence of
`op_put_manifest` calls and of account-mode dials, of any number of customers; a put may also fail
at the database.  `SlotDiscipline` collects what every state reached by a run satisfies: an
accepted put raises the sequence number, a refused one changes nothing, what is stored verifies
under a key of the slot's owner, and as long as the mode in force is drawdown the stored byte
total does not grow.
-/

namespace Ciss

/-- The manifest slots by identifier. -/
abbrev ManifestStore := String → ManifestSlot

/-- No manifest stored, every account active. -/
def ManifestStore.init : ManifestStore := fun _ => ⟨.active, none⟩

/-- One request: a put, with a possible failure of the database, or an accepted mode dial. -/
inductive ManifestAction where
  | put (did pubkeyHex : String) (body : Option Manifest) (fault : Option PersistError)
  | dial (did : String) (mode : AccountMode)

/-- One request handled under the store lock. -/
def manifestStep (C : Crypto) (w : ManifestStore) : ManifestAction → ManifestStore
  | .put did pubkeyHex body fault =>
      Function.update w did (opPutManifest C (w did) fault did pubkeyHex body).1
  | .dial did mode => Function.update w did { w did with accountMode := mode }

/-- The byte total of the stored manifest; nothing is stored at first. -/
def ManifestSlot.storedTotal (slot : ManifestSlot) : Nat :=
  slot.manifest.elim 0 Manifest.totalBytes

section

variable {C : Crypto} {w : ManifestStore} {slot slot' : ManifestSlot}
  {fault : Option PersistError} {did did' pubkeyHex : String} {body : Option Manifest}
  {r : Except ServerError ManifestSaved}

/-- A put that is accepted in drawdown lists no more bytes than the stored manifest. -/
lemma opPutManifest_drawdown (hmode : slot.accountMode = .drawdown)
    (h : opPutManifest C slot fault did pubkeyHex body = (slot', r)) :
    slot'.storedTotal ≤ slot.storedTotal := by
  rcases opPutManifest_cases h with ⟨rfl, -⟩ | ⟨m, key, rfl, hkey, hdid, hsigner, hverify, -, rfl, rfl⟩
  · exact le_rfl
  · unfold opPutManifest at h
    rw [hkey] at h
    dsimp only at h
    rw [if_neg (not_not.mpr hdid), if_neg (not_not.mpr hsigner), hverify] at h
    by_cases htotal : m.totalBytes > slot.manifest.elim 0 Manifest.totalBytes
    · -- the drawdown gate refuses this put
      rw [if_neg (by simp), if_pos ⟨hmode, htotal⟩] at h
      cases (Prod.mk.inj h).2
    · exact not_lt.mp htotal

/-- What one request does to a slot. -/
lemma manifestStep_cases (w : ManifestStore) (a : ManifestAction) (did : String) :
    manifestStep C w a did = w did ∨
      (∃ pubkeyHex body fault, a = .put did pubkeyHex body fault ∧
        manifestStep C w a did = (opPutManifest C (w did) fault did pubkeyHex body).1) ∨
      ∃ mode, a = .dial did mode ∧ manifestStep C w a did = { w did with accountMode := mode } := by
  rcases a with ⟨did', pubkeyHex, body, fault⟩ | ⟨did', mode⟩
  · by_cases hdid : did = did'
    · subst hdid
      exact Or.inr (Or.inl ⟨pubkeyHex, body, fault, rfl, Function.update_self ..⟩)
    · exact Or.inl (Function.update_of_ne hdid ..)
  · by_cases hdid : did = did'
    · subst hdid
      exact Or.inr (Or.inr ⟨mode, rfl, Function.update_self ..⟩)
    · exact Or.inl (Function.update_of_ne hdid ..)

/-- Every stored manifest verifies under a key of the slot's owner. -/
def OwnersVerify (C : Crypto) (w : ManifestStore) : Prop :=
  ∀ did m, (w did).manifest = some m → ∃ key, deriveId C key = did ∧ m.verify C key = true

lemma OwnersVerify.step (h : OwnersVerify C w) (a : ManifestAction) :
    OwnersVerify C (manifestStep C w a) := by
  intro did m hm
  rcases manifestStep_cases w a did with heq | ⟨pubkeyHex, body, fault, -, heq⟩ | ⟨mode, -, heq⟩
  · rw [heq] at hm
    exact h did m hm
  · rw [heq] at hm
    rcases hput : opPutManifest C (w did) fault did pubkeyHex body with ⟨slot, r⟩
    rw [hput] at hm
    rcases opPutManifest_cases hput with
      ⟨rfl, -⟩ | ⟨m', key, -, -, hdid, -, hverify, -, rfl, -⟩
    · exact h did m hm
    · obtain rfl : m' = m := Option.some.inj hm
      exact ⟨key, hdid, hverify⟩
  · rw [heq] at hm
    exact h did m hm

/-- One request in drawdown does not raise the stored total. -/
lemma storedTotal_manifestStep (hmode : (w did).accountMode = .drawdown) (a : ManifestAction) :
    (manifestStep C w a did).storedTotal ≤ (w did).storedTotal := by
  rcases manifestStep_cases w a did with heq | ⟨pubkeyHex, body, fault, -, heq⟩ | ⟨mode, -, heq⟩
  · rw [heq]
  · rw [heq]
    exact opPutManifest_drawdown hmode rfl
  · rw [heq]
    exact le_rfl

end

/-- What holds of the slots in a state `w`, for every identifier. -/
structure SlotDiscipline (C : Crypto) (w : ManifestStore) : Prop where
  /-- An accepted put stores its manifest, and the sequence number strictly increases. -/
  increases : ∀ did pubkeyHex body fault saved,
    (opPutManifest C (w did) fault did pubkeyHex body).2 = .ok saved →
      ∃ m, body = some m ∧
        (manifestStep C w (.put did pubkeyHex body fault) did).manifest = some m ∧
        ∀ old, (w did).manifest = some old → old.seq < m.seq
  /-- A refused put changes nothing. -/
  refused : ∀ did pubkeyHex body fault e,
    (opPutManifest C (w did) fault did pubkeyHex body).2 = .error e →
      manifestStep C w (.put did pubkeyHex body fault) = w
  /-- Every stored manifest verifies under a key that derives the identifier. -/
  verified : OwnersVerify C w
  /-- Over a stretch in which the mode in force is drawdown, the stored total never increases. -/
  drains : ∀ did stretch,
    Along (manifestStep C) (fun w' _ => (w' did).accountMode = .drawdown) w stretch →
      (run (manifestStep C) w stretch did).storedTotal ≤ (w did).storedTotal

/-- **The manifest slot over whole runs.** -/
theorem manifest_slot_over_runs (C : Crypto) (acts : List ManifestAction) :
    SlotDiscipline C (run (manifestStep C) ManifestStore.init acts) := by
  refine ⟨?_, ?_, ?_, ?_⟩
  · intro did pubkeyHex body fault saved hok
    generalize run (manifestStep C) ManifestStore.init acts = w at hok ⊢
    rcases hput : opPutManifest C (w did) fault did pubkeyHex body with ⟨slot, r⟩
    rw [hput] at hok
    rcases opPutManifest_cases hput with ⟨-, e, rfl⟩ | ⟨m, key, hbody, -, -, -, -, hnewer, rfl, -⟩
    · cases hok
    · refine ⟨m, hbody, ?_, hnewer⟩
      show (Function.update w did _ did).manifest = some m
      rw [Function.update_self, hput]
  · intro did pubkeyHex body fault e herr
    generalize run (manifestStep C) ManifestStore.init acts = w at herr ⊢
    rcases hput : opPutManifest C (w did) fault did pubkeyHex body with ⟨slot, r⟩
    rw [hput] at herr
    rcases opPutManifest_cases hput with ⟨rfl, -⟩ | ⟨m, key, -, -, -, -, -, -, -, rfl⟩
    · show Function.update w did _ = w
      rw [hput, Function.update_eq_self]
    · cases herr
  · have hinit : OwnersVerify C ManifestStore.init := by
      intro did m hm
      cases hm
    exact run_invariant' (fun w a h => h.step a) hinit
  · intro did stretch hstretch
    generalize run (manifestStep C) ManifestStore.init acts = w at hstretch ⊢
    -- the invariant along the stretch: at most the total it started with
    refine run_invariant (I := fun w' => (w' did).storedTotal ≤ (w did).storedTotal) ?_ le_rfl
      hstretch
    intro w' a hle hmode
    exact (storedTotal_manifestStep hmode a).trans hle

end Ciss
