import Ciss.Framework.Machine
import Ciss.Sync.Closure
import Ciss.Sync.Converge
import Mathlib.Logic.Function.Basic

/-!
# Devices of one account

Any number of devices work against one namespace: their users write and remove files, and they
run backups and converges.  A converge is three steps, publish, fold and adopt, and between
them other devices, and the user, may do anything; a step that fails ends it.  One after the
other the three steps are `converge` (`run_converge`).

`step_cases` says what a step can do, in terms of the three functions that do the work.
-/

namespace Ciss

/-- Where a device's converge stands. -/
inductive Phase where
  | idle
  | published
  | materialized
  deriving DecidableEq, Repr

/-- The account's namespace and its devices. -/
structure SyncWorld where
  server : SyncServer
  devices : String → Device
  phase : String → Phase

/-- One step of the account. -/
inductive SyncAction where
  /-- A user writes a file. -/
  | write (device path : String) (file : LocalFile)
  /-- A user removes a file. -/
  | remove (device path : String)
  /-- The cache policy and the spend periods take their course. -/
  | housekeep (device : String) (cache : ByCid Bytes)
      (ledgers : List SpendLedger)
  /-- The owner dials the account mode. -/
  | dial (mode : AccountMode)
  /-- `backup_frontier`. -/
  | backup (device : String) (env : SyncEnv)
  /-- The first backup of a converge. -/
  | publish (device : String) (env : SyncEnv)
  /-- The fold of a converge, with what it writes to disk. -/
  | fold (device : String) (env : SyncEnv)
  /-- The second backup of a converge, and the new base. -/
  | adopt (device : String) (env : SyncEnv)

namespace SyncWorld

/-- One device, its converge and the server after a step of that device. -/
def after (w : SyncWorld) (device : String) (d : Device) (s : SyncServer) (phase : Phase) :
    SyncWorld where
  server := s
  devices := Function.update w.devices device d
  phase := Function.update w.phase device phase

/-- A device runs one command at a time; a step that is not enabled changes nothing. -/
def step (P : Platform) (key : Keypair) (w : SyncWorld) : SyncAction → SyncWorld
  | .write device path file =>
      let d := w.devices device
      w.after device { d with files := d.files.insert path file } w.server (w.phase device)
  | .remove device path =>
      let d := w.devices device
      w.after device { d with files := d.files.erase path } w.server (w.phase device)
  | .housekeep device cache ledgers =>
      let d := w.devices device
      w.after device { d with cache := cache, ledgers := ledgers } w.server (w.phase device)
  | .dial mode =>
      { w with server := { w.server with slot := { w.server.slot with accountMode := mode } } }
  | .backup device env =>
      if w.phase device = .idle then
        match backupFrontier P key env.refuse env.fault device (w.devices device) w.server with
        | (d, s, _) => w.after device d s .idle
      else w
  | .publish device env =>
      if w.phase device = .idle then
        match backupFrontier P key env.refuse env.fault device (w.devices device) w.server with
        | (d, s, .ok _) => w.after device d s .published
        | (d, s, .error _) => w.after device d s .idle
      else w
  | .fold device env =>
      if w.phase device = .published then
        match convergeFold P key env device (w.devices device) w.server with
        | (d, .ok _) => w.after device d w.server .materialized
        | (d, .error _) => w.after device d w.server .idle
      else w
  | .adopt device env =>
      if w.phase device = .materialized then
        match convergeAdopt P key env device (w.devices device) w.server with
        | (d, s, _) => w.after device d s .idle
      else w

/-- No frontier yet, nothing under way; the directories and the store may hold anything. -/
def init (blobs : ByCid Bytes) (mode : AccountMode)
    (devices : String → Device) : SyncWorld where
  server := ⟨blobs, ⟨mode, none⟩⟩
  devices := devices
  phase _ := .idle

end SyncWorld

/-- The three steps of a converge. -/
def convergeSteps (device : String) (env : SyncEnv) : List SyncAction :=
  [.publish device env, .fold device env, .adopt device env]

/-- The device on whose behalf a step commits, if it does. -/
def SyncAction.commits : SyncAction → Option String
  | .backup device _ => some device
  | .publish device _ => some device
  | .adopt device _ => some device
  | _ => none

section

variable {P : Platform} {key : Keypair} {w : SyncWorld} {a : SyncAction} {device : String}

namespace SyncWorld

@[simp] lemma after_server {d : Device} {s : SyncServer} {phase : Phase} :
    (w.after device d s phase).server = s := rfl

@[simp] lemma after_devices {d : Device} {s : SyncServer} {phase : Phase} :
    (w.after device d s phase).devices = Function.update w.devices device d := rfl

@[simp] lemma after_phase {d : Device} {s : SyncServer} {phase : Phase} :
    (w.after device d s phase).phase = Function.update w.phase device phase := rfl

end SyncWorld

/-- The three steps in a row are `converge`. -/
theorem run_converge (env : SyncEnv) (hidle : w.phase device = .idle) :
    let w' := run (SyncWorld.step P key) w (convergeSteps device env)
    (w'.devices device, w'.server) =
      ((converge P key env device (w.devices device) w.server).1,
        (converge P key env device (w.devices device) w.server).2.1) := by
  simp only [convergeSteps, run_cons, run_nil, converge]
  rcases hb : backupFrontier P key env.refuse env.fault device (w.devices device) w.server with
    ⟨d, s, e | report⟩
  · simp [SyncWorld.step, hidle, hb]
  · rcases hf : convergeFold P key env device d s with ⟨d', e | m⟩
    · simp [SyncWorld.step, hidle, hb, hf]
    · rcases ha : convergeAdopt P key env device d' s with ⟨d'', s'', e | report'⟩
      · simp [SyncWorld.step, hidle, hb, hf, ha]
      · simp [SyncWorld.step, hidle, hb, hf, ha]

/-! ## What a step can do -/

/-- **The slot after a step.**  It is as it was, or it holds a commit that was accepted for the
device the step is for. -/
lemma step_slot (hP : P.Lawful) (key : Keypair) (w : SyncWorld) (a : SyncAction) :
    (SyncWorld.step P key w a).server.slot.manifest = w.server.slot.manifest ∨
      ∃ device report m, a.commits = some device ∧
        (SyncWorld.step P key w a).server.slot.manifest = some m ∧
        AcceptedBackup P device (w.devices device) w.server report m := by
  have hbackup : ∀ (device : String) (env : SyncEnv) (d : Device) (s : SyncServer)
      (r : Except SyncError FrontierReport), a.commits = some device →
      backupFrontier P key env.refuse env.fault device (w.devices device) w.server = (d, s, r) →
      s.slot.manifest = w.server.slot.manifest ∨ ∃ device report m, a.commits = some device ∧
        s.slot.manifest = some m ∧ AcceptedBackup P device (w.devices device) w.server report m := by
    intro device env d s r hcom hb
    obtain ⟨-, ⟨hslot, -⟩ | ⟨report, m, -, hm, hacc⟩⟩ := backupFrontier_spec hP hb
    · exact Or.inl hslot
    · exact Or.inr ⟨device, report, m, hcom, hm, hacc⟩
  cases a with
  | write device path file => exact Or.inl rfl
  | remove device path => exact Or.inl rfl
  | housekeep device cache ledgers => exact Or.inl rfl
  | dial mode => exact Or.inl rfl
  | backup device env =>
      unfold SyncWorld.step
      dsimp only
      split
      · rcases hb : backupFrontier P key env.refuse env.fault device (w.devices device) w.server
          with ⟨d, s, r⟩
        exact hbackup device env d s r rfl hb
      · exact Or.inl rfl
  | publish device env =>
      unfold SyncWorld.step
      dsimp only
      split
      · rcases hb : backupFrontier P key env.refuse env.fault device (w.devices device) w.server
          with ⟨d, s, e | report⟩
        · exact hbackup device env d s _ rfl hb
        · exact hbackup device env d s _ rfl hb
      · exact Or.inl rfl
  | fold device env =>
      unfold SyncWorld.step
      dsimp only
      split
      · rcases convergeFold P key env device (w.devices device) w.server with ⟨d, e | m⟩
        · exact Or.inl rfl
        · exact Or.inl rfl
      · exact Or.inl rfl
  | adopt device env =>
      unfold SyncWorld.step convergeAdopt
      dsimp only
      split
      · rcases hb : backupFrontier P key env.refuse env.fault device (w.devices device) w.server
          with ⟨d, s, e | report⟩
        · exact hbackup device env d s _ rfl hb
        · exact hbackup device env d s _ rfl hb
      · exact Or.inl rfl

lemma Device.SameTree.refl (d : Device) : d.SameTree P d := ⟨rfl, fun _ => rfl, rfl⟩

/-- **A device after a step.**  Its tree and base are as they were; or its user wrote or removed a
file; or it folded; or it adopted its tree as the new base. -/
lemma step_device (hP : P.Lawful) (key : Keypair) (w : SyncWorld) (a : SyncAction)
    (device : String) :
    (w.devices device).SameTree P ((SyncWorld.step P key w a).devices device) ∨
      (∃ path file, a = .write device path file ∧ (SyncWorld.step P key w a).devices device =
        { w.devices device with files := (w.devices device).files.insert path file }) ∨
      (∃ path, a = .remove device path ∧ (SyncWorld.step P key w a).devices device =
        { w.devices device with files := (w.devices device).files.erase path }) ∨
      (∃ env, a = .fold device env ∧ (SyncWorld.step P key w a).devices device =
        (convergeFold P key env device (w.devices device) w.server).1) ∨
      ∃ d cid, (w.devices device).SameTree P d ∧
        (SyncWorld.step P key w a).devices device = { d with base := some cid } ∧
        TreeNamed P cid (logicalTree P (w.devices device)).1 := by
  -- a step of another device
  have hother : ∀ (other : String) (d : Device) (s : SyncServer) (phase : Phase), device ≠ other →
      (w.devices device).SameTree P ((w.after other d s phase).devices device) := by
    intro other d s phase hne
    rw [SyncWorld.after_devices, Function.update_of_ne hne]
    exact .refl _
  -- a step of this one
  have hself : ∀ (d : Device) (s : SyncServer) (phase : Phase),
      (w.after device d s phase).devices device = d := fun d s phase => by simp
  cases a with
  | write other path file =>
      by_cases hne : device = other
      · subst hne
        exact Or.inr (Or.inl ⟨path, file, rfl, hself _ _ _⟩)
      · exact Or.inl (hother _ _ _ _ hne)
  | remove other path =>
      by_cases hne : device = other
      · subst hne
        exact Or.inr (Or.inr (Or.inl ⟨path, rfl, hself _ _ _⟩))
      · exact Or.inl (hother _ _ _ _ hne)
  | housekeep other cache ledgers =>
      by_cases hne : device = other
      · subst hne
        refine Or.inl ?_
        rw [SyncWorld.step, hself]
        exact ⟨rfl, fun _ => rfl, rfl⟩
      · exact Or.inl (hother _ _ _ _ hne)
  | dial mode => exact Or.inl (.refl _)
  | backup other env =>
      refine Or.inl ?_
      unfold SyncWorld.step
      dsimp only
      split
      · rcases hb : backupFrontier P key env.refuse env.fault other (w.devices other) w.server
          with ⟨d, s, r⟩
        by_cases hne : device = other
        · subst hne
          rw [hself]
          exact (backupFrontier_spec hP hb).1
        · exact hother _ _ _ _ hne
      · exact .refl _
  | publish other env =>
      refine Or.inl ?_
      unfold SyncWorld.step
      dsimp only
      split
      · rcases hb : backupFrontier P key env.refuse env.fault other (w.devices other) w.server
          with ⟨d, s, e | report⟩
        all_goals
          by_cases hne : device = other
          · subst hne
            dsimp only
            rw [hself]
            exact (backupFrontier_spec hP hb).1
          · exact hother _ _ _ _ hne
      · exact .refl _
  | fold other env =>
      by_cases hne : device = other
      · subst hne
        unfold SyncWorld.step
        dsimp only
        split
        · refine Or.inr (Or.inr (Or.inr (Or.inl ⟨env, rfl, ?_⟩)))
          rcases convergeFold P key env device (w.devices device) w.server with ⟨d, e | m⟩
          · exact hself _ _ _
          · exact hself _ _ _
        · exact Or.inl (.refl _)
      · refine Or.inl ?_
        unfold SyncWorld.step
        dsimp only
        split
        · rcases convergeFold P key env other (w.devices other) w.server with ⟨d, e | m⟩
          · exact hother _ _ _ _ hne
          · exact hother _ _ _ _ hne
        · exact .refl _
  | adopt other env =>
      unfold SyncWorld.step convergeAdopt
      dsimp only
      split
      · rcases hb : backupFrontier P key env.refuse env.fault other (w.devices other) w.server
          with ⟨d, s, e | report⟩
        · refine Or.inl ?_
          by_cases hne : device = other
          · subst hne
            dsimp only
            rw [hself]
            exact (backupFrontier_spec hP hb).1
          · exact hother _ _ _ _ hne
        · by_cases hne : device = other
          · subst hne
            obtain ⟨hsame, ⟨-, e, he⟩ | ⟨report', m, hr, -, hacc⟩⟩ := backupFrontier_spec hP hb
            · simp at he
            · obtain rfl := Except.ok.inj hr
              exact Or.inr (Or.inr (Or.inr (Or.inr ⟨d, _, hsame, hself _ _ _, hacc.tree⟩)))
          · exact Or.inl (hother _ _ _ _ hne)
      · exact Or.inl (.refl _)

end

end Ciss
