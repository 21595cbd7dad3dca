import Ciss.Server.Objects

/-!
# The filesystem blob store under interleaving

`FsBlobStore` keeps a blob in `{root}/blocks/{did}/{cid}` and stages it in `{root}/tmp/{did}/{cid}`.
A put checks whether the blob is there, writes the staging file and renames it into place; a get
asks for the file's length and then reads it.  Each of these is one atomic step, and between two
steps of a thread any step of any other thread may run.  The identifiers are validated before the
store is asked, so different blobs have different files.

The staging file has one name for all writers of a blob.  Two puts that are both between their
writes and their renames share it: the first rename takes it away and the second finds nothing to
rename (`second_rename_finds_nothing`).  `concurrent_puts_safe` says that this is all that is wrong:
a run in which no put writes while another put of the blob is staged (`Exclusive`) answers every put
with its length, a run that ends with no put staged does so only then, and in every run a get that
finds the blob is served exactly its bytes.
-/

namespace Ciss

/-! ## Calls and their steps -/

/-- What the filesystem reports. -/
inductive ErrorKind where
  | notFound
  deriving DecidableEq, Repr

/-- Why a blob-backend operation failed. -/
inductive BlobError where
  | missing (did cid : String)
  | tooLarge (did cid : String) (size max : Nat)
  | io (did cid : String) (source : ErrorKind)
  deriving DecidableEq, Repr

/-- A call of the store. -/
inductive BlobCall where
  | put (did cid : String) (bytes : Bytes)
  | get (did cid : String)
  | has (did cid : String)
  deriving DecidableEq, Repr

/-- What a call returns. -/
inductive BlobAnswer where
  | put (result : Except BlobError Nat)
  | get (result : Except BlobError Bytes)
  | has (found : Bool)

/-- The next step of a call. -/
inductive BlobStep where
  | check (did cid : String) (bytes : Bytes)
  | write (did cid : String) (bytes : Bytes)
  | rename (did cid : String) (bytes : Bytes)
  | stat (did cid : String)
  | read (did cid : String)
  | exists (did cid : String)
  deriving DecidableEq, Repr

/-- The first step of a call. -/
def BlobCall.start : BlobCall → BlobStep
  | .put did cid bytes => .check did cid bytes
  | .get did cid => .stat did cid
  | .has did cid => .exists did cid

/-- The call a step belongs to. -/
def BlobStep.call : BlobStep → BlobCall
  | .check did cid bytes | .write did cid bytes | .rename did cid bytes => .put did cid bytes
  | .stat did cid | .read did cid => .get did cid
  | .exists did cid => .has did cid

/-- What a step leaves to do. -/
inductive BlobNext where
  | continue (step : BlobStep)
  | answer (result : BlobAnswer)

/-- The regular files below the root. -/
structure FsBlobStore where
  /-- The permanent paths. -/
  blocks : Blobs
  /-- The staging paths. -/
  tmp : Blobs

/-- One step of a call. -/
def FsBlobStore.runStep (fs : FsBlobStore) : BlobStep → FsBlobStore × BlobNext
  | .check did cid bytes =>
      -- the same blob is byte-identical, so a second write is a no-op
      if (fs.blocks (did, cid)).isSome then (fs, .answer (.put (.ok bytes.length)))
      else (fs, .continue (.write did cid bytes))
  | .write did cid bytes =>
      ({ fs with tmp := Function.update fs.tmp (did, cid) (some bytes) },
        .continue (.rename did cid bytes))
  | .rename did cid bytes =>
      match fs.tmp (did, cid) with
      | none => (fs, .answer (.put (.error (.io did cid .notFound))))
      | some staged =>
          ({ blocks := Function.update fs.blocks (did, cid) (some staged)
             tmp := Function.update fs.tmp (did, cid) none },
            .answer (.put (.ok bytes.length)))
  | .stat did cid =>
      match fs.blocks (did, cid) with
      | none => (fs, .answer (.get (.error (.missing did cid))))
      | some stored =>
          if stored.length > maxObjectBytes then
            (fs, .answer (.get (.error (.tooLarge did cid stored.length maxObjectBytes))))
          else (fs, .continue (.read did cid))
  | .read did cid =>
      match fs.blocks (did, cid) with
      | none => (fs, .answer (.get (.error (.missing did cid))))
      | some stored => (fs, .answer (.get (.ok stored)))
  | .exists did cid => (fs, .answer (.has (fs.blocks (did, cid)).isSome))

/-! ## The machine -/

/-- The files, the calls in flight by their threads, and the answers given. -/
structure BlobWorld where
  fs : FsBlobStore
  inFlight : Nat → Option BlobStep
  answers : List (BlobCall × BlobAnswer)

/-- An empty store without calls. -/
def BlobWorld.init : BlobWorld := ⟨⟨fun _ => none, fun _ => none⟩, fun _ => none, []⟩

/-- A thread calls the store, or takes its next step. -/
inductive BlobAction where
  | start (thread : Nat) (call : BlobCall)
  | advance (thread : Nat)

/-- One atomic step. -/
def BlobWorld.step (w : BlobWorld) : BlobAction → BlobWorld
  | .start thread call =>
      match w.inFlight thread with
      | some _ => w
      | none => { w with inFlight := Function.update w.inFlight thread (some call.start) }
  | .advance thread =>
      match w.inFlight thread with
      | none => w
      | some step =>
          match w.fs.runStep step with
          | (fs, .continue step') =>
              { w with fs := fs, inFlight := Function.update w.inFlight thread (some step') }
          | (fs, .answer answer) =>
              { fs := fs
                inFlight := Function.update w.inFlight thread none
                answers := w.answers ++ [(step.call, answer)] }

/-- The thread's put is between its write and its rename. -/
def Staged (did cid : String) (w : BlobWorld) (thread : Nat) : Prop :=
  ∃ bytes, w.inFlight thread = some (.rename did cid bytes)

/-- No put writes the staging file while another put of the blob is staged. -/
def Exclusive (did cid : String) (w : BlobWorld) (a : BlobAction) : Prop :=
  ∀ thread bytes, a = .advance thread → w.inFlight thread = some (.write did cid bytes) →
    ∀ other, ¬ Staged did cid w other

/-- Every put of the blob that has returned has returned its length. -/
def PutsOk (did cid : String) (w : BlobWorld) : Prop :=
  ∀ bytes answer, (BlobCall.put did cid bytes, answer) ∈ w.answers →
    answer = .put (.ok bytes.length)

/-- What a read of the stored bytes returns: all of them, up to the read limit. -/
def served (did cid : String) (bytes : Bytes) : BlobAnswer :=
  if bytes.length > maxObjectBytes then
    .get (.error (.tooLarge did cid bytes.length maxObjectBytes))
  else .get (.ok bytes)

/-- Every get of the blob that has returned has found nothing, or was served `bytes`. -/
def GetsExact (did cid : String) (bytes : Bytes) (w : BlobWorld) : Prop :=
  ∀ answer, (BlobCall.get did cid, answer) ∈ w.answers →
    answer = .get (.error (.missing did cid)) ∨ answer = served did cid bytes

/-! ## What a step does -/

/-- A step that its call goes on from. -/
inductive Proceeds (fs : FsBlobStore) : BlobStep → FsBlobStore → BlobStep → Prop where
  | check {did cid : String} {bytes : Bytes} :
      Proceeds fs (.check did cid bytes) fs (.write did cid bytes)
  | write {did cid : String} {bytes : Bytes} :
      Proceeds fs (.write did cid bytes)
        { fs with tmp := Function.update fs.tmp (did, cid) (some bytes) } (.rename did cid bytes)
  | stat {did cid : String} {stored : Bytes} (hstored : fs.blocks (did, cid) = some stored)
      (hlen : stored.length ≤ maxObjectBytes) : Proceeds fs (.stat did cid) fs (.read did cid)

/-- A step that answers its call. -/
inductive Answers (fs : FsBlobStore) : BlobStep → FsBlobStore → BlobAnswer → Prop where
  | dedup {did cid : String} {bytes : Bytes} :
      Answers fs (.check did cid bytes) fs (.put (.ok bytes.length))
  | renamed {did cid : String} {bytes staged : Bytes} (hstaged : fs.tmp (did, cid) = some staged) :
      Answers fs (.rename did cid bytes)
        { blocks := Function.update fs.blocks (did, cid) (some staged)
          tmp := Function.update fs.tmp (did, cid) none } (.put (.ok bytes.length))
  | lost {did cid : String} {bytes : Bytes} (hstaged : fs.tmp (did, cid) = none) :
      Answers fs (.rename did cid bytes) fs (.put (.error (.io did cid .notFound)))
  | missing {did cid : String} {step : BlobStep}
      (hstep : step = .stat did cid ∨ step = .read did cid) :
      Answers fs step fs (.get (.error (.missing did cid)))
  | tooLarge {did cid : String} {stored : Bytes} (hstored : fs.blocks (did, cid) = some stored)
      (hlen : stored.length > maxObjectBytes) :
      Answers fs (.stat did cid) fs
        (.get (.error (.tooLarge did cid stored.length maxObjectBytes)))
  | read {did cid : String} {stored : Bytes} (hstored : fs.blocks (did, cid) = some stored) :
      Answers fs (.read did cid) fs (.get (.ok stored))
  | exists {did cid : String} :
      Answers fs (.exists did cid) fs (.has (fs.blocks (did, cid)).isSome)

/-- The two ways a step ends. -/
lemma runStep_cases (fs : FsBlobStore) (step : BlobStep) :
    (∃ fs' step', fs.runStep step = (fs', .continue step') ∧ Proceeds fs step fs' step') ∨
      ∃ fs' answer, fs.runStep step = (fs', .answer answer) ∧ Answers fs step fs' answer := by
  cases step with
  | check did cid bytes =>
      rw [FsBlobStore.runStep]
      split_ifs
      · exact Or.inr ⟨_, _, rfl, .dedup⟩
      · exact Or.inl ⟨_, _, rfl, .check⟩
  | write did cid bytes => exact Or.inl ⟨_, _, rfl, .write⟩
  | rename did cid bytes =>
      rw [FsBlobStore.runStep]
      cases hstaged : fs.tmp (did, cid) with
      | none => exact Or.inr ⟨_, _, rfl, .lost hstaged⟩
      | some staged => exact Or.inr ⟨_, _, rfl, .renamed hstaged⟩
  | stat did cid =>
      rw [FsBlobStore.runStep]
      cases hstored : fs.blocks (did, cid) with
      | none => exact Or.inr ⟨_, _, rfl, .missing (Or.inl rfl)⟩
      | some stored =>
          dsimp only
          split_ifs with hlen
          · exact Or.inr ⟨_, _, rfl, .tooLarge hstored hlen⟩
          · exact Or.inl ⟨_, _, rfl, .stat hstored (by omega)⟩
  | read did cid =>
      rw [FsBlobStore.runStep]
      cases hstored : fs.blocks (did, cid) with
      | none => exact Or.inr ⟨_, _, rfl, .missing (Or.inr rfl)⟩
      | some stored => exact Or.inr ⟨_, _, rfl, .read hstored⟩
  | «exists» did cid => exact Or.inr ⟨_, _, rfl, .exists⟩

/-- **What an action does**: nothing, a new call, a step its call goes on from, or one that answers
it. -/
lemma BlobWorld.step_cases (w : BlobWorld) (a : BlobAction) :
    w.step a = w ∨
      (∃ thread call, a = .start thread call ∧ w.inFlight thread = none ∧
        w.step a = { w with inFlight := Function.update w.inFlight thread (some call.start) }) ∨
      (∃ thread step fs step', a = .advance thread ∧ w.inFlight thread = some step ∧
        Proceeds w.fs step fs step' ∧
        w.step a =
          { w with fs := fs, inFlight := Function.update w.inFlight thread (some step') }) ∨
      ∃ thread step fs answer, a = .advance thread ∧ w.inFlight thread = some step ∧
        Answers w.fs step fs answer ∧
        w.step a =
          { fs := fs
            inFlight := Function.update w.inFlight thread none
            answers := w.answers ++ [(step.call, answer)] } := by
  cases a with
  | start thread call =>
      cases hflight : w.inFlight thread with
      | some step => exact Or.inl (by rw [BlobWorld.step, hflight])
      | none =>
          refine Or.inr (Or.inl ⟨thread, call, rfl, hflight, ?_⟩)
          rw [BlobWorld.step, hflight]
  | advance thread =>
      cases hflight : w.inFlight thread with
      | none => exact Or.inl (by rw [BlobWorld.step, hflight])
      | some step =>
          obtain ⟨fs, step', hrun, hcont⟩ | ⟨fs, answer, hrun, hans⟩ := runStep_cases w.fs step
          · refine Or.inr (Or.inr (Or.inl ⟨thread, step, fs, step', rfl, hflight, hcont, ?_⟩))
            rw [BlobWorld.step, hflight]
            dsimp only
            rw [hrun]
          · refine Or.inr (Or.inr (Or.inr ⟨thread, step, fs, answer, rfl, hflight, hans, ?_⟩))
            rw [BlobWorld.step, hflight]
            dsimp only
            rw [hrun]

/-- What an updated function has at a place. -/
lemma update_cases {α β : Type*} [DecidableEq α] {f : α → β} {x y : α} {v z : β}
    (h : Function.update f x v y = z) : y = x ∧ v = z ∨ y ≠ x ∧ f y = z := by
  by_cases hxy : y = x
  · rw [hxy, Function.update_self] at h
    exact Or.inl ⟨hxy, h⟩
  · rw [Function.update_of_ne hxy] at h
    exact Or.inr ⟨hxy, h⟩

/-! ## The bytes of a blob -/

/-- Wherever the blob's bytes are, they are `bytes`. -/
structure SameBytes (did cid : String) (bytes : Bytes) (w : BlobWorld) : Prop where
  blocks : ∀ b, w.fs.blocks (did, cid) = some b → b = bytes
  tmp : ∀ b, w.fs.tmp (did, cid) = some b → b = bytes
  puts : ∀ thread step b, w.inFlight thread = some step → step.call = .put did cid b → b = bytes
  reads : ∀ thread, w.inFlight thread = some (.read did cid) → bytes.length ≤ maxObjectBytes
  gets : GetsExact did cid bytes w

section

variable {did cid : String} {bytes : Bytes} {w : BlobWorld} {a : BlobAction} {thread : Nat}
  {now next : BlobStep} {fs : FsBlobStore} {answer : BlobAnswer}

lemma SameBytes.init : SameBytes did cid bytes .init where
  blocks _ h := by cases h
  tmp _ h := by cases h
  puts _ _ _ h := by cases h
  reads _ h := by cases h
  gets _ h := by cases h

/-- A new call. -/
lemma SameBytes.start (h : SameBytes did cid bytes w) {call : BlobCall}
    (hcall : ∀ b, call = .put did cid b → b = bytes) :
    SameBytes did cid bytes
      { w with inFlight := Function.update w.inFlight thread (some call.start) } := by
  refine ⟨h.blocks, h.tmp, ?_, ?_, h.gets⟩
  · intro t s b hs hput
    obtain ⟨-, hnew⟩ | ⟨-, hold⟩ := update_cases hs
    · cases hnew
      cases call with
      | put did' cid' b' => exact hcall b hput
      | get did' cid' => cases hput
      | has did' cid' => cases hput
    · exact h.puts t s b hold hput
  · intro t hs
    obtain ⟨-, hnew⟩ | ⟨-, hold⟩ := update_cases hs
    · cases call with
      | put did' cid' b' => cases hnew
      | get did' cid' => cases hnew
      | has did' cid' => cases hnew
    · exact h.reads t hold

/-- A step its call goes on from: a length that is read has been asked for. -/
lemma SameBytes.continues (h : SameBytes did cid bytes w)
    (hflight : w.inFlight thread = some now) (hcont : Proceeds w.fs now fs next) :
    SameBytes did cid bytes
      { w with fs := fs, inFlight := Function.update w.inFlight thread (some next) } := by
  have hcall : next.call = now.call := by
    cases hcont with
    | check => rfl
    | write => rfl
    | stat hstored hlen => rfl
  refine ⟨?_, ?_, ?_, ?_, h.gets⟩
  · cases hcont with
    | check => exact h.blocks
    | write => exact h.blocks
    | stat hstored hlen => exact h.blocks
  · cases hcont with
    | check => exact h.tmp
    | write =>
        intro b hb
        obtain ⟨hkey, hnew⟩ | ⟨-, hold⟩ := update_cases hb
        · cases hkey
          cases hnew
          exact h.puts thread _ _ hflight rfl
        · exact h.tmp b hold
    | stat hstored hlen => exact h.tmp
  · intro t s b hs hput
    obtain ⟨-, hnew⟩ | ⟨-, hold⟩ := update_cases hs
    · cases hnew
      exact h.puts thread now b hflight (hcall.symm.trans hput)
    · exact h.puts t s b hold hput
  · intro t hs
    obtain ⟨-, hnew⟩ | ⟨-, hold⟩ := update_cases hs
    · cases hcont with
      | check => cases hnew
      | write => cases hnew
      | stat hstored hlen =>
          cases hnew
          rw [← h.blocks _ hstored]
          exact hlen
    · exact h.reads t hold

/-- A step that answers its call. -/
lemma SameBytes.answers (h : SameBytes did cid bytes w)
    (hflight : w.inFlight thread = some now) (hans : Answers w.fs now fs answer) :
    SameBytes did cid bytes
      { fs := fs
        inFlight := Function.update w.inFlight thread none
        answers := w.answers ++ [(now.call, answer)] } := by
  refine ⟨?_, ?_, ?_, ?_, ?_⟩
  · cases hans with
    | renamed hstaged =>
        intro b hb
        obtain ⟨hkey, hnew⟩ | ⟨-, hold⟩ := update_cases hb
        · cases hkey
          cases hnew
          exact h.tmp _ hstaged
        · exact h.blocks b hold
    | _ => exact h.blocks
  · cases hans with
    | renamed hstaged =>
        intro b hb
        obtain ⟨-, hnew⟩ | ⟨-, hold⟩ := update_cases hb
        · cases hnew
        · exact h.tmp b hold
    | _ => exact h.tmp
  · intro t s b hs hput
    obtain ⟨-, hnew⟩ | ⟨-, hold⟩ := update_cases hs
    · cases hnew
    · exact h.puts t s b hold hput
  · intro t hs
    obtain ⟨-, hnew⟩ | ⟨-, hold⟩ := update_cases hs
    · cases hnew
    · exact h.reads t hold
  · intro answer' hmem
    obtain hold | hnew := List.mem_append.mp hmem
    · exact h.gets answer' hold
    · obtain ⟨hcall, rfl⟩ := Prod.mk.inj (List.mem_singleton.mp hnew)
      cases hans with
      | dedup => cases hcall
      | renamed hstaged => cases hcall
      | lost hstaged => cases hcall
      | missing hstep =>
          obtain rfl | rfl := hstep
          · cases hcall
            exact Or.inl rfl
          · cases hcall
            exact Or.inl rfl
      | tooLarge hstored hlen =>
          cases hcall
          rw [h.blocks _ hstored] at hlen ⊢
          exact Or.inr (by rw [served, if_pos hlen])
      | read hstored =>
          cases hcall
          have hlen := h.reads thread hflight
          rw [h.blocks _ hstored]
          exact Or.inr (by rw [served, if_neg (by omega)])
      | «exists» => cases hcall

lemma SameBytes.step (h : SameBytes did cid bytes w)
    (hstart : ∀ thread b, a = .start thread (.put did cid b) → b = bytes) :
    SameBytes did cid bytes (w.step a) := by
  obtain heq | ⟨thread, call, ha, -, heq⟩ | ⟨thread, step, fs, step', -, hflight, hcont, heq⟩ |
    ⟨thread, step, fs, answer, -, hflight, hans, heq⟩ := w.step_cases a
  · rw [heq]
    exact h
  · rw [heq]
    refine h.start ?_
    rintro b rfl
    exact hstart thread b ha
  · rw [heq]
    exact h.continues hflight hcont
  · rw [heq]
    exact h.answers hflight hans

/-! ## One put at a time -/

lemma Staged.update {t : Nat} {o : Option BlobStep} {answers : List (BlobCall × BlobAnswer)}
    (h : Staged did cid w t) (ht : t ≠ thread) :
    Staged did cid ⟨fs, Function.update w.inFlight thread o, answers⟩ t := by
  obtain ⟨b, hb⟩ := h
  exact ⟨b, (Function.update_of_ne ht _ _).trans hb⟩

lemma Staged.of_update {t : Nat} {o : Option BlobStep} {answers : List (BlobCall × BlobAnswer)}
    (h : Staged did cid ⟨fs, Function.update w.inFlight thread o, answers⟩ t) :
    t = thread ∧ (∃ b, o = some (.rename did cid b)) ∨ t ≠ thread ∧ Staged did cid w t := by
  obtain ⟨b, hb⟩ := h
  obtain ⟨ht, hnew⟩ | ⟨ht, hold⟩ := update_cases hb
  · exact Or.inl ⟨ht, b, hnew⟩
  · exact Or.inr ⟨ht, b, hold⟩

/-- A call in flight at another step is not staged. -/
lemma not_staged_of_inFlight (hflight : w.inFlight thread = some now)
    (hnow : ∀ b, now ≠ .rename did cid b) : ¬ Staged did cid w thread := by
  rintro ⟨b, hb⟩
  exact hnow b (Option.some.inj (hflight.symm.trans hb))

lemma PutsOk.append {inFlight : Nat → Option BlobStep} (h : PutsOk did cid w)
    (hnew : ∀ b, now.call = .put did cid b → answer = .put (.ok b.length)) :
    PutsOk did cid ⟨fs, inFlight, w.answers ++ [(now.call, answer)]⟩ := by
  intro b answer' hmem
  obtain hold | hlast := List.mem_append.mp hmem
  · exact h b answer' hold
  · obtain ⟨hcall, rfl⟩ := Prod.mk.inj (List.mem_singleton.mp hlast)
    exact hnew b hcall.symm

/-- At most one put of the blob is staged, and then its file is there. -/
structure OneStaged (did cid : String) (w : BlobWorld) : Prop where
  unique : ∀ t t', Staged did cid w t → Staged did cid w t' → t = t'
  present : ∀ t, Staged did cid w t → w.fs.tmp (did, cid) ≠ none
  puts : PutsOk did cid w

lemma OneStaged.init : OneStaged did cid .init where
  unique _ _ h := by
    obtain ⟨b, hb⟩ := h
    cases hb
  present _ h := by
    obtain ⟨b, hb⟩ := h
    cases hb
  puts _ _ h := by cases h

/-- Whatever stages no further put of the blob, and leaves its staging file. -/
lemma OneStaged.mono {w' : BlobWorld} (h : OneStaged did cid w)
    (hstaged : ∀ t, Staged did cid w' t → Staged did cid w t)
    (htmp : w'.fs.tmp (did, cid) = w.fs.tmp (did, cid)) (hputs : PutsOk did cid w') :
    OneStaged did cid w' where
  unique t t' ht ht' := h.unique t t' (hstaged t ht) (hstaged t' ht')
  present t ht := by
    rw [htmp]
    exact h.present t (hstaged t ht)
  puts := hputs

lemma OneStaged.continues (h : OneStaged did cid w) (hflight : w.inFlight thread = some now)
    (hcont : Proceeds w.fs now fs next)
    (hexcl : ∀ b, now = .write did cid b → ∀ other, ¬ Staged did cid w other) :
    OneStaged did cid
      { w with fs := fs, inFlight := Function.update w.inFlight thread (some next) } := by
  -- only a write stages a put
  have hother : (∀ b, next ≠ .rename did cid b) → ∀ t, Staged did cid
      { w with fs := fs, inFlight := Function.update w.inFlight thread (some next) } t →
        Staged did cid w t := by
    intro hnext t ht
    obtain ⟨-, b, hb⟩ | ⟨-, hold⟩ := ht.of_update
    · exact absurd (Option.some.inj hb) (hnext b)
    · exact hold
  cases hcont with
  | check => exact h.mono (hother (by simp)) rfl h.puts
  | stat hstored hlen => exact h.mono (hother (by simp)) rfl h.puts
  | @write did' cid' b =>
      by_cases hkey : (did, cid) = (did', cid')
      · cases hkey
        have hnone := hexcl b rfl
        refine ⟨?_, ?_, h.puts⟩
        · intro t t' ht ht'
          obtain ⟨rfl, -⟩ | ⟨-, hold⟩ := ht.of_update
          · obtain ⟨rfl, -⟩ | ⟨-, hold⟩ := ht'.of_update
            · rfl
            · exact absurd hold (hnone t')
          · exact absurd hold (hnone t)
        · intro t ht
          show Function.update w.fs.tmp (did, cid) (some b) (did, cid) ≠ none
          rw [Function.update_self]
          simp
      · refine h.mono (hother ?_) (Function.update_of_ne hkey _ _) h.puts
        intro b' hb'
        cases hb'
        exact hkey rfl

lemma OneStaged.answers (h : OneStaged did cid w) (hflight : w.inFlight thread = some now)
    (hans : Answers w.fs now fs answer) :
    OneStaged did cid
      { fs := fs
        inFlight := Function.update w.inFlight thread none
        answers := w.answers ++ [(now.call, answer)] } := by
  have hother : ∀ t, Staged did cid
      { fs := fs
        inFlight := Function.update w.inFlight thread none
        answers := w.answers ++ [(now.call, answer)] } t → t ≠ thread ∧ Staged did cid w t := by
    intro t ht
    obtain ⟨-, b, hb⟩ | hold := ht.of_update
    · cases hb
    · exact hold
  cases hans with
  | dedup =>
      refine h.mono (fun t ht => (hother t ht).2) rfl (h.puts.append ?_)
      intro b hb
      cases hb
      rfl
  | @renamed did' cid' b staged hstaged =>
      have hputs : ∀ b', BlobStep.call (.rename did' cid' b) = .put did cid b' →
          BlobAnswer.put (.ok b.length) = .put (.ok b'.length) := by
        intro b' hb'
        cases hb'
        rfl
      by_cases hkey : (did, cid) = (did', cid')
      · cases hkey
        -- the staged put was this one
        have hnone : ∀ t, ¬ (t ≠ thread ∧ Staged did cid w t) := by
          rintro t ⟨ht, hold⟩
          exact ht (h.unique t thread hold ⟨b, hflight⟩)
        refine ⟨?_, ?_, h.puts.append hputs⟩
        · intro t t' ht
          exact absurd (hother t ht) (hnone t)
        · intro t ht
          exact absurd (hother t ht) (hnone t)
      · exact h.mono (fun t ht => (hother t ht).2) (Function.update_of_ne hkey _ _)
          (h.puts.append hputs)
  | @lost did' cid' b hstaged =>
      refine h.mono (fun t ht => (hother t ht).2) rfl (h.puts.append ?_)
      intro b' hb'
      cases hb'
      exact absurd hstaged (h.present thread ⟨b, hflight⟩)
  | missing hstep =>
      refine h.mono (fun t ht => (hother t ht).2) rfl (h.puts.append ?_)
      intro b hb
      obtain rfl | rfl := hstep
      · cases hb
      · cases hb
  | tooLarge hstored hlen =>
      refine h.mono (fun t ht => (hother t ht).2) rfl (h.puts.append ?_)
      intro b hb
      cases hb
  | read hstored =>
      refine h.mono (fun t ht => (hother t ht).2) rfl (h.puts.append ?_)
      intro b hb
      cases hb
  | «exists» =>
      refine h.mono (fun t ht => (hother t ht).2) rfl (h.puts.append ?_)
      intro b hb
      cases hb

lemma OneStaged.step (h : OneStaged did cid w) (hexcl : Exclusive did cid w a) :
    OneStaged did cid (w.step a) := by
  obtain heq | ⟨thread, call, -, -, heq⟩ | ⟨thread, now, fs, next, ha, hflight, hcont, heq⟩ |
    ⟨thread, now, fs, answer, -, hflight, hans, heq⟩ := w.step_cases a
  · rw [heq]
    exact h
  · rw [heq]
    refine h.mono ?_ rfl h.puts
    intro t ht
    obtain ⟨-, b, hb⟩ | ⟨-, hold⟩ := ht.of_update
    · cases call with
      | put did' cid' b' => cases hb
      | get did' cid' => cases hb
      | has did' cid' => cases hb
    · exact hold
  · rw [heq]
    refine h.continues hflight hcont ?_
    rintro b rfl
    exact hexcl thread b ha hflight
  · rw [heq]
    exact h.answers hflight hans

/-! ## Two puts at a time -/

/-- More puts of the blob are staged than there are staging files. -/
def Crowded (did cid : String) (w : BlobWorld) : Prop :=
  (w.fs.tmp (did, cid) = none ∧ ∃ t, Staged did cid w t) ∨
    ∃ t t', t ≠ t' ∧ Staged did cid w t ∧ Staged did cid w t'

lemma Crowded.exists_staged (h : Crowded did cid w) : ∃ t, Staged did cid w t := by
  obtain ⟨-, hstaged⟩ | ⟨t, -, -, ht, -⟩ := h
  · exact hstaged
  · exact ⟨t, ht⟩

/-- Whatever takes no put of the blob out, and leaves its staging file. -/
lemma Crowded.mono {w' : BlobWorld} (h : Crowded did cid w)
    (hstaged : ∀ t, Staged did cid w t → Staged did cid w' t)
    (htmp : w'.fs.tmp (did, cid) = w.fs.tmp (did, cid)) : Crowded did cid w' := by
  obtain ⟨hnone, t, ht⟩ | ⟨t, t', hne, ht, ht'⟩ := h
  · exact Or.inl ⟨htmp.trans hnone, t, hstaged t ht⟩
  · exact Or.inr ⟨t, t', hne, hstaged t ht, hstaged t' ht'⟩

/-- A call that is not staged may do anything with other files. -/
lemma Crowded.update {o : Option BlobStep} {answers : List (BlobCall × BlobAnswer)}
    (h : Crowded did cid w) (hthread : ¬ Staged did cid w thread)
    (htmp : fs.tmp (did, cid) = w.fs.tmp (did, cid)) :
    Crowded did cid ⟨fs, Function.update w.inFlight thread o, answers⟩ := by
  refine h.mono ?_ htmp
  intro t ht
  exact ht.update fun hsame => hthread (hsame ▸ ht)

lemma Crowded.continues (h : Crowded did cid w) (hflight : w.inFlight thread = some now)
    (hcont : Proceeds w.fs now fs next) :
    Crowded did cid
      { w with fs := fs, inFlight := Function.update w.inFlight thread (some next) } := by
  cases hcont with
  | check => exact h.update (not_staged_of_inFlight hflight (by simp)) rfl
  | stat hstored hlen => exact h.update (not_staged_of_inFlight hflight (by simp)) rfl
  | @write did' cid' b =>
      have hthread : ¬ Staged did cid w thread := not_staged_of_inFlight hflight (by simp)
      by_cases hkey : (did, cid) = (did', cid')
      · cases hkey
        obtain ⟨t, ht⟩ := h.exists_staged
        have hne : t ≠ thread := fun hsame => hthread (hsame ▸ ht)
        exact Or.inr ⟨t, thread, hne, ht.update hne, b, Function.update_self ..⟩
      · exact h.update hthread (Function.update_of_ne hkey _ _)

lemma Crowded.answers (h : Crowded did cid w) (hflight : w.inFlight thread = some now)
    (hans : Answers w.fs now fs answer)
    (hok : ∀ b, now.call = .put did cid b → answer = .put (.ok b.length)) :
    Crowded did cid
      { fs := fs
        inFlight := Function.update w.inFlight thread none
        answers := w.answers ++ [(now.call, answer)] } := by
  cases hans with
  | @renamed did' cid' b staged hstaged =>
      by_cases hkey : (did, cid) = (did', cid')
      · cases hkey
        -- the file was there, so another put is staged besides this one
        refine Or.inl ⟨Function.update_self .., ?_⟩
        obtain ⟨hnone, -⟩ | ⟨t, t', hne, ht, ht'⟩ := h
        · rw [hstaged] at hnone
          cases hnone
        · by_cases hsame : t = thread
          · exact ⟨t', ht'.update fun hsame' => hne (hsame.trans hsame'.symm)⟩
          · exact ⟨t, ht.update hsame⟩
      · refine h.update (not_staged_of_inFlight hflight ?_) (Function.update_of_ne hkey _ _)
        intro b' hb'
        cases hb'
        exact hkey rfl
  | @lost did' cid' b hstaged =>
      by_cases hkey : (did, cid) = (did', cid')
      · cases hkey
        cases hok b rfl
      · refine h.update (not_staged_of_inFlight hflight ?_) rfl
        intro b' hb'
        cases hb'
        exact hkey rfl
  | dedup => exact h.update (not_staged_of_inFlight hflight (by simp)) rfl
  | missing hstep =>
      refine h.update (not_staged_of_inFlight hflight ?_) rfl
      obtain rfl | rfl := hstep
      · simp
      · simp
  | tooLarge hstored hlen => exact h.update (not_staged_of_inFlight hflight (by simp)) rfl
  | read hstored => exact h.update (not_staged_of_inFlight hflight (by simp)) rfl
  | «exists» => exact h.update (not_staged_of_inFlight hflight (by simp)) rfl

lemma Crowded.step (h : Crowded did cid w) (hputs : PutsOk did cid (w.step a)) :
    Crowded did cid (w.step a) := by
  obtain heq | ⟨thread, call, -, hfree, heq⟩ | ⟨thread, now, fs, next, -, hflight, hcont, heq⟩ |
    ⟨thread, now, fs, answer, -, hflight, hans, heq⟩ := w.step_cases a
  · rw [heq]
    exact h
  · rw [heq]
    refine h.update ?_ rfl
    rintro ⟨b, hb⟩
    rw [hfree] at hb
    cases hb
  · rw [heq]
    exact h.continues hflight hcont
  · rw [heq] at hputs ⊢
    refine h.answers hflight hans ?_
    intro b hb
    exact hputs b answer (List.mem_append_right _ (by simp [hb]))

/-- Answers stay. -/
lemma PutsOk.of_step (h : PutsOk did cid (w.step a)) : PutsOk did cid w := by
  obtain heq | ⟨thread, call, -, -, heq⟩ | ⟨thread, now, fs, next, -, -, -, heq⟩ |
    ⟨thread, now, fs, answer, -, -, -, heq⟩ := w.step_cases a
  · rwa [heq] at h
  · rwa [heq] at h
  · rwa [heq] at h
  · rw [heq] at h
    intro b answer' hmem
    exact h b answer' (List.mem_append_left _ hmem)

lemma PutsOk.of_run {acts : List BlobAction} (h : PutsOk did cid (run BlobWorld.step w acts)) :
    PutsOk did cid w := by
  induction acts generalizing w with
  | nil => exact h
  | cons a acts ih => exact (ih h).of_step

lemma Crowded.run {acts : List BlobAction} (h : Crowded did cid w)
    (hputs : PutsOk did cid (Ciss.run BlobWorld.step w acts)) :
    Crowded did cid (Ciss.run BlobWorld.step w acts) := by
  induction acts generalizing w with
  | nil => exact h
  | cons a acts ih =>
      rw [run_cons] at hputs ⊢
      exact ih (h.step hputs.of_run) hputs

/-- A put that writes while another is staged. -/
lemma crowded_of_not_exclusive (h : ¬ Exclusive did cid w a) : Crowded did cid (w.step a) := by
  rw [Exclusive] at h
  push Not at h
  obtain ⟨thread, b, rfl, hflight, other, hother⟩ := h
  have hne : other ≠ thread := by
    rintro rfl
    exact not_staged_of_inFlight hflight (by simp) hother
  rw [BlobWorld.step, hflight]
  exact Or.inr ⟨other, thread, hne, hother.update hne, b, Function.update_self ..⟩

/-- Where every put returned its length and none is left staged, no two were staged together. -/
lemma exclusive_of_putsOk {acts : List BlobAction}
    (hrest : ∀ t, ¬ Staged did cid (run BlobWorld.step w acts) t)
    (hputs : PutsOk did cid (run BlobWorld.step w acts)) :
    Along BlobWorld.step (Exclusive did cid) w acts := by
  induction acts generalizing w with
  | nil => trivial
  | cons a acts ih =>
      rw [run_cons] at hrest hputs
      refine ⟨?_, ih hrest hputs⟩
      by_contra hexcl
      obtain ⟨t, ht⟩ := ((crowded_of_not_exclusive hexcl).run hputs).exists_staged
      exact hrest t ht

/-- **Concurrent puts of one blob are safe one at a time.**  In every run in which all puts of the
blob carry `bytes`: if no put writes while another is staged, every put returns its length; if no
put is left staged at the end, every put returns its length only then; and every get that finds the
blob is served exactly `bytes`. -/
theorem concurrent_puts_safe (did cid : String) (bytes : Bytes) (acts : List BlobAction)
    (hbytes : ∀ thread b, .start thread (.put did cid b) ∈ acts → b = bytes) :
    (Along BlobWorld.step (Exclusive did cid) .init acts →
        PutsOk did cid (run BlobWorld.step .init acts)) ∧
      ((∀ t, ¬ Staged did cid (run BlobWorld.step .init acts) t) →
        (PutsOk did cid (run BlobWorld.step .init acts) ↔
          Along BlobWorld.step (Exclusive did cid) .init acts)) ∧
      GetsExact did cid bytes (run BlobWorld.step .init acts) := by
  have hforward : Along BlobWorld.step (Exclusive did cid) .init acts →
      PutsOk did cid (run BlobWorld.step .init acts) := fun halong =>
    (run_invariant (I := OneStaged did cid) (fun w a hw hexcl => hw.step hexcl) .init halong).puts
  refine ⟨hforward, fun hrest => ⟨exclusive_of_putsOk hrest, hforward⟩, ?_⟩
  have halong : Along BlobWorld.step (fun _ a => a ∈ acts) .init acts :=
    along_of_take fun k a hk => List.mem_of_getElem? hk
  refine (run_invariant (I := SameBytes did cid bytes) ?_ .init halong).gets
  intro w a hw ha
  refine hw.step ?_
  rintro thread b rfl
  exact hbytes thread b ha

end

/-! ### Two threads that store one blob -/

/-- A thread that calls nothing has nothing in flight. -/
lemma inFlight_step_of_not_start {w : BlobWorld} {a : BlobAction} {t : Nat}
    (h : w.inFlight t = none) (ha : ∀ call, a ≠ .start t call) : (w.step a).inFlight t = none := by
  obtain heq | ⟨thread, call, rfl, -, heq⟩ | ⟨thread, now, fs, next, -, hflight, -, heq⟩ |
    ⟨thread, now, fs, answer, -, hflight, -, heq⟩ := w.step_cases a
  · rw [heq]
    exact h
  · rw [heq]
    have hne : t ≠ thread := by
      rintro rfl
      exact ha call rfl
    exact (Function.update_of_ne hne _ _).trans h
  · rw [heq]
    have hne : t ≠ thread := by
      rintro rfl
      rw [h] at hflight
      cases hflight
    exact (Function.update_of_ne hne _ _).trans h
  · rw [heq]
    have hne : t ≠ thread := by
      rintro rfl
      rw [h] at hflight
      cases hflight
    exact (Function.update_of_ne hne _ _).trans h

/-- A thread stores the bytes of `abc`. -/
def storeAbc (thread : Nat) : BlobAction :=
  .start thread (.put "did:plc:ewvi7nxzyoun6zhxrhs64oiz"
    "ba7816bf8f01cfea414140de5dae2223b00361a396177a9cb410ff61f20015ad" (asBytes "abc"))

/-- The first thread is between its check and its write when the second one is done. -/
def storesInTurn : List BlobAction :=
  [storeAbc 1, storeAbc 2, .advance 1, .advance 2, .advance 2, .advance 2, .advance 1, .advance 1]

/-- Both threads write before either renames. -/
def storesCrossing : List BlobAction :=
  [storeAbc 1, storeAbc 2, .advance 1, .advance 2, .advance 1, .advance 2, .advance 1, .advance 2]

lemma storesInTurn_bytes {did cid : String} {thread : Nat} {b : Bytes}
    (h : .start thread (.put did cid b) ∈ storesInTurn) : b = asBytes "abc" := by
  simp only [storesInTurn, storeAbc, List.mem_cons, BlobAction.start.injEq, BlobCall.put.injEq,
    List.not_mem_nil, or_false, reduceCtorEq] at h
  obtain ⟨-, -, -, hb⟩ | ⟨-, -, -, hb⟩ := h
  · exact hb
  · exact hb

/-- Both threads return the length, so neither wrote while the other was staged. -/
theorem concurrent_puts_safe_inTurn :
    Along BlobWorld.step (Exclusive "did:plc:ewvi7nxzyoun6zhxrhs64oiz"
      "ba7816bf8f01cfea414140de5dae2223b00361a396177a9cb410ff61f20015ad") .init storesInTurn := by
  have hsafe := concurrent_puts_safe "did:plc:ewvi7nxzyoun6zhxrhs64oiz"
    "ba7816bf8f01cfea414140de5dae2223b00361a396177a9cb410ff61f20015ad" (asBytes "abc") storesInTurn
    fun thread b h => storesInTurn_bytes h
  have hanswers : (run BlobWorld.step .init storesInTurn).answers =
      List.replicate 2 (.put "did:plc:ewvi7nxzyoun6zhxrhs64oiz"
        "ba7816bf8f01cfea414140de5dae2223b00361a396177a9cb410ff61f20015ad" (asBytes "abc"),
        .put (.ok (asBytes "abc").length)) := by rfl
  refine (hsafe.2.1 ?_).1 ?_
  · rintro t ⟨b, hb⟩
    by_cases ht : t = 1 ∨ t = 2
    · obtain rfl | rfl := ht
      · cases hb
      · cases hb
    · have halong : Along BlobWorld.step (fun _ a => ∀ call, a ≠ .start t call) .init
          storesInTurn := by
        apply along_of_take
        rintro k a hk call rfl
        have hmem := List.mem_of_getElem? hk
        simp only [storesInTurn, storeAbc, List.mem_cons, BlobAction.start.injEq, List.not_mem_nil,
          or_false, reduceCtorEq] at hmem
        omega
      have hfree := run_invariant (I := fun w : BlobWorld => w.inFlight t = none)
        (fun w a hw ha => inFlight_step_of_not_start hw ha) rfl halong
      cases hfree.symm.trans hb
  · intro b answer hmem
    rw [hanswers] at hmem
    obtain ⟨hcall, rfl⟩ := Prod.mk.inj (List.eq_of_mem_replicate hmem)
    cases hcall
    rfl

/-- The second rename finds no staging file, and its put returns an error. -/
theorem second_rename_finds_nothing :
    ¬ ∀ (did cid : String) (bytes : Bytes) (acts : List BlobAction),
      (∀ thread b, .start thread (.put did cid b) ∈ acts → b = bytes) →
        PutsOk did cid (run BlobWorld.step .init acts) ∧
          GetsExact did cid bytes (run BlobWorld.step .init acts) := by
  intro h
  have hputs := (h "did:plc:ewvi7nxzyoun6zhxrhs64oiz"
    "ba7816bf8f01cfea414140de5dae2223b00361a396177a9cb410ff61f20015ad" (asBytes "abc")
    storesCrossing ?_).1
  · have hlast : (BlobCall.put "did:plc:ewvi7nxzyoun6zhxrhs64oiz"
        "ba7816bf8f01cfea414140de5dae2223b00361a396177a9cb410ff61f20015ad" (asBytes "abc"),
        BlobAnswer.put (.error (.io "did:plc:ewvi7nxzyoun6zhxrhs64oiz"
          "ba7816bf8f01cfea414140de5dae2223b00361a396177a9cb410ff61f20015ad" .notFound))) ∈
        (run BlobWorld.step .init storesCrossing).answers :=
      List.mem_cons_of_mem _ List.mem_cons_self
    cases hputs _ _ hlast
  · intro thread b hmem
    simp only [storesCrossing, storeAbc, List.mem_cons, BlobAction.start.injEq, BlobCall.put.injEq,
      List.not_mem_nil, or_false, reduceCtorEq] at hmem
    obtain ⟨-, -, -, hb⟩ | ⟨-, -, -, hb⟩ := hmem
    · exact hb
    · exact hb

end Ciss
