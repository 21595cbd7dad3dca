import Ciss.Mesh.Chain
import Mathlib.Logic.Function.Basic

/-!
# The order in which announcements arrive

Gossip delivers in any order and more than once.  For each device the slot holds the newest of what
was heard (`remote_receiveAll`), so it always holds a greatest counter; which head stands under it
is settled only if no two announcements give one counter to two heads of a device.

`MeshWorld` is any number of devices on the mesh, with their backups, failed broadcasts, restarts
and re-announcements.  In a run whose broadcasts all go out and whose counters are all written,
what was broadcast gives every counter to one head, and the merge is independent of order and
repetition (`frontier_merge_order_independent`).  A broadcast that failed and is made up for when a
neighbor comes up, after which the backup is retried, is enough to break it
(`reannounced_head_depends_on_order`).
-/

namespace Ciss

/-! ## What the slot holds -/

/-- What the announcements say of one device. -/
def heardOf (device : String) (anns : List Announcement) : List (Nat × String) :=
  (anns.filter fun a => a.kind = announceKind && a.deviceId = device).map fun a =>
    (a.counter, a.headSha256)

section

variable {anns anns' : List Announcement} {device : String} {slot : SlotState} {ann : Announcement}

lemma mem_heardOf {x : Nat × String} : x ∈ heardOf device anns ↔
    ∃ a ∈ anns, a.kind = announceKind ∧ a.deviceId = device ∧ (a.counter, a.headSha256) = x := by
  simp [heardOf, and_assoc]

lemma heardOf_concat : heardOf device (anns ++ [ann]) = heardOf device anns ++
    if ann.kind = announceKind ∧ ann.deviceId = device then [(ann.counter, ann.headSha256)]
    else [] := by
  by_cases h : ann.kind = announceKind ∧ ann.deviceId = device
  · simp [heardOf, h]
  · rw [if_neg h]
    have hnot : (decide (ann.kind = announceKind) && decide (ann.deviceId = device)) = false := by
      simpa using h
    simp [heardOf, List.filter_append, hnot]

/-- One announcement, seen from one device. -/
lemma remote_receive : (receive slot ann).remote[device]? =
    if ann.kind = announceKind ∧ ann.deviceId = device then
      takeNewer slot.remote[device]? (ann.counter, ann.headSha256)
    else slot.remote[device]? := by
  unfold receive
  by_cases hkind : ann.kind = announceKind
  · rw [if_neg (not_not.mpr hkind)]
    by_cases hdev : ann.deviceId = device
    · subst hdev
      rw [if_pos ⟨hkind, rfl⟩]
      unfold mergeAnnouncement takeNewer
      rcases hheld : slot.remote[ann.deviceId]? with _ | ⟨held, cid⟩
      · simp
      · dsimp only
        split
        · exact hheld
        · simp
    · rw [if_neg fun h => hdev h.2]
      unfold mergeAnnouncement
      have hinsert : (slot.remote.insert ann.deviceId (ann.counter, ann.headSha256))[device]? =
          slot.remote[device]? := by
        rw [Std.ExtTreeMap.getElem?_insert, if_neg]
        simpa using hdev
      split
      · split
        · rfl
        · exact hinsert
      · exact hinsert
  · rw [if_pos hkind, if_neg fun h => hkind h.1]

/-- **What the slot holds of a device**: the newest of what was heard. -/
lemma remote_receiveAll (h : slot.remote = ∅) :
    (receiveAll slot anns).remote[device]? = newestOf (heardOf device anns) := by
  induction anns using List.reverseRecOn with
  | nil => simp [receiveAll, h, heardOf]
  | append_singleton anns ann ih =>
      have hstep : receiveAll slot (anns ++ [ann]) = receive (receiveAll slot anns) ann := by
        simp [receiveAll]
      rw [hstep, remote_receive, ih, heardOf_concat]
      split
      · rw [newestOf_concat]
      · rw [List.append_nil]

end

/-! ## When order does not matter -/

/-- No two announcements give one counter to two heads of a device. -/
def Consistent (Broadcast : Announcement → Prop) : Prop :=
  ∀ a b, Broadcast a → Broadcast b → a.deviceId = b.deviceId → a.counter = b.counter →
    a.headSha256 = b.headSha256

/-- What a peer that knows of no other device holds after hearing announcements depends only on
which they are, not on their order or on how often each is heard. -/
def OrderIndependent (Broadcast : Announcement → Prop) : Prop :=
  ∀ anns anns' : List Announcement, (∀ a ∈ anns, Broadcast a) → (∀ a, a ∈ anns ↔ a ∈ anns') →
    ∀ slot : SlotState, slot.remote = ∅ →
      (receiveAll slot anns).remote = (receiveAll slot anns').remote

/-- For every device that was heard of, the slot holds an announced head with a greatest counter;
of others it holds nothing. -/
def HoldsGreatest (slot : SlotState) (anns : List Announcement) : Prop :=
  ∀ device, match slot.remote[device]? with
    | none => ∀ a ∈ anns, a.deviceId ≠ device
    | some (counter, headCid) =>
        (∃ a ∈ anns, a.deviceId = device ∧ a.counter = counter ∧ a.headSha256 = headCid) ∧
          ∀ a ∈ anns, a.deviceId = device → a.counter ≤ counter

section

variable {Broadcast : Announcement → Prop} {anns : List Announcement} {slot : SlotState}

lemma holdsGreatest_receiveAll (hkind : ∀ a ∈ anns, a.kind = announceKind)
    (h : slot.remote = ∅) : HoldsGreatest (receiveAll slot anns) anns := by
  intro device
  rw [remote_receiveAll h]
  rcases hn : newestOf (heardOf device anns) with _ | ⟨counter, headCid⟩
  · intro a ha hdev
    have hmem : (a.counter, a.headSha256) ∈ heardOf device anns :=
      mem_heardOf.mpr ⟨a, ha, hkind a ha, hdev, rfl⟩
    rw [newestOf_eq_none_iff.mp hn] at hmem
    simp at hmem
  · obtain ⟨hmem, hmax⟩ := newestOf_greatest hn
    obtain ⟨a, ha, -, hdev, hx⟩ := mem_heardOf.mp hmem
    refine ⟨⟨a, ha, hdev, congrArg Prod.fst hx, congrArg Prod.snd hx⟩, ?_⟩
    intro b hb hdev'
    exact hmax (b.counter, b.headSha256) (mem_heardOf.mpr ⟨b, hb, hkind b hb, hdev', rfl⟩)

/-- **When order does not matter**: exactly when no counter of a device stands for two heads. -/
lemma orderIndependent_iff (hkind : ∀ a, Broadcast a → a.kind = announceKind) :
    OrderIndependent Broadcast ↔ Consistent Broadcast := by
  constructor
  · intro h a b ha hb hdev hcounter
    have hheard : ∀ x y : Announcement, x.kind = announceKind → y.kind = announceKind →
        x.deviceId = a.deviceId → y.deviceId = a.deviceId → heardOf a.deviceId [x, y] =
          [(x.counter, x.headSha256), (y.counter, y.headSha256)] := by
      intro x y hx hy hxd hyd
      simp [heardOf, hx, hy, hxd, hyd]
    have hremote := h [a, b] [b, a] (by simp [ha, hb]) (by simp [or_comm]) .default rfl
    have hheld : (receiveAll .default [a, b]).remote[a.deviceId]? =
        (receiveAll .default [b, a]).remote[a.deviceId]? := by
      rw [hremote]
    rw [remote_receiveAll rfl, remote_receiveAll rfl,
      hheard a b (hkind a ha) (hkind b hb) rfl hdev.symm,
      hheard b a (hkind b hb) (hkind a ha) hdev.symm rfl] at hheld
    obtain ⟨hab, hba⟩ := newestOf_swap (x := (a.counter, a.headSha256))
      (y := (b.counter, b.headSha256)) hcounter
    rw [hab, hba] at hheld
    exact congrArg Prod.snd (Option.some.inj hheld)
  · intro h anns anns' hanns hsame slot hslot
    apply Std.ExtTreeMap.ext_getElem?
    intro device
    rw [remote_receiveAll hslot, remote_receiveAll hslot]
    apply newestOf_congr
    · intro x hx y hy hxy
      obtain ⟨a, ha, -, hadev, rfl⟩ := mem_heardOf.mp hx
      obtain ⟨b, hb, -, hbdev, rfl⟩ := mem_heardOf.mp hy
      rw [h a b (hanns a ha) (hanns b hb) (hadev.trans hbdev.symm) hxy, show a.counter = b.counter
        from hxy]
    · intro x
      rw [mem_heardOf, mem_heardOf]
      simp only [hsame]

end

/-! ## What a backup announces -/

/-- What became of the announcement of a head with this counter: there is none; or it was recorded
and not sent; or it was recorded and sent. -/
inductive AnnounceOutcome {α : Type} (deviceId : String) (counter : Nat) (env : MeshEnv)
    (node node' : MeshNode) : Except SyncError α → Prop where
  | silent {e : SyncError} : node'.lastAnnounce = node.lastAnnounce → node'.sent = node.sent →
      AnnounceOutcome deviceId counter env node node' (.error e)
  | unsent {ann : Announcement} {e : SyncError} : ann.kind = announceKind →
      ann.deviceId = deviceId → ann.counter = counter → env.unsent ≠ none →
      node'.lastAnnounce = some ann → node'.sent = node.sent →
      AnnounceOutcome deviceId counter env node node' (.error e)
  | sent {ann : Announcement} {x : α} : ann.kind = announceKind → ann.deviceId = deviceId →
      ann.counter = counter → env.unsent = none → node'.lastAnnounce = some ann →
      node'.sent = node.sent ++ [ann] → AnnounceOutcome deviceId counter env node node' (.ok x)

section

variable {P : Platform} {key : Keypair} {deviceId : String} {env : MeshEnv} {node node' : MeshNode}
  {headBytes : Bytes} {head : DeviceHead} {headCid : String} {ann : Announcement}

/-- The announcement says what the head's own bytes say. -/
lemma announcementFor_eq_ok (h : announcementFor P key.verifyingKey env deviceId node headCid =
      .ok ann) (hblob : node.blobs[headCid]? = some headBytes)
    (hsha : P.crypto.sha256Hex headBytes = headCid)
    (hdec : P.codec.decodeHead headBytes = .ok head) :
    ann.kind = announceKind ∧ ann.deviceId = deviceId ∧ ann.counter = head.counter ∧
      ann.headSha256 = headCid := by
  unfold announcementFor at h
  split at h
  · simp at h
  · rw [MeshNode.reach_get hblob hsha] at h
    obtain ⟨bytes, hget, h⟩ := bind_eq_ok.mp h
    obtain rfl := Except.ok.inj hget
    obtain ⟨head', hver, h⟩ := bind_eq_ok.mp h
    obtain ⟨headBlake3, -, h⟩ := bind_eq_ok.mp h
    obtain ⟨fsRootBlake3, -, h⟩ := bind_eq_ok.mp h
    obtain rfl := Except.ok.inj h
    have hhead := DeviceHead.decodeVerified_eq_ok hver
    rw [hdec] at hhead
    obtain rfl := Except.ok.inj hhead
    exact ⟨rfl, rfl, rfl, rfl⟩

/-- **What the commit loop announces**: at most one head, the one it commits. -/
lemma commitRounds_announces {needed : List (String × Nat)} {taken : Bool}
    {r : Except SyncError Nat} {retriesLeft n : Nat}
    (hdec : P.codec.decodeHead headBytes = .ok head)
    (hblob : node.blobs[P.crypto.sha256Hex headBytes]? = some headBytes)
    (h : commitRounds (meshTransport P key deviceId env) ⟨deviceId, needed,
      P.crypto.sha256Hex headBytes, headBytes.length⟩ retriesLeft n node = (node', taken, r)) :
    AnnounceOutcome deviceId head.counter env node node' r := by
  have hown : ∀ (n : Nat) (proposal : Proposal) (node : MeshNode),
      (meshTransport P key deviceId env).propose n ⟨deviceId, needed, P.crypto.sha256Hex headBytes,
        headBytes.length⟩ node = .ok proposal →
      proposal.heads[deviceId]? = some (P.crypto.sha256Hex headBytes) := by
    intro n proposal node hprop
    rw [(proposeCommit_seq_heads hprop).2]
    simp
  -- nothing is announced by the rounds that are refused
  let Ready : MeshNode → Prop := fun node₁ =>
    node₁.blobs[P.crypto.sha256Hex headBytes]? = some headBytes ∧
      node₁.lastAnnounce = node.lastAnnounce ∧ node₁.sent = node.sent
  have hstale : ∀ n proposal s s' taken attempted, Ready s →
      (meshTransport P key deviceId env).propose n ⟨deviceId, needed, P.crypto.sha256Hex headBytes,
        headBytes.length⟩ s = .ok proposal →
      (meshTransport P key deviceId env).commit n proposal s =
        (s', taken, .error (.staleSeq attempted)) → Ready s' := by
    rintro n proposal s s' taken attempted ⟨hblob, hlast, hsent⟩ hprop hc
    obtain ⟨hblobs, ⟨-, -, hlast', hsent'⟩ | ⟨-, ⟨e, -, -, hlast', hsent'⟩ |
        ⟨ann, -, -, ⟨text, -, he, -⟩ | ⟨-, he, -⟩⟩⟩⟩ :=
      meshTransport_commit_cases (hown n proposal s hprop) hc
    · exact ⟨hblobs ▸ hblob, hlast'.trans hlast, hsent'.trans hsent⟩
    · exact ⟨hblobs ▸ hblob, hlast'.trans hlast, hsent'.trans hsent⟩
    · simp at he
    · simp at he
  obtain ⟨m, node₁, ⟨hblob₁, hlast₁, hsent₁⟩, ⟨e, he⟩ |
      ⟨proposal, node₂, taken', r', hprop, hc, hrounds⟩⟩ :=
    commitRounds_last Ready hstale ⟨hblob, rfl, rfl⟩ retriesLeft n
  · rw [h] at he
    obtain ⟨rfl, rfl, rfl⟩ : _ ∧ _ ∧ _ := by simpa using he
    exact .silent hlast₁ hsent₁
  · rw [h] at hrounds
    obtain ⟨rfl, rfl, rfl⟩ : _ ∧ _ ∧ _ := by simpa using hrounds
    rcases meshTransport_commit_cases (hown m proposal node₁ hprop) hc with
      ⟨-, ⟨-, rfl, hlast, hsent⟩ | ⟨-, ⟨e, -, rfl, hlast, hsent⟩ | ⟨ann, hann, hlast, hout⟩⟩⟩
    · exact .silent (hlast.trans hlast₁) (hsent.trans hsent₁)
    · exact .silent (hlast.trans hlast₁) (hsent.trans hsent₁)
    · obtain ⟨hkind, hdev, hcounter, -⟩ := announcementFor_eq_ok hann hblob₁ rfl hdec
      obtain ⟨text, htext, rfl, hsent⟩ | ⟨hsend, rfl, hsent⟩ := hout
      · exact .unsent hkind hdev hcounter (by simp [htext]) hlast (hsent.trans hsent₁)
      · exact .sent hkind hdev hcounter hsend hlast (by rw [hsent, hsent₁])

/-- Neither a push nor a put announces anything. -/
lemma meshTransport_push_announces (P : Platform) (key : Keypair) (deviceId : String)
    (env : MeshEnv) (d : Device) (node : MeshNode) :
    ((meshTransport P key deviceId env).push d node).2.1.lastAnnounce = node.lastAnnounce ∧
      ((meshTransport P key deviceId env).push d node).2.1.sent = node.sent :=
  ⟨rfl, rfl⟩

lemma meshTransport_put_announces {cid : String} {bytes : Bytes} {r : Except SyncError Unit}
    (h : (meshTransport P key deviceId env).put cid bytes node = (node', r)) :
    node'.lastAnnounce = node.lastAnnounce ∧ node'.sent = node.sent := by
  dsimp only [meshTransport] at h
  unfold MeshNode.put at h
  split at h
  · obtain ⟨rfl, -⟩ := Prod.mk.inj h
    exact ⟨rfl, rfl⟩
  · obtain ⟨rfl, -⟩ := Prod.mk.inj h
    exact ⟨rfl, rfl⟩
  · obtain ⟨rfl, -⟩ := Prod.mk.inj h
    exact ⟨rfl, rfl⟩

/-- **What a backup announces**: nothing, and the counter stands; or a head with the next counter,
which is recorded, and sent unless the broadcast fails. -/
lemma meshBackup_announces (hP : P.Lawful) {writes : StateWrites} {d d' : Device}
    {accepted : Option (String × DeviceHead)} {r : Except SyncError FrontierReport}
    (h : backupOn (meshTransport P key deviceId env) P writes deviceId d node =
      (d', node', accepted, r)) :
    (node'.lastAnnounce = node.lastAnnounce ∧ node'.sent = node.sent ∧ d'.counter = d.counter) ∨
      ∃ ann : Announcement, ann.kind = announceKind ∧ ann.deviceId = deviceId ∧
        ann.counter = d.counter + 1 ∧ node'.lastAnnounce = some ann ∧
        ((env.unsent ≠ none ∧ node'.sent = node.sent) ∨
          (node'.sent = node.sent ++ [ann] ∧
            ((∃ e, writes = .counterFailed e) ∨ d'.counter = d.counter + 1))) := by
  have hkeep : (meshTransport P key deviceId env).KeepsChain := meshTransport_keepsChain
  have hk := (hkeep d node).1
  have hpushed := meshTransport_push_announces P key deviceId env d node
  obtain ⟨node₁, r₁, hpush, -, hput⟩ | ⟨d₁, node₁, node₂, pushed, headBytes, taken, answer, hpush,
    hencode, hput, hloop, -, hrec⟩ := backupOn_cases h
  · rw [hpush] at hk hpushed
    refine Or.inl ⟨?_, ?_, hk⟩
    · obtain rfl | ⟨cid, bytes, e, hput⟩ := hput
      · exact hpushed.1
      · exact (meshTransport_put_announces hput).1.trans hpushed.1
    · obtain rfl | ⟨cid, bytes, e, hput⟩ := hput
      · exact hpushed.2
      · exact (meshTransport_put_announces hput).2.trans hpushed.2
  rw [hpush] at hk hpushed
  obtain ⟨hlast₂, hsent₂⟩ := meshTransport_put_announces hput
  have hblob : node₂.blobs[P.crypto.sha256Hex headBytes]? = some headBytes := by
    obtain ⟨-, rfl⟩ := MeshNode.put_eq_ok hput
    simp
  have hdec := hP.decode_encodeHead _ _ (mapError_eq_ok.mp hencode)
  have hout := commitRounds_announces hdec hblob hloop
  have hcounter : (DeviceHead.newSigned deviceId (d₁.counter + 1) pushed.fsManifestCid d₁.lastHead
      d₁.base key).counter = d.counter + 1 := congrArg (· + 1) hk
  cases hout with
  | silent hlast hsent =>
      obtain ⟨-, -, rfl⟩ | ⟨seq, he, -⟩ := hrec
      · exact Or.inl ⟨hlast.trans (hlast₂.trans hpushed.1), hsent.trans (hsent₂.trans hpushed.2), hk⟩
      · simp at he
  | unsent hkind hdev hann hunsent hlast hsent =>
      exact Or.inr ⟨_, hkind, hdev, hann.trans hcounter, hlast,
        Or.inl ⟨hunsent, hsent.trans (hsent₂.trans hpushed.2)⟩⟩
  | @sent ann _ hkind hdev hann hunsent hlast hsent =>
      have hsent' : node'.sent = node.sent ++ [ann] := by
        rw [hsent, hsent₂, hpushed.2]
      obtain ⟨e, he, -⟩ | ⟨seq, -, hleave⟩ := hrec
      · simp at he
      refine Or.inr ⟨_, hkind, hdev, hann.trans hcounter, hlast, Or.inr ⟨hsent', ?_⟩⟩
      obtain ⟨-, rfl⟩ | ⟨-, rfl⟩ | ⟨he, -⟩ := hleave
      · exact Or.inr (congrArg (· + 1) hk)
      · exact Or.inr (congrArg (· + 1) hk)
      · exact Or.inl he

end

/-! ## Devices on the mesh -/

/-- The devices of the account with their peers, by device id. -/
structure MeshWorld where
  devices : String → Device × MeshNode

/-- What happens on the mesh. -/
inductive MeshAction where
  /-- The directory and the rest of a device's state change in any way. -/
  | edit (device : String) (d : Device)
  | backup (device : String) (env : MeshEnv) (writes : StateWrites)
  /-- A peer hears an announcement. -/
  | hear (device : String) (ann : Announcement)
  /-- A neighbor comes up; the broadcast may fail. -/
  | neighborUp (device : String) (failed : Bool)
  /-- A peer is spawned anew, on a store that holds these blobs. -/
  | restart (device : String) (blobs : ByCid Bytes)

namespace MeshWorld

/-- No peer has announced anything. -/
def init (devices : String → Device) (blobs : String → ByCid Bytes) : MeshWorld where
  devices device := (devices device, ⟨blobs device, .default, none, []⟩)

/-- A device after a step of it. -/
def after (w : MeshWorld) (device : String) (d : Device) (node : MeshNode) : MeshWorld where
  devices := Function.update w.devices device (d, node)

/-- One step. -/
def step (P : Platform) (key : Keypair) (w : MeshWorld) : MeshAction → MeshWorld
  | .edit device d' =>
      let (d, node) := w.devices device
      w.after device { d' with counter := d.counter, lastHead := d.lastHead } node
  | .backup device env writes =>
      let (d, node) := w.devices device
      match backupOn (meshTransport P key device env) P writes device d node with
      | (d, node, _, _) => w.after device d node
  | .hear device ann =>
      let (d, node) := w.devices device
      w.after device d { node with slot := receive node.slot ann }
  | .neighborUp device failed =>
      let (d, node) := w.devices device
      if failed then w
      else w.after device d { node with sent := node.sent ++ node.lastAnnounce.toList }
  | .restart device blobs =>
      let (d, node) := w.devices device
      w.after device d ⟨blobs, .default, none, node.sent⟩

/-- The announcement has been broadcast. -/
def Broadcast (w : MeshWorld) (a : Announcement) : Prop :=
  ∃ device, a ∈ (w.devices device).2.sent

end MeshWorld

/-- The broadcast of a backup goes out, and its counter is written. -/
def BroadcastCounted (_ : MeshWorld) : MeshAction → Prop
  | .backup _ env writes => env.unsent = none ∧ ∀ e, writes ≠ .counterFailed e
  | _ => True

/-- What a device has announced, sent or not, is of its own. -/
structure Announces (device : String) (node : MeshNode) : Prop where
  recorded : ∀ a, node.lastAnnounce = some a → a.kind = announceKind ∧ a.deviceId = device
  sent : ∀ a ∈ node.sent, a.kind = announceKind ∧ a.deviceId = device

/-- What a device has announced it has sent, under counters it has written, and one head under
each. -/
structure Counted (d : Device) (node : MeshNode) : Prop where
  recorded : ∀ a, node.lastAnnounce = some a → a ∈ node.sent
  le : ∀ a ∈ node.sent, a.counter ≤ d.counter
  distinct : ∀ a ∈ node.sent, ∀ b ∈ node.sent, a.counter = b.counter → a.headSha256 = b.headSha256

section

variable {P : Platform} {key : Keypair} {w : MeshWorld} {a : MeshAction} {device : String}
  {node node' : MeshNode} {d d' : Device} {env : MeshEnv} {writes : StateWrites}
  {accepted : Option (String × DeviceHead)} {r : Except SyncError FrontierReport}

/-- A property of every device is kept by a step that keeps it at the device that moves. -/
lemma MeshWorld.after_forall {p : String → Device → MeshNode → Prop}
    (h : ∀ device, p device (w.devices device).1 (w.devices device).2) (hd : p device d node) :
    ∀ device', p device' ((w.after device d node).devices device').1
      ((w.after device d node).devices device').2 := by
  intro device'
  by_cases heq : device' = device
  · subst heq
    simpa [MeshWorld.after] using hd
  · simpa [MeshWorld.after, heq] using h device'

lemma Announces.backup (hP : P.Lawful) (hn : Announces device node)
    (h : backupOn (meshTransport P key device env) P writes device d node =
      (d', node', accepted, r)) : Announces device node' := by
  obtain ⟨hlast, hsent, -⟩ | ⟨ann, hkind, hdev, -, hlast, hcases⟩ := meshBackup_announces hP h
  · exact ⟨hlast ▸ hn.recorded, hsent ▸ hn.sent⟩
  · refine ⟨?_, ?_⟩
    · intro a ha
      rw [hlast] at ha
      obtain rfl := Option.some.inj ha
      exact ⟨hkind, hdev⟩
    · obtain ⟨-, hsent⟩ | ⟨hsent, -⟩ := hcases
      · exact hsent ▸ hn.sent
      · rw [hsent]
        intro a ha
        rcases List.mem_append.mp ha with ha | ha
        · exact hn.sent a ha
        · rw [List.mem_singleton.mp ha]
          exact ⟨hkind, hdev⟩

lemma Counted.backup (hP : P.Lawful) (hn : Counted d node) (hsends : env.unsent = none)
    (hwrites : ∀ e, writes ≠ .counterFailed e)
    (h : backupOn (meshTransport P key device env) P writes device d node =
      (d', node', accepted, r)) : Counted d' node' := by
  obtain ⟨hlast, hsent, hcounter⟩ | ⟨ann, -, -, hann, hlast, ⟨hunsent, -⟩ | ⟨hsent, hrec⟩⟩ :=
    meshBackup_announces hP h
  · refine ⟨?_, ?_, ?_⟩
    · rw [hlast, hsent]
      exact hn.recorded
    · rw [hsent, hcounter]
      exact hn.le
    · rw [hsent]
      exact hn.distinct
  · exact absurd hsends hunsent
  · have hcounter : d'.counter = d.counter + 1 := by
      obtain ⟨e, he⟩ | hcounter := hrec
      · exact absurd he (hwrites e)
      · exact hcounter
    -- the new counter is above every other
    have hlt : ∀ b ∈ node.sent, b.counter < ann.counter := by
      intro b hb
      have := hn.le b hb
      omega
    refine ⟨?_, ?_, ?_⟩
    · intro b hb
      rw [hlast] at hb
      obtain rfl := Option.some.inj hb
      simp [hsent]
    · rw [hsent]
      intro b hb
      rcases List.mem_append.mp hb with hb | hb
      · have := hn.le b hb
        omega
      · rw [List.mem_singleton.mp hb]
        omega
    · rw [hsent]
      intro b hb c hc hbc
      rcases List.mem_append.mp hb with hb | hb
      · rcases List.mem_append.mp hc with hc | hc
        · exact hn.distinct b hb c hc hbc
        · have := hlt b hb
          rw [List.mem_singleton.mp hc] at hbc
          omega
      · rcases List.mem_append.mp hc with hc | hc
        · have := hlt c hc
          rw [List.mem_singleton.mp hb] at hbc
          omega
        · rw [List.mem_singleton.mp hb, List.mem_singleton.mp hc]

lemma announces_step (hP : P.Lawful)
    (h : ∀ device, Announces device (w.devices device).2) :
    ∀ device, Announces device ((w.step P key a).devices device).2 := by
  rcases a with ⟨device, d'⟩ | ⟨device, env, writes⟩ | ⟨device, ann⟩ | ⟨device, failed⟩ |
    ⟨device, blobs⟩
  · exact MeshWorld.after_forall (p := fun device _ node => Announces device node) h (h device)
  · rcases hb : backupOn (meshTransport P key device env) P writes device (w.devices device).1
      (w.devices device).2 with ⟨d', node', accepted, r⟩
    have hstep : w.step P key (.backup device env writes) = w.after device d' node' := by
      simp only [MeshWorld.step, hb]
    rw [hstep]
    exact MeshWorld.after_forall (p := fun device _ node => Announces device node) h
      ((h device).backup hP hb)
  · exact MeshWorld.after_forall (p := fun device _ node => Announces device node) h
      ⟨(h device).recorded, (h device).sent⟩
  · dsimp only [MeshWorld.step]
    split
    · exact h
    · refine MeshWorld.after_forall (p := fun device _ node => Announces device node) h
        ⟨(h device).recorded, ?_⟩
      intro a ha
      rcases List.mem_append.mp ha with ha | ha
      · exact (h device).sent a ha
      · exact (h device).recorded a (Option.mem_toList.mp ha)
  · exact MeshWorld.after_forall (p := fun device _ node => Announces device node) h
      ⟨by simp, (h device).sent⟩

lemma counted_step (hP : P.Lawful) (ha : BroadcastCounted w a)
    (h : ∀ device, Counted (w.devices device).1 (w.devices device).2) :
    ∀ device, Counted ((w.step P key a).devices device).1 ((w.step P key a).devices device).2 := by
  rcases a with ⟨device, d'⟩ | ⟨device, env, writes⟩ | ⟨device, ann⟩ | ⟨device, failed⟩ |
    ⟨device, blobs⟩
  · exact MeshWorld.after_forall (p := fun _ d node => Counted d node) h
      ⟨(h device).recorded, (h device).le, (h device).distinct⟩
  · rcases hb : backupOn (meshTransport P key device env) P writes device (w.devices device).1
      (w.devices device).2 with ⟨d', node', accepted, r⟩
    have hstep : w.step P key (.backup device env writes) = w.after device d' node' := by
      simp only [MeshWorld.step, hb]
    rw [hstep]
    exact MeshWorld.after_forall (p := fun _ d node => Counted d node) h
      ((h device).backup hP ha.1 ha.2 hb)
  · exact MeshWorld.after_forall (p := fun _ d node => Counted d node) h
      ⟨(h device).recorded, (h device).le, (h device).distinct⟩
  · dsimp only [MeshWorld.step]
    split
    · exact h
    · -- what is announced again was sent before
      have hmem : ∀ b, b ∈ (w.devices device).2.sent ++ (w.devices device).2.lastAnnounce.toList ↔
          b ∈ (w.devices device).2.sent := by
        intro b
        rw [List.mem_append, Option.mem_toList]
        constructor
        · rintro (hb | hb)
          · exact hb
          · exact (h device).recorded b hb
        · exact Or.inl
      refine MeshWorld.after_forall (p := fun _ d node => Counted d node) h ⟨?_, ?_, ?_⟩
      · intro b hb
        exact (hmem b).mpr ((h device).recorded b hb)
      · intro b hb
        exact (h device).le b ((hmem b).mp hb)
      · intro b hb c hc
        exact (h device).distinct b ((hmem b).mp hb) c ((hmem c).mp hc)
  · exact MeshWorld.after_forall (p := fun _ d node => Counted d node) h
      ⟨by simp, (h device).le, (h device).distinct⟩

/-- **The merge of the mesh.**  In every run of the mesh, what a peer holds after hearing broadcast
announcements is, for each device, a head announced with a greatest counter.  It is independent of
order and repetition exactly when no device has broadcast two heads under one counter; and that is
so in every run whose broadcasts go out and whose counters are written. -/
theorem frontier_merge_order_independent (hP : P.Lawful) (key : Keypair) (devices : String → Device)
    (blobs : String → ByCid Bytes) (acts : List MeshAction) :
    let w := run (MeshWorld.step P key) (MeshWorld.init devices blobs) acts
    (∀ anns : List Announcement, (∀ a ∈ anns, w.Broadcast a) → ∀ slot : SlotState,
      slot.remote = ∅ → HoldsGreatest (receiveAll slot anns) anns) ∧
    (OrderIndependent w.Broadcast ↔ Consistent w.Broadcast) ∧
    (Along (MeshWorld.step P key) BroadcastCounted (MeshWorld.init devices blobs) acts →
      OrderIndependent w.Broadcast) := by
  intro w
  have hannounces : ∀ device, Announces device (w.devices device).2 :=
    run_invariant' (I := fun w : MeshWorld => ∀ device, Announces device (w.devices device).2)
      (fun _ _ h => announces_step hP h) (fun _ => ⟨by simp [MeshWorld.init], by simp [MeshWorld.init]⟩)
  have hkind : ∀ a, w.Broadcast a → a.kind = announceKind := by
    rintro a ⟨device, ha⟩
    exact ((hannounces device).sent a ha).1
  refine ⟨?_, orderIndependent_iff hkind, ?_⟩
  · intro anns hanns slot hslot
    exact holdsGreatest_receiveAll (fun a ha => hkind a (hanns a ha)) hslot
  · intro halong
    rw [orderIndependent_iff hkind]
    have hcounted : ∀ device, Counted (w.devices device).1 (w.devices device).2 :=
      run_invariant (I := fun w : MeshWorld =>
          ∀ device, Counted (w.devices device).1 (w.devices device).2)
        (fun _ _ h ha => counted_step hP ha h)
        (fun _ => ⟨by simp [MeshWorld.init], by simp [MeshWorld.init], by simp [MeshWorld.init]⟩) halong
    rintro a b ⟨device, ha⟩ ⟨device', hb⟩ hdev hcounter
    rw [((hannounces device).sent a ha).2, ((hannounces device').sent b hb).2] at hdev
    subst hdev
    exact (hcounted device).distinct a ha b hb hcounter

end

/-! ### A head announced late

`dev-b` backs up `f`, and the broadcast fails.  A neighbor comes up and hears of it after all.
`dev-b` removes `f`, adds `g` and backs up again. -/

namespace Gossip

open TwoDevices (treeFCid treeGCid headB1Cid fresh)

/-- The announcement of the tree of `f`. -/
def announcedF : Announcement where
  kind := announceKind
  deviceId := "dev-b"
  counter := 1
  headSha256 := headB1Cid
  headBlake3 := "79f4fdf3a0b593a90593d805faff325bcb2224f6cac90877f7bd2227437ef529"
  fsRootSha256 := treeFCid
  fsRootBlake3 := "2cfea7ba31bf08a79794e7473a3992212b0e502462c19b8056337134b07eb543"
  addr := "dev-b"

/-- The announcement of the tree of `g`, when it is the first head the device remembers. -/
def announcedG : Announcement where
  kind := announceKind
  deviceId := "dev-b"
  counter := 1
  headSha256 := headG1Cid
  headBlake3 := "bda394c951a02a1d29056352b5a8eed968cc300a4202c8d2d78b7f9f6f7132d0"
  fsRootSha256 := treeGCid
  fsRootBlake3 := "65d37c390236f7eab270f627e30be3c344e5c8d40bb34b0551b31272d9575358"
  addr := "dev-b"

/-- The announcement of the tree of `g`, when it is the second. -/
def announcedG2 : Announcement :=
  { announcedG with
    counter := 2
    headSha256 := headG2Cid
    headBlake3 := "170a472ac1c15fea4b1feba61a8afb01563a7419812763c8589facf3104615de" }

/-- A backup, a neighbor that comes up, and a backup with `g` in the place of `f`. -/
def meshScript (unsent : Option String) : List MeshAction :=
  [.backup "dev-b" (env holdsF.files unsent) .done, .neighborUp "dev-b" false,
    .edit "dev-b" holdsG, .backup "dev-b" (env holdsG.files none) .done]

def meshInit : MeshWorld := .init (fun device => if device = "dev-b" then holdsF else fresh []) fun _ => ∅

/-- The mesh after the script. -/
def meshAfter (unsent : Option String) : MeshWorld :=
  run (MeshWorld.step platform account) meshInit (meshScript unsent)

/-- What `dev-b` has sent: with both broadcasts going out, and with the first one failing. -/
lemma sent_announcements :
    ((meshAfter none).devices "dev-b").2.sent = [announcedF, announcedF, announcedG2] ∧
      ((meshAfter (some broadcastError)).devices "dev-b").2.sent = [announcedF, announcedG] := by
  decide +kernel

lemma broadcastCounted : Along (MeshWorld.step platform account) BroadcastCounted meshInit
    (meshScript none) :=
  ⟨⟨rfl, by simp⟩, trivial, trivial, ⟨rfl, by simp⟩, trivial⟩

end Gossip

/-- With both broadcasts going out, the order in which the two heads of `dev-b` are heard does not
matter. -/
theorem frontier_merge_order_independent_announced :
    OrderIndependent (Gossip.meshAfter none).Broadcast ∧
      ((Gossip.meshAfter none).devices "dev-b").2.sent =
        [Gossip.announcedF, Gossip.announcedF, Gossip.announcedG2] :=
  ⟨(frontier_merge_order_independent Gossip.lawful Gossip.account
      (fun device => if device = "dev-b" then Gossip.holdsF else TwoDevices.fresh []) (fun _ => ∅)
      (Gossip.meshScript none)).2.2 Gossip.broadcastCounted, Gossip.sent_announcements.1⟩

/-- **A head announced late**: both heads of `dev-b` carry counter 1, and a peer keeps the one it
hears first. -/
theorem reannounced_head_depends_on_order :
    ((Gossip.meshAfter (some Gossip.broadcastError)).devices "dev-b").2.sent =
        [Gossip.announcedF, Gossip.announcedG] ∧
      ((receiveAll .default [Gossip.announcedF, Gossip.announcedG]).remote["dev-b"]? =
          some (1, TwoDevices.headB1Cid) ∧
        (receiveAll .default [Gossip.announcedG, Gossip.announcedF]).remote["dev-b"]? =
          some (1, Gossip.headG1Cid)) ∧
      ¬ OrderIndependent (Gossip.meshAfter (some Gossip.broadcastError)).Broadcast := by
  have hremote : (receiveAll .default [Gossip.announcedF, Gossip.announcedG]).remote["dev-b"]? =
        some (1, TwoDevices.headB1Cid) ∧
      (receiveAll .default [Gossip.announcedG, Gossip.announcedF]).remote["dev-b"]? =
        some (1, Gossip.headG1Cid) := by
    decide +kernel
  have hsent := Gossip.sent_announcements.2
  refine ⟨hsent, hremote, ?_⟩
  intro h
  have hall : ∀ a ∈ [Gossip.announcedF, Gossip.announcedG],
      (Gossip.meshAfter (some Gossip.broadcastError)).Broadcast a := by
    intro a ha
    refine ⟨"dev-b", ?_⟩
    rw [hsent]
    exact ha
  have heq := h _ [Gossip.announcedG, Gossip.announcedF] hall (by simp [or_comm]) .default rfl
  rw [heq] at hremote
  obtain ⟨hfirst, hsecond⟩ := hremote
  rw [hfirst] at hsecond
  simp [TwoDevices.headB1Cid, Gossip.headG1Cid] at hsecond

end Ciss
