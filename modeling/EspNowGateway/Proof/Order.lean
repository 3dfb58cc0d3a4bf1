import EspNowGateway.Lib.LossyFifo
import EspNowGateway.Proof.Ownership
import Mathlib.Data.List.Nodup

/-!
# What comes out of the pipeline

Seen from outside, the pipeline is a lossy first-in first-out channel of frame
numbers: `xQueueSend(s_espnow_queue, …)` accepts a number, `esp_mqtt_client_publish`
delivers one, and two places lose one. `chan` reads that channel off the state and
`chan_step` shows every step of the code to be one step of it or none.

What the numbers stand for is the business of `Decoded`: each message on its way
spells the two strings of the frame it is numbered after. It needs frames that are
whole `struct_message`s with both fields terminated, and `Owns`, by which the
buffer an event carries still holds its own frame when the task comes to read it.
-/

namespace EspNowGateway.Proof

open EspNowGateway CObject CHeap TransitionSystem

/-! ## Frames and the strings they spell -/

/-- A whole `struct_message` whose two fields are both terminated. -/
def IsStruct (f : Frame) : Prop :=
  f.bytes.length = 128 ∧ 0 ∈ f.bytes.take 64 ∧ 0 ∈ (f.bytes.drop 64).take 64

/-- The C strings of the two fields. -/
def frameStrings (f : Frame) : List UInt8 × List UInt8 :=
  (cstr (f.bytes.take 64), cstr ((f.bytes.drop 64).take 64))

/-- Every frame that gets past the callback's check is a terminated struct. -/
def StructCall (l : Label) : Prop := ∀ c f, l = .call c → c.frame = some f → IsStruct f

/-- A message that publishes the strings of the frame of its number. -/
def MessageOk (received : List Frame) (m : Tagged MqttT) : Prop :=
  MqttT.topicType m.val = TopicType.publish.code
    ∧ ∃ f, received[m.seq]? = some f ∧ MqttT.published m.val = some (frameStrings f)

/-- **One frame's decoding**: the two copies carry the two strings over. -/
theorem fillMqttBuf_of_struct {f : Frame} (hf : IsStruct f) (b : MqttT) {d : ExampleEspnowData}
    (hd : d.bytes = f.bytes) :
    ∃ m, fillMqttBuf b d = some m ∧ MqttT.topicType m = TopicType.publish.code
      ∧ MqttT.published m = some (frameStrings f) := by
  obtain ⟨_, htop, hpay⟩ := hf
  have htopic : ExampleEspnowData.topic d = f.bytes.take 64 := by
    rw [← hd]; rfl
  have hpayload : ExampleEspnowData.payload d = (f.bytes.drop 64).take 64 := by
    rw [← hd]; rfl
  rw [← htopic] at htop
  rw [← hpayload] at hpay
  obtain ⟨m, hm, htype, hpub⟩ := fillMqttBuf_spec b hpay
  refine ⟨m, hm, htype, ?_⟩
  rw [hpub, sentTopic, if_pos htop, htopic, hpayload]
  rfl

/-! ## What is on its way -/

/-- The frame whose bytes are in `recv_data` and not yet in a message. -/
def taskCopied : TaskPc → List Nat
  | .freeing e => [e.seq]
  | .giving n | .filling n => [n]
  | _ => []

/-- The message `espnow_task` is about to offer. -/
def taskMessages : TaskPc → List (Tagged MqttT)
  | .offering m => [m]
  | _ => []

/-- The message `mqtt_pub` has taken. -/
def pubMessages : PubPc → List (Tagged MqttT)
  | .examining m | .publishing m => [m]
  | _ => []

/-- Every message between `espnow_task` and the client. -/
def messagesHeld (w : World) : List (Tagged MqttT) :=
  pubMessages w.pub ++ (w.xQueuePublish ++ taskMessages w.task)

/-- Everything on its way spells the frame it is numbered after. -/
structure Decoded (w : World) : Prop where
  /-- Only terminated structs were received. -/
  frames : ∀ f ∈ w.received, IsStruct f
  /-- `recv_data` holds the frame in hand, from its first byte to its last. -/
  copied : ∀ n ∈ taskCopied w.task, ∃ f, w.received[n]? = some f ∧ w.recvData.bytes = f.bytes
  messages : ∀ m ∈ messagesHeld w, MessageOk w.received m
  published : ∀ p ∈ w.published, ∃ f, w.received[p.seq]? = some f ∧ p.val = frameStrings f
  /-- No copy of `espnow_task` left its object. -/
  taskSound : w.task ≠ .fault ∧ ∀ e, w.task ≠ .copyFault e
  /-- `mqtt_pub` is still in its loop. -/
  pubSound : w.pub ≠ .fault ∧ w.pub ≠ .stopped

theorem decoded_boot (d : ExampleEspnowData) (b : MqttT) : Decoded (World.boot d b) where
  frames := fun _ hf => absurd hf List.not_mem_nil
  copied := fun _ hn => absurd hn List.not_mem_nil
  messages := fun _ hm => absurd hm List.not_mem_nil
  published := fun _ hp => absurd hp List.not_mem_nil
  taskSound := ⟨TaskPc.noConfusion, fun _ => TaskPc.noConfusion⟩
  pubSound := ⟨PubPc.noConfusion, PubPc.noConfusion⟩

/-- The message in the hands of `mqtt_pub` publishes its frame. -/
theorem Decoded.inHand {w : World} (h : Decoded w) {m : Tagged MqttT}
    (hp : pubMessages w.pub = [m]) : MessageOk w.received m :=
  h.messages m (List.mem_append_left _ (by rw [hp]; exact List.mem_singleton_self m))

/-- With a frame's bytes in `recv_data`, neither `strcpy` leaves its object. -/
theorem Decoded.fill {w : World} (h : Decoded w) {n : Nat} (ht : w.task = .filling n) :
    ∃ m, fillMqttBuf w.mqttBuf w.recvData = some m ∧ MessageOk w.received ⟨n, m⟩ := by
  obtain ⟨f, hseq, hbytes⟩ := h.copied n (by rw [ht]; exact List.mem_singleton_self n)
  have hstruct : IsStruct f := h.frames f (List.mem_of_getElem? hseq)
  obtain ⟨m, hm, htype, hpub⟩ := fillMqttBuf_of_struct hstruct w.mqttBuf hbytes
  exact ⟨m, hm, htype, f, hseq, hpub⟩

/-- A step that brings in no frame, no copy and no message. -/
theorem Decoded.transfer {w w' : World} (h : Decoded w) (hrec : w'.received = w.received)
    (hdata : w'.recvData = w.recvData)
    (hcopied : ∀ n ∈ taskCopied w'.task, n ∈ taskCopied w.task)
    (hmsg : ∀ m ∈ messagesHeld w', m ∈ messagesHeld w) (hpub : w'.published = w.published)
    (htask : w'.task ≠ .fault ∧ ∀ e, w'.task ≠ .copyFault e)
    (hps : w'.pub ≠ .fault ∧ w'.pub ≠ .stopped) : Decoded w' where
  frames := by rw [hrec]; exact h.frames
  copied := by rw [hrec, hdata]; exact fun n hn => h.copied n (hcopied n hn)
  messages := by rw [hrec]; exact fun m hm => h.messages m (hmsg m hm)
  published := by rw [hrec, hpub]; exact h.published
  taskSound := htask
  pubSound := hps

/-- A step of `espnow_task` that brings in no copy and no message. -/
theorem Decoded.task {w w' : World} (h : Decoded w) (hrec : w'.received = w.received)
    (hdata : w'.recvData = w.recvData) (hpub : w'.pub = w.pub)
    (hpublished : w'.published = w.published)
    (hcopied : ∀ n ∈ taskCopied w'.task, n ∈ taskCopied w.task)
    (hmsg : ∀ m ∈ w'.xQueuePublish ++ taskMessages w'.task,
      m ∈ w.xQueuePublish ++ taskMessages w.task)
    (htask : w'.task ≠ .fault ∧ ∀ e, w'.task ≠ .copyFault e) : Decoded w' :=
  h.transfer hrec hdata hcopied
    (fun m hm => by
      rw [messagesHeld, hpub] at hm
      exact List.mem_append.mpr ((List.mem_append.mp hm).imp_right (hmsg m)))
    hpublished htask (by rw [hpub]; exact h.pubSound)

/-- A step of `mqtt_pub` that brings in no message. -/
theorem Decoded.publisher {w w' : World} (h : Decoded w) (hrec : w'.received = w.received)
    (hdata : w'.recvData = w.recvData) (htask : w'.task = w.task)
    (hpublished : w'.published = w.published)
    (hmsg : ∀ m ∈ pubMessages w'.pub ++ w'.xQueuePublish, m ∈ pubMessages w.pub ++ w.xQueuePublish)
    (hps : w'.pub ≠ .fault ∧ w'.pub ≠ .stopped) : Decoded w' :=
  h.transfer hrec hdata (fun n hn => by rw [← htask]; exact hn)
    (fun m hm => by
      rw [messagesHeld, htask, ← List.append_assoc] at hm
      rw [messagesHeld, ← List.append_assoc]
      exact List.mem_append.mpr ((List.mem_append.mp hm).imp_left (hmsg m)))
    hpublished (by rw [htask]; exact h.taskSound) hps

/-- A step of the callback that brings in no frame. -/
theorem Decoded.callback {w w' : World} (h : Decoded w) (hrec : w'.received = w.received)
    (hdata : w'.recvData = w.recvData) (htask : w'.task = w.task) (hpub : w'.pub = w.pub)
    (hqueue : w'.xQueuePublish = w.xQueuePublish) (hpublished : w'.published = w.published) :
    Decoded w' :=
  h.transfer hrec hdata (fun n hn => by rw [← htask]; exact hn)
    (fun m hm => by rwa [messagesHeld, hpub, hqueue, htask] at hm) hpublished
    (by rw [htask]; exact h.taskSound) (by rw [hpub]; exact h.pubSound)

/-- A new frame is numbered behind all others. -/
theorem Decoded.accept {w w' : World} (h : Decoded w) {f : Frame} (hf : IsStruct f)
    (hrec : w'.received = w.received ++ [f]) (hdata : w'.recvData = w.recvData)
    (htask : w'.task = w.task) (hpub : w'.pub = w.pub)
    (hqueue : w'.xQueuePublish = w.xQueuePublish) (hpublished : w'.published = w.published) :
    Decoded w' := by
  have hpre : w.received <+: w'.received := by rw [hrec]; exact List.prefix_append ..
  refine ⟨?_, ?_, ?_, ?_, by rw [htask]; exact h.taskSound, by rw [hpub]; exact h.pubSound⟩
  · intro g hg
    rw [hrec, List.mem_append, List.mem_singleton] at hg
    rcases hg with hg | rfl
    · exact h.frames g hg
    · exact hf
  · intro n hn
    rw [htask] at hn
    obtain ⟨g, hseq, hbytes⟩ := h.copied n hn
    exact ⟨g, received_keep hpre hseq, by rw [hdata]; exact hbytes⟩
  · intro m hm
    rw [messagesHeld, hpub, hqueue, htask] at hm
    obtain ⟨htype, g, hseq, hg⟩ := h.messages m hm
    exact ⟨htype, g, received_keep hpre hseq, hg⟩
  · intro p hp
    rw [hpublished] at hp
    obtain ⟨g, hseq, hg⟩ := h.published p hp
    exact ⟨g, received_keep hpre hseq, hg⟩

/-- **Every step keeps the decoding.** -/
theorem decoded_step {w w' : World} {l : Label} (ho : Owns w) (h : Decoded w) (hl : StructCall l)
    (hs : Step w l w') : Decoded w' := by
  cases hs with
  | accepted c f hcb hf => exact h.accept (hl c f rfl hf) rfl rfl rfl rfl rfl rfl
  | taskSkip e rest ht hq hid =>
      exact h.task rfl rfl rfl rfl (fun _ hn => hn) (fun _ hm => hm) h.taskSound
  | taskReceive e rest ht hq hid =>
      exact h.task rfl rfl rfl rfl (fun _ hn => absurd hn List.not_mem_nil)
        (fun m hm => by rw [ht]; exact hm) ⟨TaskPc.noConfusion, fun _ => TaskPc.noConfusion⟩
  | taskTake e ht hsem =>
      exact h.task rfl rfl rfl rfl (fun _ hn => absurd hn List.not_mem_nil)
        (fun m hm => by rw [ht]; exact hm) ⟨TaskPc.noConfusion, fun _ => TaskPc.noConfusion⟩
  | taskCopy e m d ht hget hc =>
      obtain ⟨f, hseq, hf, htake⟩ := ho.task_frame ht
      have hstruct : IsStruct f := h.frames f (List.mem_of_getElem? hseq)
      -- a whole struct leaves nothing of what `recv_data` held
      rw [Option.some.inj (hget.symm.trans hf), htake] at hc
      refine ⟨h.frames, ?_, fun m hm => h.messages m (by rw [messagesHeld, ht]; exact hm),
        h.published, ⟨TaskPc.noConfusion, fun _ => TaskPc.noConfusion⟩, h.pubSound⟩
      intro n hn
      rw [List.mem_singleton.mp hn]
      exact ⟨f, hseq, copyRecvData_whole hc hstruct.1⟩
  | taskCopyFault e ht hc =>
      obtain ⟨f, hseq, hf, htake⟩ := ho.task_frame ht
      have hstruct : IsStruct f := h.frames f (List.mem_of_getElem? hseq)
      have hnone := hc f.bytes hf
      rw [htake, copyRecvData_eq_none_iff, hstruct.1] at hnone
      omega
  | taskFree e ht =>
      exact h.task rfl rfl rfl rfl (fun n hn => by rw [ht]; exact hn)
        (fun m hm => by rw [ht]; exact hm) ⟨TaskPc.noConfusion, fun _ => TaskPc.noConfusion⟩
  | taskGive n ht =>
      exact h.task rfl rfl rfl rfl (fun n hn => by rw [ht]; exact hn)
        (fun m hm => by rw [ht]; exact hm) ⟨TaskPc.noConfusion, fun _ => TaskPc.noConfusion⟩
  | taskFill n m ht hfill =>
      obtain ⟨m', hm', hok⟩ := h.fill ht
      rw [hfill] at hm'
      cases hm'
      refine ⟨h.frames, fun _ hn => absurd hn List.not_mem_nil, ?_, h.published,
        ⟨TaskPc.noConfusion, fun _ => TaskPc.noConfusion⟩, h.pubSound⟩
      intro m' hm'
      have hmem : m' ∈ messagesHeld w ∨ m' = ⟨n, m⟩ := by
        simp only [messagesHeld, taskMessages, List.mem_append, List.mem_singleton] at hm' ⊢
        tauto
      rcases hmem with hold | rfl
      · exact h.messages m' hold
      · exact hok
  | taskFillFault n ht hfill =>
      obtain ⟨m', hm', _⟩ := h.fill ht
      rw [hfill] at hm'
      cases hm'
  | taskOffer m ht hlt =>
      refine h.task rfl rfl rfl rfl (fun _ hn => absurd hn List.not_mem_nil) (fun m' hm' => ?_)
        ⟨TaskPc.noConfusion, fun _ => TaskPc.noConfusion⟩
      have hsent : m' ∈ (w.xQueuePublish ++ [m]) ++ [] := hm'
      rw [List.append_nil] at hsent
      rw [ht]
      exact hsent
  | taskDrop m ht hlt =>
      refine h.task rfl rfl rfl rfl (fun _ hn => absurd hn List.not_mem_nil) (fun m' hm' => ?_)
        ⟨TaskPc.noConfusion, fun _ => TaskPc.noConfusion⟩
      have hkept : m' ∈ w.xQueuePublish ++ [] := hm'
      rw [List.append_nil] at hkept
      exact List.mem_append_left _ hkept
  | pubConnect hp hbit =>
      exact h.publisher rfl rfl rfl rfl (fun m hm => by rw [hp]; exact hm)
        ⟨PubPc.noConfusion, PubPc.noConfusion⟩
  | pubReceive m rest hp hq =>
      exact h.publisher rfl rfl rfl rfl (fun m' hm' => by rw [hp, hq]; exact hm')
        ⟨PubPc.noConfusion, PubPc.noConfusion⟩
  | pubExamine m hp hbit htype =>
      exact h.publisher rfl rfl rfl rfl (fun m' hm' => by rw [hp]; exact hm')
        ⟨PubPc.noConfusion, PubPc.noConfusion⟩
  | pubStop m hp hbit htype =>
      obtain ⟨hpub, _⟩ := h.inHand (by rw [hp]; rfl)
      rw [hpub] at htype
      cases htype
  | pubIgnore m hp hbit htype hstop =>
      obtain ⟨hpub, _⟩ := h.inHand (by rw [hp]; rfl)
      exact absurd hpub htype
  | pubDrop m hp hbit =>
      exact h.publisher rfl rfl rfl rfl
        (fun m' hm' => by rw [hp]; exact List.mem_cons_of_mem m hm')
        ⟨PubPc.noConfusion, PubPc.noConfusion⟩
  | pubPublish m s hp hsent =>
      obtain ⟨_, f, hseq, hf⟩ := h.inHand (by rw [hp]; rfl)
      refine ⟨h.frames, h.copied, fun m' hm' => h.messages m' (by
          rw [messagesHeld, hp]; exact List.mem_cons_of_mem m hm'), ?_, h.taskSound,
        ⟨PubPc.noConfusion, PubPc.noConfusion⟩⟩
      intro p hmem
      rcases List.mem_append.mp hmem with hold | hnew
      · exact h.published p hold
      · rw [List.mem_singleton.mp hnew]
        exact ⟨f, hseq, Option.some.inj (hsent.symm.trans hf)⟩
  | pubFault m hp hsent =>
      obtain ⟨_, f, hseq, hf⟩ := h.inHand (by rw [hp]; rfl)
      rw [hsent] at hf
      cases hf
  | _ => exact h.callback rfl rfl rfl rfl rfl rfl

theorem decoded_reachable {ls : List Label} {w : World}
    (hr : Runs (fun _ l => StructCall l) ls w) : Decoded w :=
  runs_invariant decoded_boot
    (fun _ _ _ _ hr hd hl hs => decoded_step (owns_reachable hr) hd hl hs) hr

/-! ## The numbers -/

/-- The frame the callback has numbered and not yet sent. -/
def cbSeqs : CbPc → List Nat
  | .taking f | .allocating f | .copying f _ => [f.seq]
  | .sending e => [e.seq]
  | _ => []

/-- Frames are queued in the order they were received in, none twice. -/
def Numbered (w : World) : Prop :=
  (w.queued ++ cbSeqs w.cb).Sublist (List.range w.received.length)

/-- A callback that gives its frame up, or merely moves on with it. -/
theorem Numbered.transfer {w w' : World} (h : Numbered w) (hq : w'.queued = w.queued)
    (hcb : (cbSeqs w'.cb).Sublist (cbSeqs w.cb)) (hrec : w'.received = w.received) :
    Numbered w' := by
  rw [Numbered, hq, hrec]
  exact (hcb.append_left _).trans h

theorem numbered_step {w w' : World} {l : Label} (h : Numbered w) (hs : Step w l w') :
    Numbered w' := by
  cases hs with
  | accepted c f hcb hf =>
      show (w.queued ++ [w.received.length]).Sublist (List.range (w.received ++ [f]).length)
      rw [List.length_append, List.length_singleton, List.range_succ]
      rw [Numbered, hcb] at h
      exact ((List.sublist_append_left _ _).trans h).append (List.Sublist.refl _)
  | cbTake f hcb hsem => exact h.transfer rfl (by rw [hcb]; exact .refl _) rfl
  | cbMalloc f p junk hp hcb hlen => exact h.transfer rfl (by rw [hcb]; exact .refl _) rfl
  | cbMallocFail f hcb => exact h.transfer rfl (List.nil_sublist _) rfl
  | cbCopy f p heap hcb hcopy => exact h.transfer rfl (by rw [hcb]; exact .refl _) rfl
  | cbCopyFault f p hcb hcopy => exact h.transfer rfl (List.nil_sublist _) rfl
  | cbSend e hcb hlt =>
      rw [Numbered, hcb] at h
      show ((w.queued ++ [e.seq]) ++ []).Sublist _
      rw [List.append_nil]
      exact h
  | cbSendFail e hcb => exact h.transfer rfl (List.nil_sublist _) rfl
  | cbFree e hcb => exact h.transfer rfl (List.nil_sublist _) rfl
  | cbGive hcb => exact h.transfer rfl (List.nil_sublist _) rfl
  | _ => exact h

theorem numbered_reachable {C : World → Label → Prop} {ls : List Label} {w : World}
    (hr : Runs C ls w) : Numbered w :=
  runs_invariant (fun _ _ => List.Sublist.refl _)
    (fun _ _ _ _ _ h _ hs => numbered_step h hs) hr

/-! ## The pipeline as a channel -/

/-- The frame `espnow_task` is working on. -/
def taskSeqs : TaskPc → List Nat
  | .taking e | .copying e | .freeing e | .copyFault e => [e.seq]
  | .giving n | .filling n => [n]
  | .offering m => [m.seq]
  | _ => []

/-- The frames between `s_espnow_queue` and the client, the next to be published first. -/
def inPipeline (w : World) : List Nat :=
  (pubMessages w.pub).map (·.seq) ++ (w.xQueuePublish.map (·.seq)
    ++ (taskSeqs w.task ++ w.sEspnowQueue.map (·.seq)))

/-- The pipeline's ledgers. -/
def chan (w : World) : LossyFifo.Chan Nat where
  accepted := w.queued
  pending := inPipeline w
  delivered := w.published.map (·.seq)
  dropped := w.dropped.map (·.1)

/-- **Every step is one step of the channel or none.** -/
theorem chan_step {w w' : World} {l : Label} (ho : Owns w) (h : Decoded w) (hs : Step w l w') :
    chan w' = chan w ∨ LossyFifo.Step (chan w) (chan w') := by
  cases hs with
  | cbSend e hcb hlt =>
      refine Or.inr ?_
      have := LossyFifo.Step.send (chan w) e.seq
      simpa [chan, inPipeline] using this
  | taskSkip e rest ht hq hid =>
      obtain ⟨f, _, _, hev⟩ := ho.events e (by rw [eventsHeld, hq]; simp)
      rw [hev] at hid; cases hid
  -- from queue to task to queue a frame changes hands and keeps its place
  | taskReceive e rest ht hq hid => exact Or.inl (by simp [chan, inPipeline, taskSeqs, ht, hq])
  | taskTake e ht hsem => exact Or.inl (by simp [chan, inPipeline, taskSeqs, ht])
  | taskCopy e m d ht hget hc => exact Or.inl (by simp [chan, inPipeline, taskSeqs, ht])
  | taskCopyFault e ht hc => exact Or.inl (by simp [chan, inPipeline, taskSeqs, ht])
  | taskFree e ht => exact Or.inl (by simp [chan, inPipeline, taskSeqs, World.free, ht])
  | taskGive n ht => exact Or.inl (by simp [chan, inPipeline, taskSeqs, ht])
  | taskFill n m ht hfill => exact Or.inl (by simp [chan, inPipeline, taskSeqs, ht])
  | taskFillFault n ht hfill =>
      obtain ⟨m', hm', _⟩ := h.fill ht
      rw [hfill] at hm'
      cases hm'
  | taskOffer m ht hlt => exact Or.inl (by simp [chan, inPipeline, taskSeqs, ht])
  | taskDrop m ht hlt =>
      -- the message in hand is lost from the middle of what is on its way
      refine Or.inr ?_
      have hp : (chan w).pending = ((pubMessages w.pub).map (·.seq) ++ w.xQueuePublish.map (·.seq))
          ++ m.seq :: w.sEspnowQueue.map (·.seq) := by
        simp [chan, inPipeline, taskSeqs, ht]
      have := LossyFifo.Step.drop (chan w) m.seq _ _ hp
      simpa [chan, inPipeline, taskSeqs] using this
  | pubConnect hp hbit => exact Or.inl (by simp [chan, inPipeline, pubMessages, hp])
  | pubReceive m rest hp hq => exact Or.inl (by simp [chan, inPipeline, pubMessages, hp, hq])
  | pubExamine m hp hbit htype => exact Or.inl (by simp [chan, inPipeline, pubMessages, hp])
  | pubStop m hp hbit htype =>
      obtain ⟨hpub, _⟩ := h.inHand (by rw [hp]; rfl)
      rw [hpub] at htype
      cases htype
  | pubIgnore m hp hbit htype hstop =>
      obtain ⟨hpub, _⟩ := h.inHand (by rw [hp]; rfl)
      exact absurd hpub htype
  | pubDrop m hp hbit =>
      refine Or.inr ?_
      have hpend : (chan w).pending = [] ++ m.seq :: (w.xQueuePublish.map (·.seq)
          ++ (taskSeqs w.task ++ w.sEspnowQueue.map (·.seq))) := by
        simp [chan, inPipeline, pubMessages, hp]
      have := LossyFifo.Step.drop (chan w) m.seq _ _ hpend
      simpa [chan, inPipeline, pubMessages] using this
  | pubPublish m s hp hsent =>
      refine Or.inr ?_
      have hpend : (chan w).pending = m.seq :: (w.xQueuePublish.map (·.seq)
          ++ (taskSeqs w.task ++ w.sEspnowQueue.map (·.seq))) := by
        simp [chan, inPipeline, pubMessages, hp]
      have := LossyFifo.Step.deliver (chan w) m.seq _ hpend
      simpa [chan, inPipeline, pubMessages] using this
  | pubFault m hp hsent =>
      obtain ⟨_, f, hseq, hf⟩ := h.inHand (by rw [hp]; rfl)
      rw [hsent] at hf
      cases hf
  | _ => exact Or.inl rfl

theorem chan_reachable {ls : List Label} {w : World} (hr : Runs (fun _ l => StructCall l) ls w) :
    LossyFifo.Inv (chan w) := by
  obtain ⟨d, b, hm, hrun⟩ := hr
  have hsim : Relation.ReflTransGen LossyFifo.Step (chan (World.boot d b)) (chan w) :=
    run_simulation (I := fun w => Owns w ∧ Decoded w) ⟨owns_boot d b, decoded_boot d b⟩
      (fun _ _ _ hI hl hs => ⟨owns_step hI.1 (step_cases hs),
        decoded_step hI.1 hI.2 hl (step_cases hs)⟩)
      (fun _ _ _ hI _ hs => chan_step hI.1 hI.2 (step_cases hs)) hm hrun
  exact LossyFifo.inv_reachable hsim

/-! ## Where frames are lost -/

/-- Frame `n` is lost by the step `l` from `w`. -/
inductive LosesAt (w : World) (n : Nat) : Label → DropPoint → Prop where
  | publishQueueFull (m : Tagged MqttT) : w.task = .offering m → m.seq = n →
      w.xQueuePublish.length = queueLength → LosesAt w n .taskOffer .publishQueueFull
  | disconnected (m : Tagged MqttT) : w.pub = .examining m → m.seq = n →
      w.mqttConnectedBit = false → LosesAt w n .pubExamine .disconnected

/-- Some step of the run to `w` along `ls` loses frame `n` at `point`. -/
def LostIn (C : World → Label → Prop) (ls : List Label) (w : World) (n : Nat)
    (point : DropPoint) : Prop :=
  ∃ before l after w₁, ls = before ++ l :: after ∧ Runs C before w₁
    ∧ run step w₁ (l :: after) = some w ∧ LosesAt w₁ n l point

/-- The record of losses grows by what is lost and by nothing else. -/
theorem dropped_step {w w' : World} {l : Label} (hb : w.xQueuePublish.length ≤ queueLength)
    (hs : Step w l w') :
    w'.dropped = w.dropped
      ∨ ∃ n point, w'.dropped = w.dropped ++ [(n, point)] ∧ LosesAt w n l point := by
  cases hs with
  | taskDrop m ht hlt =>
      exact Or.inr ⟨m.seq, .publishQueueFull, rfl, .publishQueueFull m ht rfl (by omega)⟩
  | pubDrop m hp hbit => exact Or.inr ⟨m.seq, .disconnected, rfl, .disconnected m hp rfl hbit⟩
  | _ => exact Or.inl rfl

theorem dropped_keeps {w w' : World} {l : Label} {x : Nat × DropPoint} (hs : Step w l w')
    (hx : x ∈ w.dropped) : x ∈ w'.dropped := by
  cases hs with
  | taskDrop m ht hlt => exact List.mem_append_left _ hx
  | pubDrop m hp hbit => exact List.mem_append_left _ hx
  | _ => exact hx

/-- What a step loses is on record after it. -/
theorem LosesAt.recorded {w w' : World} {n : Nat} {l : Label} {point : DropPoint}
    (h : LosesAt w n l point) (hs : Step w l w') : (n, point) ∈ w'.dropped := by
  cases h with
  | publishQueueFull m ht hn hfull =>
      cases hs with
      | taskOffer m' ht' hlt => omega
      | taskDrop m' ht' hlt =>
          rw [ht] at ht'; cases ht'
          exact List.mem_append_right _ (by rw [hn]; exact List.mem_singleton_self _)
  | disconnected m hp hn hbit =>
      cases hs with
      | pubExamine m' hp' hbit' htype => rw [hbit] at hbit'; cases hbit'
      | pubStop m' hp' hbit' htype => rw [hbit] at hbit'; cases hbit'
      | pubIgnore m' hp' hbit' htype hstop => rw [hbit] at hbit'; cases hbit'
      | pubDrop m' hp' hbit' =>
          rw [hp] at hp'; cases hp'
          exact List.mem_append_right _ (by rw [hn]; exact List.mem_singleton_self _)

/-- **The record of losses is exact**: it lists the losses of the run's own steps. -/
theorem lostIn_iff {C : World → Label → Prop} {ls : List Label} {w : World} {n : Nat}
    {point : DropPoint} (hr : Runs C ls w) :
    LostIn C ls w n point ↔ (n, point) ∈ w.dropped := by
  constructor
  · intro hlost
    rcases hlost with ⟨before, l, after, w₁, rfl, hpre, hrun, hlose⟩
    obtain ⟨w₂, hs, hrest⟩ := run_cons_eq_some.mp hrun
    have hin : (n, point) ∈ w₂.dropped := hlose.recorded (step_cases hs)
    exact run_invariant (I := fun w => (n, point) ∈ w.dropped) hin
      (fun _ _ _ hx _ hs => dropped_keeps (step_cases hs) hx)
      (stepsMeet_true _) hrest
  · intro hin
    obtain ⟨d, b, hm, hrun⟩ := hr
    obtain ⟨before, l, after, w₁, w₂, rfl, hbefore, hs, hnot, hin₂⟩ :=
      run_exists_flip (P := fun w => (n, point) ∈ w.dropped) List.not_mem_nil hrun hin
    have hpre : Runs C before w₁ := ⟨d, b, (stepsMeet_append.mp hm).1, hbefore⟩
    refine ⟨before, l, after, w₁, rfl, hpre, ?_, ?_⟩
    · obtain ⟨w₁', h₁, hrest⟩ := run_append_eq_some.mp hrun
      rw [hbefore] at h₁; cases h₁
      exact hrest
    · rcases dropped_step (queues_bounded hpre).2 (step_cases hs) with
        hsame | ⟨n', point', hgrow, hlose⟩
      · rw [hsame] at hin₂; exact absurd hin₂ hnot
      · rw [hgrow, List.mem_append, List.mem_singleton] at hin₂
        rcases hin₂ with hold | hnew
        · exact absurd hold hnot
        · cases hnew; exact hlose

/-! ## Integrity and order -/

/-- What is published is what the frames of the same numbers spell. -/
theorem published_sublist {w : World} (h : Decoded w)
    (hseq : (w.published.map (·.seq)).Sublist (List.range w.received.length)) :
    (w.published.map (·.val)).Sublist (w.received.map frameStrings) := by
  let spell (n : Nat) : List UInt8 × List UInt8 := (w.received[n]?).elim ([], []) frameStrings
  have hpub : w.published.map (·.val) = (w.published.map (·.seq)).map spell := by
    rw [List.map_map]
    refine List.map_congr_left fun p hp => ?_
    obtain ⟨f, hf, hval⟩ := h.published p hp
    simp [spell, hf, hval]
  have hrec : w.received.map frameStrings = (List.range w.received.length).map spell := by
    refine List.ext_getElem (by simp) fun i h₁ h₂ => ?_
    rw [List.length_map] at h₁
    simp [spell, List.getElem?_eq_getElem h₁]
  rw [hpub, hrec]
  exact hseq.map spell

/--
**Integrity and order of the pipeline.**

In every run over terminated structs: the published pairs are a subsequence of
what the received frames spell; their frame numbers increase, so no frame is
published twice; each pair is what its own frame spells; and a frame that was
queued and has left the pipeline unpublished was lost by exactly one of the two
kinds of loss, at a step of this run.
-/
theorem pipeline_integrity {ls : List Label} {w : World}
    (hr : Runs (fun _ l => StructCall l) ls w) :
    (w.published.map (·.val)).Sublist (w.received.map frameStrings)
      ∧ (w.published.map (·.seq)).Pairwise (· < ·)
      ∧ (∀ p ∈ w.published, ∃ f, w.received[p.seq]? = some f ∧ p.val = frameStrings f)
      ∧ ∀ n ∈ w.queued, n ∉ inPipeline w → n ∉ w.published.map (·.seq) →
        ∃! point, LostIn (fun _ l => StructCall l) ls w n point := by
  have hdec : Decoded w := decoded_reachable hr
  have hchan : LossyFifo.Inv (chan w) := chan_reachable hr
  have hqueued : w.queued.Sublist (List.range w.received.length) :=
    (List.sublist_append_left _ _).trans (numbered_reachable hr)
  have hseq : (w.published.map (·.seq)).Sublist (List.range w.received.length) :=
    ((List.sublist_append_left _ _).trans hchan.order).trans hqueued
  refine ⟨published_sublist hdec hseq, List.pairwise_lt_range.sublist hseq, hdec.published, ?_⟩
  intro n hn hout hunpub
  have hdropped : n ∈ w.dropped.map (·.1) :=
    (hchan.delivered_or_dropped hn hout).resolve_left hunpub
  obtain ⟨⟨n', point⟩, hmem, heq⟩ := List.mem_map.mp hdropped
  cases heq
  refine ⟨point, (lostIn_iff hr).mpr hmem, ?_⟩
  intro point' hlost
  have hnodup : (w.dropped.map (·.1)).Nodup :=
    (hchan.nodup (List.nodup_range.sublist hqueued)).2.1
  have := List.inj_on_of_nodup_map hnodup ((lostIn_iff hr).mp hlost) hmem rfl
  cases this
  rfl

/-- An invocation with topic `"t"` and payload `"p"`, and a stray byte behind each. -/
def structCall : RecvCall :=
  { macAddr := some (Buf.fill 6 0)
    len := 128
    data := some ⟨[116, 0, 7] ++ List.replicate 61 0 ++ [112, 0, 7] ++ List.replicate 61 0,
      by simp⟩ }

/-- From `xQueueReceive` to the offer, for one frame. -/
def forward : List Label :=
  [.taskReceive, .taskTake, .taskCopy, .taskFree, .taskGive, .taskFill, .taskOffer]

theorem isStruct_structCall {f : Frame} (h : structCall.frame = some f) : IsStruct f := by
  cases h
  exact ⟨rfl, by decide, by decide⟩

/-- One struct, as far as the queue. -/
def deliverStruct : List Label :=
  [.call structCall, .cbTake, .cbMalloc 0 (List.replicate 128 0), .cbCopy, .cbSend, .cbGive]

/-- Eleven structs, each handled before the next comes. -/
def elevenStructs : List Label :=
  (List.replicate 11 (deliverStruct ++ forward)).flatten

theorem mem_elevenStructs {l : Label} (h : l ∈ elevenStructs) : l ∈ deliverStruct ∨ l ∈ forward := by
  obtain ⟨ls, hls, hl⟩ := List.mem_flatten.mp h
  rw [List.eq_of_mem_replicate hls] at hl
  exact List.mem_append.mp hl

/--
Of eleven structs the last finds the queue full. The first is published, and the second is
examined while the broker is away.
-/
def loseTwo : List Label :=
  elevenStructs ++ [.mqttConnected, .pubConnect, .pubReceive, .pubExamine, .pubPublish,
    .mqttDisconnected, .pubReceive, .pubExamine]

theorem loseTwo_calls {c : RecvCall} (h : Label.call c ∈ loseTwo) : c = structCall := by
  rcases List.mem_append.mp h with hmem | hmem
  · rcases mem_elevenStructs hmem with hmem | hmem
    · simpa [deliverStruct] using hmem
    · simp [forward] at hmem
  · simp at hmem

set_option maxRecDepth 100000 in
/-- **One frame is published as it was sent, and two are lost, at one place each.** -/
theorem pipeline_integrity_loseTwo :
    ∃ w, Runs (fun _ l => StructCall l) loseTwo w
      ∧ w.published = [⟨0, [116], [112]⟩] ∧ w.queued = List.range 11
      ∧ (w.published.map (·.val)).Sublist (w.received.map frameStrings)
      ∧ (∃! point, LostIn (fun _ l => StructCall l) loseTwo w 1 point)
      ∧ LostIn (fun _ l => StructCall l) loseTwo w 1 .disconnected
      ∧ (∃! point, LostIn (fun _ l => StructCall l) loseTwo w 10 point)
      ∧ LostIn (fun _ l => StructCall l) loseTwo w 10 .publishQueueFull := by
  obtain ⟨w, hrun, hpub, hqueued, hpipe, hdropped⟩ : ∃ w,
      run step (World.boot (Buf.fill 128 0) (Buf.fill 140 0)) loseTwo = some w
        ∧ w.published = [⟨0, [116], [112]⟩] ∧ w.queued = List.range 11
        ∧ inPipeline w = [2, 3, 4, 5, 6, 7, 8, 9]
        ∧ w.dropped = [(10, .publishQueueFull), (1, .disconnected)] :=
    ⟨_, rfl, rfl, rfl, rfl, rfl⟩
  have hr : Runs (fun _ l => StructCall l) loseTwo w := by
    refine ⟨_, _, stepsMeet_of_forall fun l hl c f hc hf => ?_, hrun⟩
    subst hc
    obtain rfl := loseTwo_calls hl
    exact isStruct_structCall hf
  obtain ⟨hsub, _, _, hlost⟩ := pipeline_integrity hr
  refine ⟨w, hr, hpub, hqueued, hsub, ?_, (lostIn_iff hr).mpr ?_, ?_, (lostIn_iff hr).mpr ?_⟩
  · exact hlost 1 (by rw [hqueued]; decide) (by rw [hpipe]; decide) (by rw [hpub]; decide)
  · rw [hdropped]; decide
  · exact hlost 10 (by rw [hqueued]; decide) (by rw [hpipe]; decide) (by rw [hpub]; decide)
  · rw [hdropped]; decide

end EspNowGateway.Proof
