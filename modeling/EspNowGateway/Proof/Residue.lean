import EspNowGateway.Lib.StaleBuffer
import EspNowGateway.Proof.Ownership

/-!
# What earlier frames leave in a message

`recv_data` is a local of `espnow_task` that no iteration clears, so a frame
shorter than the struct is decoded together with the tail of earlier ones. Which
frames are safe from that is a two-run question, and `StaleBuffer` answers it: the
struct is a buffer read up to the first NUL of its payload field.

`task_follows_loop` says why it is enough to look at the loop alone. However the
three processes interleave, what `espnow_task` offers for a frame is what the loop
computes from some history of earlier frames and that frame.
-/

namespace EspNowGateway.Proof

open EspNowGateway CObject CHeap StaleBuffer TransitionSystem

/-! ## The pipeline runs the loop -/

/-- Frame `n` has been copied over what the loop had left behind. -/
def Copied (w : World) (s : TaskLocals) (n : Nat) : Prop :=
  ∃ f, w.received[n]? = some f ∧ copyRecvData s.recvData f.bytes = some w.recvData
    ∧ s.mqttBuf = w.mqttBuf

/-- How the locals of the pipeline's task stand to those of a loop that has come to `s`. -/
def Stands (w : World) (s : TaskLocals) : TaskPc → Prop
  | .receiving | .taking _ | .copying _ => s = ⟨w.recvData, w.mqttBuf⟩
  | .freeing e => Copied w s e.seq
  | .giving n | .filling n => Copied w s n
  | .offering m => ∃ f, w.received[m.seq]? = some f
      ∧ handleFrame s f.bytes = some ⟨w.recvData, w.mqttBuf⟩ ∧ m.val = w.mqttBuf
  | .copyFault _ | .fault => True

/-- The task is in the loop's next iteration after some history of received frames. -/
def Following (w : World) : Prop :=
  ∃ (s₀ s : TaskLocals) (h : List Frame), (∀ g ∈ h, g ∈ w.received)
    ∧ handleFrames s₀ (h.map (·.bytes)) = some s ∧ Stands w s w.task

theorem following_boot (d : ExampleEspnowData) (b : MqttT) : Following (World.boot d b) :=
  ⟨⟨d, b⟩, ⟨d, b⟩, [], fun _ hg => absurd hg List.not_mem_nil, rfl, rfl⟩

theorem handleFrames_snoc {s₀ s t : TaskLocals} {h : List (List UInt8)} {bytes : List UInt8}
    (hs : handleFrames s₀ h = some s) (ht : handleFrame s bytes = some t) :
    handleFrames s₀ (h ++ [bytes]) = some t := by
  rw [handleFrames, List.foldlM_append]
  rw [handleFrames] at hs
  rw [hs]
  show (List.foldlM handleFrame s [bytes] : Option TaskLocals) = some t
  rw [List.foldlM_cons, ht]
  rfl

/-- A step of the callback or of `mqtt_pub`, which may bring in a frame. -/
theorem Following.elsewhere {w w' : World} (h : Following w) (htask : w'.task = w.task)
    (hdata : w'.recvData = w.recvData) (hbuf : w'.mqttBuf = w.mqttBuf)
    (hrec : w.received <+: w'.received) : Following w' := by
  have hcopied : ∀ {s : TaskLocals} {n : Nat}, Copied w s n → Copied w' s n := by
    intro s n hc
    obtain ⟨f, hseq, hcopy, hb⟩ := hc
    exact ⟨f, received_keep hrec hseq, by rw [hdata]; exact hcopy, by rw [hbuf]; exact hb⟩
  obtain ⟨s₀, s, hist, hsub, hs, hstands⟩ := h
  refine ⟨s₀, s, hist, fun g hg => hrec.subset (hsub g hg), hs, ?_⟩
  rw [htask]
  cases ht : w.task with
  | freeing e => rw [ht] at hstands; exact hcopied hstands
  | giving n => rw [ht] at hstands; exact hcopied hstands
  | filling n => rw [ht] at hstands; exact hcopied hstands
  | offering m =>
      rw [ht] at hstands
      obtain ⟨f, hseq, hf, hm⟩ := hstands
      exact ⟨f, received_keep hrec hseq, by rw [hdata, hbuf]; exact hf, by rw [hbuf]; exact hm⟩
  | copyFault e => trivial
  | fault => trivial
  | receiving => rw [ht] at hstands; rw [Stands, hdata, hbuf]; exact hstands
  | taking e => rw [ht] at hstands; rw [Stands, hdata, hbuf]; exact hstands
  | copying e => rw [ht] at hstands; rw [Stands, hdata, hbuf]; exact hstands

/-- The task is through with a frame: the loop's history has grown by it. -/
theorem Following.handled {w w' : World} {s₀ s : TaskLocals} {hist : List Frame} {f : Frame}
    {n : Nat} (hsub : ∀ g ∈ hist, g ∈ w.received)
    (hrun : handleFrames s₀ (hist.map (·.bytes)) = some s) (hseq : w.received[n]? = some f)
    (hf : handleFrame s f.bytes = some ⟨w'.recvData, w'.mqttBuf⟩)
    (hrec : w'.received = w.received) (htask : w'.task = .receiving) : Following w' := by
  refine ⟨s₀, ⟨w'.recvData, w'.mqttBuf⟩, hist ++ [f], ?_, ?_, by rw [htask]; rfl⟩
  · intro g hg
    rw [hrec]
    rcases List.mem_append.mp hg with hg | hg
    · exact hsub g hg
    · rw [List.mem_singleton.mp hg]; exact List.mem_of_getElem? hseq
  · rw [List.map_append]; exact handleFrames_snoc hrun hf

theorem following_step {w w' : World} {l : Label} (ho : Owns w) (h : Following w)
    (hs : Step w l w') : Following w' := by
  have hstart := h
  obtain ⟨s₀, s, hist, hsub, hrun, hstands⟩ := h
  cases hs with
  | accepted c f hcb hf => exact hstart.elsewhere rfl rfl rfl (List.prefix_append _ _)
  | taskReceive e rest ht hq hid =>
      rw [ht] at hstands
      exact ⟨s₀, s, hist, hsub, hrun, hstands⟩
  | taskTake e ht hsem =>
      rw [ht] at hstands
      exact ⟨s₀, s, hist, hsub, hrun, hstands⟩
  | taskCopy e m d ht hget hc =>
      rw [ht] at hstands
      cases hstands
      obtain ⟨f, hseq, hf, htake⟩ := ho.task_frame ht
      rw [Option.some.inj (hget.symm.trans hf), htake] at hc
      exact ⟨s₀, _, hist, hsub, hrun, f, hseq, hc, rfl⟩
  | taskCopyFault e ht hc => exact ⟨s₀, s, hist, hsub, hrun, trivial⟩
  | taskFree e ht =>
      rw [ht] at hstands
      exact ⟨s₀, s, hist, hsub, hrun, hstands⟩
  | taskGive n ht =>
      rw [ht] at hstands
      exact ⟨s₀, s, hist, hsub, hrun, hstands⟩
  | taskFill n m ht hfill =>
      rw [ht] at hstands
      obtain ⟨f, hseq, hcopy, hbuf⟩ := hstands
      refine ⟨s₀, s, hist, hsub, hrun, f, hseq, ?_, rfl⟩
      simp [handleFrame, hcopy, hbuf, hfill]
  | taskFillFault n ht hfill => exact ⟨s₀, s, hist, hsub, hrun, trivial⟩
  | taskOffer m ht hlt =>
      rw [ht] at hstands
      obtain ⟨f, hseq, hf, hm⟩ := hstands
      exact Following.handled hsub hrun hseq hf rfl rfl
  | taskDrop m ht hlt =>
      rw [ht] at hstands
      obtain ⟨f, hseq, hf, hm⟩ := hstands
      exact Following.handled hsub hrun hseq hf rfl rfl
  | _ => exact hstart.elsewhere rfl rfl rfl (List.prefix_refl _)

/--
**The pipeline runs the loop.**

In every run, whatever the interleaving, the message `espnow_task` offers for a
frame is the one the loop makes of that frame after some history of received ones.
-/
theorem task_follows_loop {C : World → Label → Prop} {ls : List Label} {w : World}
    {m : Tagged MqttT} (hr : Runs C ls w) (ht : w.task = .offering m) :
    ∃ (s₀ s : TaskLocals) (h : List Frame) (f : Frame), (∀ g ∈ h, g ∈ w.received)
      ∧ handleFrames s₀ (h.map (·.bytes)) = some s ∧ w.received[m.seq]? = some f
      ∧ MqttT.published m.val = message s f.bytes := by
  have hfollow : Following w := runs_invariant following_boot
    (fun _ _ _ _ hr hf _ hs => following_step (owns_reachable hr) hf hs) hr
  obtain ⟨s₀, s, h, hsub, hrun, hstands⟩ := hfollow
  rw [ht] at hstands
  obtain ⟨f, hseq, hf, hm⟩ := hstands
  refine ⟨s₀, s, h, f, hsub, hrun, hseq, ?_⟩
  rw [message, hf, hm]
  rfl

/-! ## Which frames hide the past -/

theorem field_nonempty : 0 < 64 := by decide

/-- The strings of a message, as a reader of `recv_data` up to a NUL in the payload field. -/
def payloadReader : Reader 128 (List UInt8 × List UInt8) :=
  Reader.twoFields ExampleEspnowData.topicOff 64 field_nonempty (by decide)
    fun topic payload => if 0 ∈ topic then cstr topic else topic ++ cstr (le32 payload.length)

/-- The contents of `recv_data` that frames no longer than the struct can leave behind. -/
def Left (s₀ : TaskLocals) (d : ExampleEspnowData) : Prop :=
  ∃ (h : List Frame) (s : TaskLocals), (∀ g ∈ h, g.bytes.length ≤ 128)
    ∧ handleFrames s₀ (h.map (·.bytes)) = some s ∧ s.recvData = d

/-- A frame that leaves byte `k` of the payload field at `v`, and a NUL beside it. -/
def probe (k : Nat) (v : UInt8) : Frame where
  macAddr := Buf.fill 6 0
  bytes := (List.replicate 128 0).set k v
  nonempty := by simp

theorem left_rich (s₀ : TaskLocals) : Rich payloadReader (Left s₀) := by
  intro k hlo hhi v _
  have hlen : (probe k v).bytes.length = 128 := by simp [probe]
  obtain ⟨d, hd, _⟩ := copyRecvData_of_le s₀.recvData (Nat.le_of_eq hlen)
  have hbytes : d.bytes = (probe k v).bytes := copyRecvData_whole hd hlen
  have hother (i : Nat) (hi : i < 128) (hne : k ≠ i) : d.bytes[i]? = some 0 := by
    rw [hbytes, probe, List.getElem?_set_ne hne, List.getElem?_replicate, if_pos hi]
  have hp : 0 ∈ ExampleEspnowData.payload d := by
    by_cases hk : k = 64
    · refine List.mem_of_getElem? (i := 1) ?_
      rw [ExampleEspnowData.payload, Buf.slice_getElem?, if_pos (by decide)]
      exact hother 65 (by decide) (by omega)
    · refine List.mem_of_getElem? (i := 0) ?_
      rw [ExampleEspnowData.payload, Buf.slice_getElem?, if_pos (by decide)]
      exact hother 64 (by decide) hk
  obtain ⟨m, hm, _⟩ := fillMqttBuf_spec s₀.mqttBuf hp
  refine ⟨d, ⟨[probe k v], ⟨d, m⟩, ?_, ?_, rfl⟩, ?_⟩
  · intro g hg
    rw [List.mem_singleton.mp hg, hlen]
  · simp [handleFrames, handleFrame, hd, hm]
  · rw [hbytes, probe, List.getElem?_set_self (by rw [List.length_replicate]; exact hhi)]

/--
The message enqueued for frame `f` is the same after any two histories of frames
that fit the struct and were handled to their end: it is a function of the frame.
-/
def FrameDecides (s₀ : TaskLocals) (f : Frame) : Prop :=
  ∀ (h h' : List Frame) (s s' : TaskLocals),
    (∀ g ∈ h, g.bytes.length ≤ 128) → (∀ g ∈ h', g.bytes.length ≤ 128) →
    handleFrames s₀ (h.map (·.bytes)) = some s → handleFrames s₀ (h'.map (·.bytes)) = some s' →
    ∃ m, message s f.bytes = some m ∧ message s' f.bytes = some m

/--
**When a message is a function of its frame.**

Whatever the locals held at first: a frame that fits the struct decides its own
message exactly when it brings a NUL at or behind the start of the payload field.
-/
theorem frameDecides_iff (s₀ : TaskLocals) (f : Frame) (h : f.bytes.length ≤ 128) :
    FrameDecides s₀ f ↔ 0 ∈ f.bytes.drop 64 := by
  have hread : FrameDecides s₀ f ↔ Determined payloadReader (Left s₀) f.bytes := by
    constructor
    · intro hdec d d' hleft hleft'
      rcases hleft with ⟨hist, s, hlen, hs, rfl⟩
      rcases hleft' with ⟨hist', s', hlen', hs', rfl⟩
      obtain ⟨m, hm, hm'⟩ := hdec hist hist' s s' hlen hlen' hs hs'
      rw [message_eq s h] at hm
      rw [message_eq s' h] at hm'
      exact ⟨m, hm, hm'⟩
    · intro hdet hist hist' s s' hlen hlen' hs hs'
      obtain ⟨m, hm, hm'⟩ := hdet s.recvData s'.recvData ⟨hist, s, hlen, hs, rfl⟩
        ⟨hist', s', hlen', hs', rfl⟩
      refine ⟨m, ?_, ?_⟩
      · rw [message_eq s h]; exact hm
      · rw [message_eq s' h]; exact hm'
  rw [hread, determined_iff payloadReader (left_rich s₀)]
  show 0 ∈ (f.bytes.take 128).drop 64 ↔ _
  rw [List.take_of_length_le h]

/-- **A whole struct decides its message**, whatever came before. -/
theorem whole_frame_decides :
    FrameDecides ⟨Buf.fill 128 1, Buf.fill 140 1⟩ (probe 64 65) :=
  (frameDecides_iff _ (probe 64 65) (by simp [probe])).mpr (by decide)

/-- A frame with a topic of one letter and nothing behind it. -/
def topicOnly : Frame := { macAddr := Buf.fill 6 0, bytes := [116, 0], nonempty := by decide }

set_option maxRecDepth 10000 in
/-- **A short frame is published with the payload of the frame before it.** -/
theorem topicOnly_leaks : ¬ FrameDecides ⟨Buf.fill 128 0, Buf.fill 140 0⟩ topicOnly := by
  intro hdec
  obtain ⟨m, hm, hm'⟩ := hdec [probe 64 65] [probe 64 66] _ _ (by simp [probe]) (by simp [probe])
    rfl rfl
  have hA : m = ([116], [65]) := (Option.some.inj hm).symm
  have hB : m = ([116], [66]) := (Option.some.inj hm').symm
  rw [hA] at hB
  exact absurd hB (by decide)

end EspNowGateway.Proof
