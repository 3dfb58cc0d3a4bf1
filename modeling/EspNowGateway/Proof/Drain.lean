import EspNowGateway.Proof.Order
import EspNowGateway.Proof.Semaphore

/-!
# Getting everything out

What is in the pipeline can be published, all of it and in order, as long as the
callback has not taken the semaphore in the one situation it must not take it in:
`drainable_iff` is the other side of the deadlock. The schedule is found by a measure.
In every state but the quiet one some process can go on without a loss, and `work`
counts the steps that everything on its way still needs.

The second half is about the time before there is a broker. Then nothing is published,
and what is kept of the messages are the first ten.
-/

namespace EspNowGateway.Proof

open EspNowGateway CObject CHeap TransitionSystem

/-! ## What is left to do -/

/-- The callback outside, both tasks at their `xQueueReceive`, and nothing in between. -/
structure Quiet (w : World) : Prop where
  cb : w.cb = .idle
  task : w.task = .receiving
  pub : w.pub = .receiving
  events : w.sEspnowQueue = []
  messages : w.xQueuePublish = []

/-- The frames published so far, and those on their way in the order they are in. -/
def inOrder (w : World) : List Nat :=
  w.published.map (·.seq) ++ (inPipeline w ++ cbSeqs w.cb)

/-- What can happen while no frame comes in, no call fails and the broker does not go away. -/
def Label.drains : Label → Bool
  | .call _ | .cbMallocFail | .cbSendFail | .mqttDisconnected => false
  | _ => true

def cbWork : CbPc → Nat
  | .idle | .fault => 0
  | .giving => 1
  | .freeing _ => 2
  -- what is sent is still to be handled
  | .sending _ => 14
  | .copying _ _ => 15
  | .allocating _ => 16
  | .taking _ => 17

def taskWork : TaskPc → Nat
  | .receiving | .copyFault _ | .fault => 0
  | .offering _ => 6
  | .filling _ => 7
  | .giving _ => 8
  | .freeing _ => 9
  | .copying _ => 10
  | .taking _ => 11

def pubWork : PubPc → Nat
  | .receiving | .stopped | .fault => 0
  | .connecting => 1
  | .publishing _ => 2
  | .examining _ => 3

/-- How many steps everything on its way still needs. -/
def work (w : World) : Nat :=
  cbWork w.cb + 12 * w.sEspnowQueue.length + taskWork w.task + 4 * w.xQueuePublish.length
    + pubWork w.pub + (!w.mqttConnectedBit).toNat

/-- What is used of a state from which everything can be got out. -/
structure Drainable (w : World) : Prop where
  owns : Owns w
  decoded : Decoded w
  token : tokens w = 1
  room : w.sEspnowQueue.length ≤ queueLength
  clear : Clear w

/-- A step without loss that brings everything closer to its end. -/
def Advances (w : World) (l : Label) (w' : World) : Prop :=
  Label.drains l = true ∧ SafeTake w l ∧ step w l = some w' ∧ work w' < work w ∧ inOrder w' = inOrder w

/-! ## One step closer -/

/-- `mqtt_pub` goes on whenever it is not waiting for a message that is not there. -/
theorem advances_pub {w : World} (hd : Decoded w) (hbit : w.mqttConnectedBit = true)
    (h : w.pub ≠ .receiving ∨ w.xQueuePublish ≠ []) : ∃ l w', Advances w l w' := by
  cases hp : w.pub with
  | connecting =>
      refine ⟨.pubConnect, { w with pub := .receiving }, rfl, Label.noConfusion, ?_, ?_, ?_⟩
      · simp [step, pubStep, hp, hbit]
      · simp [work, pubWork, hp]
      · simp [inOrder, inPipeline, pubMessages, hp]
  | receiving =>
      obtain ⟨m, rest, hq⟩ := List.exists_cons_of_ne_nil (h.resolve_left fun hne => hne hp)
      refine ⟨.pubReceive, { w with pub := .examining m, xQueuePublish := rest },
        rfl, Label.noConfusion, ?_, ?_, ?_⟩
      · simp [step, pubStep, hp, hq]
      · simp [work, pubWork, hp, hq]; omega
      · simp [inOrder, inPipeline, pubMessages, hp, hq]
  | examining m =>
      obtain ⟨htype, _⟩ := hd.inHand (m := m) (by rw [hp]; rfl)
      refine ⟨.pubExamine, { w with pub := .publishing m }, rfl, Label.noConfusion, ?_, ?_, ?_⟩
      · simp [step, pubStep, hp, hbit, htype]
      · simp [work, pubWork, hp]
      · simp [inOrder, inPipeline, pubMessages, hp]
  | publishing m =>
      obtain ⟨_, f, _, hsent⟩ := hd.inHand (m := m) (by rw [hp]; rfl)
      refine ⟨.pubPublish, { w with
        pub := .receiving, published := w.published ++ [⟨m.seq, frameStrings f⟩] },
        rfl, Label.noConfusion, ?_, ?_, ?_⟩
      · simp [step, pubStep, hp, hsent]
      · simp [work, pubWork, hp]
      · simp [inOrder, inPipeline, pubMessages, hp]
  | stopped => exact absurd hp hd.pubSound.2
  | fault => exact absurd hp hd.pubSound.1

/-- The callback goes on when it has the semaphore, and the queue room for its event. -/
theorem advances_cb {w : World} (ho : Owns w) (hholds : cbHolds w.cb = true)
    (hroom : PastTake w.cb → w.sEspnowQueue.length < queueLength) : ∃ l w', Advances w l w' := by
  cases hcb : w.cb with
  | idle => rw [hcb] at hholds; cases hholds
  | taking f => rw [hcb] at hholds; cases hholds
  | allocating f =>
      obtain ⟨p, hp⟩ := exists_fresh w.heap
      refine ⟨.cbMalloc p f.val.bytes, { w with
        cb := .copying f p, heap := w.heap.malloc p f.val.bytes hp },
        rfl, Label.noConfusion, ?_, ?_, ?_⟩
      · simp [step, cbStep, hcb, hp]
      · simp [work, cbWork, hcb]
      · simp [inOrder, inPipeline, cbSeqs, hcb]
  | copying f p =>
      obtain ⟨m, hget, hlen⟩ := ho.blank f p hcb
      obtain ⟨heap, hcopy, _⟩ := Heap.memcpy_of_get hget
        (show 0 + f.val.bytes.length ≤ m.length by omega)
      refine ⟨.cbCopy, { w with cb := .sending ⟨f.seq, recvEvent f.val p⟩, heap := heap },
        rfl, Label.noConfusion, ?_, ?_, ?_⟩
      · simp [step, cbStep, hcb, hcopy]
      · simp [work, cbWork, hcb]
      · simp [inOrder, inPipeline, cbSeqs, hcb]
  | sending e =>
      have hlt := hroom (by rw [hcb]; trivial)
      refine ⟨.cbSend, { w with
        cb := .giving, sEspnowQueue := w.sEspnowQueue ++ [e], queued := w.queued ++ [e.seq] },
        rfl, Label.noConfusion, ?_, ?_, ?_⟩
      · simp [step, cbStep, hcb, hlt]
      · simp [work, cbWork, hcb]; omega
      · simp [inOrder, inPipeline, cbSeqs, hcb]
  | freeing e =>
      refine ⟨.cbFree, { w.free e.val.data with cb := .giving }, rfl, Label.noConfusion, ?_, ?_, ?_⟩
      · simp [step, cbStep, hcb]
      · simp [work, cbWork, World.free, hcb]
      · simp [inOrder, inPipeline, cbSeqs, World.free, hcb]
  | giving =>
      refine ⟨.cbGive, { w with cb := .idle, xSemaphoreData := true }, rfl, Label.noConfusion, ?_, ?_, ?_⟩
      · simp [step, cbStep, hcb]
      · simp [work, cbWork, hcb]
      · simp [inOrder, inPipeline, cbSeqs, hcb]
  | fault => exact absurd hcb ho.cbSound

/-- `espnow_task` goes on, or waits for a semaphore that the callback has. -/
theorem advances_task {w : World} (h : Drainable w) (hq : w.xQueuePublish = [])
    (ht : w.task ≠ .receiving) : ∃ l w', Advances w l w' := by
  cases hpc : w.task with
  | receiving => exact absurd hpc ht
  | taking e =>
      by_cases hsem : w.xSemaphoreData = true
      · refine ⟨.taskTake, { w with task := .copying e, xSemaphoreData := false }, rfl, Label.noConfusion,
          ?_, ?_, ?_⟩
        · simp [step, taskStep, hpc, hsem]
        · simp [work, taskWork, hpc]
        · simp [inOrder, inPipeline, taskSeqs, hpc]
      · have hholds : cbHolds w.cb = true := by
          have htoken := h.token
          rw [tokens, Bool.eq_false_iff.mpr hsem, hpc] at htoken
          simpa [taskHolds] using htoken
        refine advances_cb h.owns hholds fun hpast => ?_
        exact (h.clear hpast).resolve_right fun hne => hne e hpc
  | copying e =>
      obtain ⟨f, hseq, hf, htake⟩ := h.owns.task_frame hpc
      have hstruct : IsStruct f := h.decoded.frames f (List.mem_of_getElem? hseq)
      obtain ⟨d, hd, _⟩ := copyRecvData_of_le w.recvData (Nat.le_of_eq hstruct.1)
      refine ⟨.taskCopy, { w with task := .freeing e, recvData := d }, rfl, Label.noConfusion, ?_, ?_, ?_⟩
      · simp [step, taskStep, hpc, hf, htake, hd]
      · simp [work, taskWork, hpc]
      · simp [inOrder, inPipeline, taskSeqs, hpc]
  | freeing e =>
      refine ⟨.taskFree, { w.free e.val.data with task := .giving e.seq }, rfl, Label.noConfusion, ?_, ?_, ?_⟩
      · simp [step, taskStep, hpc]
      · simp [work, taskWork, World.free, hpc]
      · simp [inOrder, inPipeline, taskSeqs, World.free, hpc]
  | giving n =>
      refine ⟨.taskGive, { w with task := .filling n, xSemaphoreData := true }, rfl, Label.noConfusion,
        ?_, ?_, ?_⟩
      · simp [step, taskStep, hpc]
      · simp [work, taskWork, hpc]
      · simp [inOrder, inPipeline, taskSeqs, hpc]
  | filling n =>
      obtain ⟨m, hm, _⟩ := h.decoded.fill hpc
      refine ⟨.taskFill, { w with task := .offering ⟨n, m⟩, mqttBuf := m }, rfl, Label.noConfusion, ?_, ?_, ?_⟩
      · simp [step, taskStep, hpc, hm]
      · simp [work, taskWork, hpc]
      · simp [inOrder, inPipeline, taskSeqs, hpc]
  | offering m =>
      have hlt : w.xQueuePublish.length < queueLength := by rw [hq]; decide
      refine ⟨.taskOffer, { w with task := .receiving, xQueuePublish := w.xQueuePublish ++ [m] },
        rfl, Label.noConfusion, ?_, ?_, ?_⟩
      · simp [step, taskStep, hpc, hlt]
      · simp [work, taskWork, hpc]; omega
      · simp [inOrder, inPipeline, taskSeqs, hpc]
  | copyFault e => exact absurd hpc (h.decoded.taskSound.2 e)
  | fault => exact absurd hpc h.decoded.taskSound.1

/-- With the task waiting, an event can be received, or else the callback can go on. -/
theorem advances_front {w : World} (h : Drainable w) (ht : w.task = .receiving)
    (hout : w.sEspnowQueue ≠ [] ∨ w.cb ≠ .idle) : ∃ l w', Advances w l w' := by
  cases hq : w.sEspnowQueue with
  | cons e rest =>
      have hid : e.val.id = .recvCb := by
        obtain ⟨f, _, _, hev⟩ := h.owns.events e (by rw [eventsHeld, hq]; simp)
        rw [hev]; rfl
      refine ⟨.taskReceive, { w with task := .taking e, sEspnowQueue := rest }, rfl, Label.noConfusion,
        ?_, ?_, ?_⟩
      · simp [step, taskStep, ht, hq, hid]
      · simp [work, taskWork, ht, hq]; omega
      · simp [inOrder, inPipeline, taskSeqs, ht, hq]
  | nil =>
      have hroom : w.sEspnowQueue.length < queueLength := by rw [hq]; decide
      have hcb : w.cb ≠ .idle := hout.resolve_left fun hne => hne hq
      by_cases hholds : cbHolds w.cb = true
      · exact advances_cb h.owns hholds fun _ => hroom
      · -- neither process has the semaphore, so it is there to be taken
        have hsem : w.xSemaphoreData = true := by
          have htoken := h.token
          rw [tokens, Bool.eq_false_iff.mpr hholds, ht] at htoken
          simpa [taskHolds] using htoken
        cases hpc : w.cb with
        | taking f =>
            refine ⟨.cbTake, { w with cb := .allocating f, xSemaphoreData := false }, rfl,
              fun _ => Or.inl hroom, ?_, ?_, ?_⟩
            · simp [step, cbStep, hpc, hsem]
            · simp [work, cbWork, hpc]
            · simp [inOrder, inPipeline, cbSeqs, hpc]
        | idle => exact absurd hpc hcb
        | _ => rw [hpc] at hholds; exact absurd rfl hholds

/-- **As long as it is not quiet, the pipeline can go on without a loss.** -/
theorem exists_advances {w : World} (h : Drainable w) (hquiet : ¬ Quiet w) :
    ∃ l w', Advances w l w' := by
  by_cases hbit : w.mqttConnectedBit = true
  · by_cases hp : w.pub = .receiving
    · by_cases hq : w.xQueuePublish = []
      · by_cases ht : w.task = .receiving
        · refine advances_front h ht ?_
          by_cases hs : w.sEspnowQueue = []
          · exact Or.inr fun hcb => hquiet ⟨hcb, ht, hp, hs, hq⟩
          · exact Or.inl hs
        · exact advances_task h hq ht
      · exact advances_pub h.decoded hbit (Or.inr hq)
    · exact advances_pub h.decoded hbit (Or.inl hp)
  · refine ⟨.mqttConnected, { w with mqttConnectedBit := true }, rfl, Label.noConfusion, rfl, ?_, rfl⟩
    simp [work, Bool.eq_false_iff.mpr hbit]

/-! ## All the way out -/

theorem Drainable.next {w w' : World} {l : Label} (h : Drainable w) (ha : Advances w l w') :
    Drainable w' := by
  obtain ⟨hl, htake, hs, _, _⟩ := ha
  have hstep := step_cases hs
  have hcall : StructCall l := by
    intro c f hc _
    rw [hc] at hl
    cases hl
  have hmalloc : Label.failsMalloc l = false := by cases l <;> first | rfl | cases hl
  have htoken := tokens_step (Nat.le_of_eq h.token) hstep
  rw [hmalloc, h.token] at htoken
  have hroom : w'.sEspnowQueue.length ≤ queueLength := by
    have hb := h.room
    cases hstep with
    | cbSend e _ hlt => rw [List.length_append, List.length_singleton]; omega
    | taskSkip e rest _ hq _ => rw [hq, List.length_cons] at hb; exact Nat.le_of_succ_le hb
    | taskReceive e rest _ hq _ => rw [hq, List.length_cons] at hb; exact Nat.le_of_succ_le hb
    | _ => exact hb
  exact ⟨owns_step h.owns hstep, decoded_step h.owns h.decoded hcall hstep, htoken, hroom,
    clear_step h.room h.clear htake hstep⟩

theorem inOrder_of_quiet {w : World} (h : Quiet w) : inOrder w = w.published.map (·.seq) := by
  rw [inOrder, inPipeline, h.cb, h.task, h.pub, h.events, h.messages]
  exact List.append_nil _

/-- **Everything can be got out**, in order and without a loss. -/
theorem exists_drain {w : World} (h : Drainable w) :
    ∃ ls w', (∀ l ∈ ls, Label.drains l = true) ∧ run step w ls = some w' ∧ Quiet w'
      ∧ w'.published.map (·.seq) = inOrder w := by
  have hprogress : ∀ w, Drainable w → ¬ Quiet w → ∃ l w', Label.drains l = true
      ∧ step w l = some w' ∧ Drainable w' ∧ work w' < work w ∧ inOrder w' = inOrder w := by
    intro w hw hn
    obtain ⟨l, w', ha⟩ := exists_advances hw hn
    exact ⟨l, w', ha.1, ha.2.2.1, hw.next ha, ha.2.2.2⟩
  obtain ⟨ls, w', hls, hrun, hquiet, horder⟩ := run_progress hprogress h
  exact ⟨ls, w', hls, hrun, hquiet, (inOrder_of_quiet hquiet).symm.trans horder⟩

/-- The callback has the semaphore for a full queue, and the task waits for it. -/
def Doomed (w : World) : Prop :=
  PastTake w.cb ∧ w.sEspnowQueue.length = queueLength ∧ ∃ e, w.task = .taking e

theorem clear_iff_not_doomed {w : World} (hb : w.sEspnowQueue.length ≤ queueLength) :
    Clear w ↔ ¬ Doomed w := by
  refine ⟨fun hc hd => ?_, fun hd hp => ?_⟩
  · obtain ⟨hpast, hfull, e, ht⟩ := hd
    rcases hc hpast with hlt | hnt
    · omega
    · exact hnt e ht
  · by_cases hlt : w.sEspnowQueue.length < queueLength
    · exact Or.inl hlt
    · exact Or.inr fun e he => hd ⟨hp, by omega, e, he⟩

theorem cbHolds_of_pastTake {pc : CbPc} (h : PastTake pc) : cbHolds pc = true := by
  cases pc <;> first | rfl | exact h.elim

/-- While no call fails, what is doomed stays so. -/
theorem doomed_step {w w' : World} {l : Label} (ho : Owns w) (hd : Doomed w)
    (hsem : w.xSemaphoreData = false) (hl : Label.fails l = false) (hs : Step w l w') :
    Doomed w' ∧ w'.xSemaphoreData = false := by
  obtain ⟨hpast, hfull, e, ht⟩ := hd
  cases hs with
  | rejected c hcb hf => exact ⟨⟨hpast, hfull, e, ht⟩, hsem⟩
  | accepted c f hcb hf => rw [hcb] at hpast; exact hpast.elim
  | cbTake f hcb htake => rw [hsem] at htake; cases htake
  | cbMalloc f p junk hp hcb hlen => exact ⟨⟨trivial, hfull, e, ht⟩, hsem⟩
  | cbMallocFail f hcb => cases hl
  | cbCopy f p heap hcb hcopy => exact ⟨⟨trivial, hfull, e, ht⟩, hsem⟩
  | cbCopyFault f p hcb hcopy => exact absurd rfl (owns_step ho (.cbCopyFault f p hcb hcopy)).cbSound
  | cbSend e' hcb hlt => omega
  | cbSendFail e' hcb => cases hl
  | cbFree e' hcb => rw [hcb] at hpast; exact hpast.elim
  | cbGive hcb => rw [hcb] at hpast; exact hpast.elim
  | taskSkip e' rest ht' hq hid => rw [ht] at ht'; cases ht'
  | taskReceive e' rest ht' hq hid => rw [ht] at ht'; cases ht'
  | taskTake e' ht' htake => rw [hsem] at htake; cases htake
  | taskCopy e' m d ht' hget hc => rw [ht] at ht'; cases ht'
  | taskCopyFault e' ht' hc => rw [ht] at ht'; cases ht'
  | taskFree e' ht' => rw [ht] at ht'; cases ht'
  | taskGive n ht' => rw [ht] at ht'; cases ht'
  | taskFill n m ht' hf => rw [ht] at ht'; cases ht'
  | taskFillFault n ht' hf => rw [ht] at ht'; cases ht'
  | taskOffer m ht' hlt => rw [ht] at ht'; cases ht'
  | taskDrop m ht' hlt => rw [ht] at ht'; cases ht'
  | _ => exact ⟨⟨hpast, hfull, e, ht⟩, hsem⟩

theorem tokens_of_runs {C : World → Label → Prop} {ls : List Label} {w : World}
    (hC : ∀ w l, C w l → Label.failsMalloc l = false) (hr : Runs C ls w) : tokens w = 1 := by
  refine runs_invariant (I := fun w => tokens w = 1) (fun _ _ => rfl) ?_ hr
  intro _ w l w' _ h hl hs
  have hstep := tokens_step (Nat.le_of_eq h) hs
  rwa [hC w l hl, h] at hstep

/-- In a run over structs in which no `malloc` has failed, all that is in doubt is `Clear`. -/
theorem drainable_of_runs {ls : List Label} {w : World}
    (hr : Runs (fun _ l => StructCall l ∧ Label.failsMalloc l = false) ls w) (hc : Clear w) :
    Drainable w where
  owns := owns_reachable hr
  decoded := decoded_reachable (runs_mono (fun _ _ h => h.1) hr)
  token := tokens_of_runs (fun _ _ h => h.2) hr
  room := (queues_bounded hr).1
  clear := hc

/--
**What is in the pipeline can be published exactly as long as it is not doomed.**

In any state of a run over terminated structs in which no `malloc` has failed: there is
a schedule without a failing call that publishes everything queued or in hand, in the
order it is in and without a loss, and comes to rest, unless the callback has taken the
semaphore for a full queue while the task is on its way to it.
-/
theorem drainable_iff {ls : List Label} {w : World}
    (hr : Runs (fun _ l => StructCall l ∧ Label.failsMalloc l = false) ls w) :
    (∃ ls' w', (∀ l ∈ ls', Label.drains l = true) ∧ run step w ls' = some w' ∧ Quiet w'
        ∧ w'.published.map (·.seq) = inOrder w)
      ↔ ¬ Doomed w := by
  have hb := (queues_bounded hr).1
  refine ⟨fun hdrain hd => ?_, fun hd => ?_⟩
  · obtain ⟨ls', w', hls, hrun, hquiet, _⟩ := hdrain
    have htoken : tokens w = 1 := tokens_of_runs (fun _ _ h => h.2) hr
    have hsem : w.xSemaphoreData = false := by
      rw [tokens, cbHolds_of_pastTake hd.1] at htoken
      refine Bool.toNat_eq_zero.mp ?_
      simp only [Bool.toNat_true] at htoken
      omega
    have hfails : ∀ l ∈ ls', Label.fails l = false := by
      intro l hl
      have := hls l hl
      cases l <;> first | rfl | cases this
    have hstill : Owns w' ∧ Doomed w' ∧ w'.xSemaphoreData = false :=
      run_invariant (I := fun w => Owns w ∧ Doomed w ∧ w.xSemaphoreData = false)
        (C := fun _ l => Label.fails l = false) ⟨owns_reachable hr, hd, hsem⟩
        (fun _ _ _ hI hl hs => ⟨owns_step hI.1 (step_cases hs),
          doomed_step hI.1 hI.2.1 hI.2.2 hl (step_cases hs)⟩)
        (stepsMeet_of_forall hfails) hrun
    obtain ⟨_, _, e, ht⟩ := hstill.2.1
    rw [hquiet.task] at ht
    cases ht
  · exact exists_drain (drainable_of_runs hr ((clear_iff_not_doomed hb).mpr hd))

theorem deliverStruct_meets (l : Label) (h : l ∈ deliverStruct) :
    StructCall l ∧ Label.failsMalloc l = false := by
  refine ⟨fun c f hc hf => ?_, ?_⟩
  · subst hc
    obtain rfl : c = structCall := by simpa [deliverStruct] using h
    exact isStruct_structCall hf
  · simp only [deliverStruct, List.mem_cons, List.not_mem_nil, or_false] at h
    rcases h with rfl | rfl | rfl | rfl | rfl | rfl <;> rfl

set_option maxRecDepth 10000 in
/-- **A frame in the queue can be published.** -/
theorem drainable_after_deliverStruct :
    ∃ w, Runs (fun _ l => StructCall l ∧ Label.failsMalloc l = false) deliverStruct w
      ∧ inOrder w = [0] ∧ ∃ ls' w', (∀ l ∈ ls', Label.drains l = true) ∧ run step w ls' = some w'
        ∧ Quiet w' ∧ w'.published.map (·.seq) = inOrder w := by
  obtain ⟨w, hrun, horder, hcb⟩ : ∃ w,
      run step (World.boot (Buf.fill 128 0) (Buf.fill 140 0)) deliverStruct = some w
        ∧ inOrder w = [0] ∧ w.cb = .idle := ⟨_, rfl, rfl, rfl⟩
  have hr : Runs (fun _ l => StructCall l ∧ Label.failsMalloc l = false) deliverStruct w :=
    ⟨_, _, stepsMeet_of_forall deliverStruct_meets, hrun⟩
  have hfree : ¬ Doomed w := by
    intro hd
    have hpast := hd.1
    rw [hcb] at hpast
    exact hpast
  exact ⟨w, hr, horder, (drainable_iff hr).mpr hfree⟩

/-! ## Before there is a broker -/

/-- The numbers of the messages `espnow_task` has offered to the second queue so far. -/
def OfferedBefore (w : World) (offered : List Nat) : Prop :=
  w.queued = offered ++ (taskSeqs w.task ++ w.sEspnowQueue.map (·.seq))

/-- What was offered: the first ten messages are in the queue, and the others are lost. -/
structure Backlog (w : World) : Prop where
  pub : w.pub = .connecting
  bit : w.mqttConnectedBit = false
  published : w.published = []
  kept : ∃ offered, OfferedBefore w offered
    ∧ w.xQueuePublish.map (·.seq) = offered.take queueLength
    ∧ w.dropped = (offered.drop queueLength).map fun n => (n, .publishQueueFull)

/-- A step that offers nothing. -/
theorem Backlog.keep {w w' : World} (h : Backlog w) (hpub : w'.pub = w.pub)
    (hbit : w'.mqttConnectedBit = false) (hpublished : w'.published = w.published)
    (hqueue : w'.xQueuePublish = w.xQueuePublish) (hdropped : w'.dropped = w.dropped)
    (hoffered : ∀ offered, OfferedBefore w offered → OfferedBefore w' offered) : Backlog w' where
  pub := hpub.trans h.pub
  bit := hbit
  published := hpublished.trans h.published
  kept := by
    rw [hqueue, hdropped]
    obtain ⟨offered, hof, hrest⟩ := h.kept
    exact ⟨offered, hoffered offered hof, hrest⟩

theorem backlog_step {w w' : World} {l : Label} (ho : Owns w) (hd : Decoded w) (h : Backlog w)
    (hl : l ≠ .mqttConnected) (hs : Step w l w') : Backlog w' := by
  have hpc := h.pub
  have hbit := h.bit
  have hlen {offered : List Nat} (hk : w.xQueuePublish.map (·.seq) = offered.take queueLength) :
      w.xQueuePublish.length = min queueLength offered.length := by
    have := congrArg List.length hk
    rwa [List.length_map, List.length_take] at this
  cases hs with
  | cbSend e hcb hlt =>
      refine h.keep rfl hbit rfl rfl rfl fun offered hof => ?_
      rw [OfferedBefore] at hof ⊢
      simp [hof]
  | taskSkip e rest ht hq hid =>
      obtain ⟨f, _, _, hev⟩ := ho.events e (by rw [eventsHeld, hq]; simp)
      rw [hev] at hid; cases hid
  | taskReceive e rest ht hq hid =>
      refine h.keep rfl hbit rfl rfl rfl fun offered hof => ?_
      rw [OfferedBefore, ht, hq] at hof
      exact hof
  | taskTake e ht hsem =>
      exact h.keep rfl hbit rfl rfl rfl fun offered hof => by rwa [OfferedBefore, ht] at hof
  | taskCopy e m d ht hget hc =>
      exact h.keep rfl hbit rfl rfl rfl fun offered hof => by rwa [OfferedBefore, ht] at hof
  | taskCopyFault e ht hc =>
      exact h.keep rfl hbit rfl rfl rfl fun offered hof => by rwa [OfferedBefore, ht] at hof
  | taskFree e ht =>
      exact h.keep rfl hbit rfl rfl rfl fun offered hof => by rwa [OfferedBefore, ht] at hof
  | taskGive n ht =>
      exact h.keep rfl hbit rfl rfl rfl fun offered hof => by rwa [OfferedBefore, ht] at hof
  | taskFill n m ht hf =>
      exact h.keep rfl hbit rfl rfl rfl fun offered hof => by rwa [OfferedBefore, ht] at hof
  | taskFillFault n ht hf =>
      obtain ⟨m, hm, _⟩ := hd.fill ht
      rw [hf] at hm
      cases hm
  | taskOffer m ht hlt =>
      obtain ⟨offered, hof, hkept, hdropped⟩ := h.kept
      have hshort : offered.length < queueLength := by
        have := hlen hkept
        omega
      refine ⟨hpc, hbit, h.published, offered ++ [m.seq], ?_, ?_, ?_⟩
      · rw [OfferedBefore, ht] at hof
        rw [OfferedBefore, List.append_assoc]
        exact hof
      · show (w.xQueuePublish ++ [m]).map (·.seq) = _
        rw [List.map_append, hkept, List.take_of_length_le (Nat.le_of_lt hshort),
          List.take_of_length_le (by rw [List.length_append, List.length_singleton]; omega)]
        rfl
      · rw [hdropped, List.drop_of_length_le (Nat.le_of_lt hshort),
          List.drop_of_length_le (by rw [List.length_append, List.length_singleton]; omega)]
  | taskDrop m ht hlt =>
      obtain ⟨offered, hof, hkept, hdropped⟩ := h.kept
      have hlong : queueLength ≤ offered.length := by
        have := hlen hkept
        omega
      refine ⟨hpc, hbit, h.published, offered ++ [m.seq], ?_, ?_, ?_⟩
      · rw [OfferedBefore, ht] at hof
        rw [OfferedBefore, List.append_assoc]
        exact hof
      · rw [List.take_append_of_le_length hlong]
        exact hkept
      · show w.dropped ++ [(m.seq, DropPoint.publishQueueFull)] = _
        rw [hdropped, List.drop_append_of_le_length hlong, List.map_append]
        rfl
  | pubConnect hp hup => rw [hbit] at hup; cases hup
  | pubReceive m rest hp hq => rw [hpc] at hp; cases hp
  | pubExamine m hp hup htype => rw [hpc] at hp; cases hp
  | pubStop m hp hup htype => rw [hpc] at hp; cases hp
  | pubIgnore m hp hup htype hstop => rw [hpc] at hp; cases hp
  | pubDrop m hp hup => rw [hpc] at hp; cases hp
  | pubPublish m s hp hsent => rw [hpc] at hp; cases hp
  | pubFault m hp hsent => rw [hpc] at hp; cases hp
  | mqttConnected => exact absurd rfl hl
  | mqttDisconnected => exact h.keep rfl rfl rfl rfl rfl fun _ hof => hof
  | _ => exact h.keep rfl hbit rfl rfl rfl fun _ hof => hof

/--
**What is kept while there is no broker.**

In every run over terminated structs in which the client has not connected yet, nothing
is published. Of the messages offered so far, which are the frames queued but for those
the task has not finished, the first ten wait in `xQueuePublish`, in order, and every
later one was dropped for want of room.
-/
theorem backlog_before_connection {ls : List Label} {w : World}
    (hr : Runs (fun _ l => StructCall l ∧ l ≠ .mqttConnected) ls w) :
    w.published = [] ∧ ∃ offered,
      w.queued = offered ++ (taskSeqs w.task ++ w.sEspnowQueue.map (·.seq))
        ∧ w.xQueuePublish.map (·.seq) = offered.take queueLength
        ∧ w.dropped = (offered.drop queueLength).map fun n => (n, .publishQueueFull) := by
  have h : Backlog w := runs_invariant (I := Backlog)
    (fun _ _ => ⟨rfl, rfl, rfl, [], rfl, rfl, rfl⟩)
    (fun _ _ _ _ hr h hl hs => backlog_step (owns_reachable hr)
      (decoded_reachable (runs_mono (fun _ _ h => h.1) hr)) h hl.2 hs) hr
  exact ⟨h.published, h.kept⟩

theorem elevenStructs_meets (l : Label) (h : l ∈ elevenStructs) :
    StructCall l ∧ l ≠ .mqttConnected := by
  rcases mem_elevenStructs h with hcall | hforward
  · refine ⟨(deliverStruct_meets l hcall).1, ?_⟩
    rintro rfl
    simp [deliverStruct] at hcall
  · refine ⟨fun c f hc _ => ?_, ?_⟩
    · subst hc
      simp [forward] at hforward
    · rintro rfl
      simp [forward] at hforward

set_option maxRecDepth 100000 in
/-- **Of eleven messages the last one is lost.** -/
theorem eleventh_is_lost :
    ∃ w, Runs (fun _ l => StructCall l ∧ l ≠ .mqttConnected) elevenStructs w
      ∧ w.dropped = [(10, .publishQueueFull)] ∧ w.published = [] := by
  obtain ⟨w, hrun, hdropped⟩ : ∃ w,
      run step (World.boot (Buf.fill 128 0) (Buf.fill 140 0)) elevenStructs = some w
        ∧ w.dropped = [(10, .publishQueueFull)] := ⟨_, rfl, rfl⟩
  have hr : Runs (fun _ l => StructCall l ∧ l ≠ .mqttConnected) elevenStructs w :=
    ⟨_, _, stepsMeet_of_forall elevenStructs_meets, hrun⟩
  exact ⟨w, hr, hdropped, (backlog_before_connection hr).1⟩

end EspNowGateway.Proof
