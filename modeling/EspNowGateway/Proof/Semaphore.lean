import EspNowGateway.Proof.Deadlock
import EspNowGateway.Proof.Ownership

/-!
# The semaphore and what stands on it

`xSemaphoreData` is one token. It is in the semaphore, or with the callback, or with
the task, and a failed `malloc` takes it out of the world: `semaphore_token` counts
these four and finds one, in every state of every run. All the rest of the module
rests on that. Two processes are never between their take and their give at once, no
`malloc` can fail twice, and once one has failed nothing is queued, copied or freed
any more.

The other half is about what can go wrong at all. Copies are checked in three places,
and `only_the_task_faults` says that just those of `espnow_task` can leave their
objects, and on which frames.
-/

namespace EspNowGateway.Proof

open EspNowGateway CObject CHeap TransitionSystem

/-! ## One token -/

/-- Where `example_espnow_recv_cb` has taken the semaphore and not given it back. -/
def cbHolds : CbPc → Bool
  | .idle | .taking _ => false
  | _ => true

/-- Where `espnow_task` has. -/
def taskHolds : TaskPc → Bool
  | .copying _ | .freeing _ | .giving _ | .copyFault _ => true
  | _ => false

/-- "Malloc receive data fail". -/
def Label.failsMalloc : Label → Bool
  | .cbMallocFail => true
  | _ => false

/-- How often the token was lost on the way. -/
def mallocFails (ls : List Label) : Nat := ls.countP Label.failsMalloc

/-- The token, counted wherever it may be. -/
def tokens (w : World) : Nat :=
  w.xSemaphoreData.toNat + (cbHolds w.cb).toNat + (taskHolds w.task).toNat

theorem mallocFails_snoc (ls : List Label) (l : Label) :
    mallocFails (ls ++ [l]) = mallocFails ls + (Label.failsMalloc l).toNat := by
  rw [mallocFails, List.countP_append, List.countP_singleton, mallocFails]
  cases Label.failsMalloc l <;> rfl

/-- A step moves the token, or a failed `malloc` loses it. -/
theorem tokens_step {w w' : World} {l : Label} (h : tokens w ≤ 1) (hs : Step w l w') :
    tokens w' + (Label.failsMalloc l).toNat = tokens w := by
  cases hs with
  | accepted c f hcb hf => simp [tokens, cbHolds, hcb, Label.failsMalloc]
  | cbTake f hcb hsem => simp [tokens, cbHolds, hcb, hsem, Label.failsMalloc]
  | cbMalloc f p junk hp hcb hlen => simp [tokens, cbHolds, hcb, Label.failsMalloc]
  | cbMallocFail f hcb => simp [tokens, cbHolds, hcb, Label.failsMalloc]; omega
  | cbCopy f p heap hcb hcopy => simp [tokens, cbHolds, hcb, Label.failsMalloc]
  | cbCopyFault f p hcb hcopy => simp [tokens, cbHolds, hcb, Label.failsMalloc]
  | cbSend e hcb hlt => simp [tokens, cbHolds, hcb, Label.failsMalloc]
  | cbSendFail e hcb => simp [tokens, cbHolds, hcb, Label.failsMalloc]
  | cbFree e hcb => simp [tokens, cbHolds, hcb, World.free, Label.failsMalloc]
  | cbGive hcb =>
      -- whoever gives was the holder, so the semaphore was not available
      simp only [tokens, hcb, cbHolds, Bool.toNat_true] at h
      simp only [tokens, hcb, cbHolds, Label.failsMalloc, Bool.toNat_true, Bool.toNat_false]
      omega
  | taskReceive e rest ht hq hid => simp [tokens, taskHolds, ht, Label.failsMalloc]
  | taskTake e ht hsem => simp [tokens, taskHolds, ht, hsem, Label.failsMalloc]; omega
  | taskCopy e m d ht hget hc => simp [tokens, taskHolds, ht, Label.failsMalloc]
  | taskCopyFault e ht hc => simp [tokens, taskHolds, ht, Label.failsMalloc]
  | taskFree e ht => simp [tokens, taskHolds, ht, World.free, Label.failsMalloc]
  | taskGive n ht =>
      simp only [tokens, ht, taskHolds, Bool.toNat_true] at h
      simp only [tokens, ht, taskHolds, Label.failsMalloc, Bool.toNat_true, Bool.toNat_false]
      omega
  | taskFill n m ht hf => simp [tokens, taskHolds, ht, Label.failsMalloc]
  | taskFillFault n ht hf => simp [tokens, taskHolds, ht, Label.failsMalloc]
  | taskOffer m ht hlt => simp [tokens, taskHolds, ht, Label.failsMalloc]
  | taskDrop m ht hlt => simp [tokens, taskHolds, ht, Label.failsMalloc]
  | _ => rfl

theorem tokens_conserved {C : World → Label → Prop} {ls : List Label} {w : World}
    (hr : Runs C ls w) : tokens w + mallocFails ls = 1 := by
  refine runs_induction (P := fun ls w => tokens w + mallocFails ls = 1) (fun _ _ => rfl) ?_ hr
  intro ls w l w' _ h _ hs
  have := tokens_step (by omega) hs
  rw [mallocFails_snoc]
  omega

/--
**There is one token.** At every moment of every run exactly one of these holds: the
semaphore is available; the callback is between its take and its give; the task is;
one `malloc` of the callback has failed.
-/
theorem semaphore_token {ls : List Label} {w : World} (hr : Runs (fun _ _ => True) ls w) :
    w.xSemaphoreData.toNat + (cbHolds w.cb).toNat + (taskHolds w.task).toNat + mallocFails ls = 1 :=
  tokens_conserved hr

/-- **While the callback copies, the one token is with it.** -/
theorem semaphore_token_at_copy :
    ∃ w, Runs (fun _ _ => True) [.call oneByteCall, .cbTake, .cbMalloc 5 [0]] w
      ∧ cbHolds w.cb = true
      ∧ w.xSemaphoreData.toNat + (cbHolds w.cb).toNat + (taskHolds w.task).toNat
        + mallocFails [.call oneByteCall, .cbTake, .cbMalloc 5 [0]] = 1 := by
  obtain ⟨w, hrun, hcb⟩ : ∃ w, run step (World.boot (Buf.fill 128 0) (Buf.fill 140 0))
      [.call oneByteCall, .cbTake, .cbMalloc 5 [0]] = some w ∧ cbHolds w.cb = true := ⟨_, rfl, rfl⟩
  have hr : Runs (fun _ _ => True) [.call oneByteCall, .cbTake, .cbMalloc 5 [0]] w :=
    ⟨_, _, stepsMeet_true _, hrun⟩
  exact ⟨w, hr, hcb, semaphore_token hr⟩

/-! ## After a failed `malloc` -/

theorem mallocFails_pos {ls : List Label} (h : Label.cbMallocFail ∈ ls) : 0 < mallocFails ls :=
  List.countP_pos_iff.mpr ⟨_, h, rfl⟩

/-- Messages `espnow_task` has the bytes of, and those behind it. -/
def messagesAhead (w : World) : Nat :=
  (match w.pub with | .examining _ | .publishing _ => 1 | _ => 0) + w.xQueuePublish.length
    + match w.task with | .filling _ | .offering _ => 1 | _ => 0

/-- What stands still once the token is lost, against the state `w₀` it was lost in. -/
structure Silent (w₀ w : World) : Prop where
  lost : tokens w = 0
  queued : w.queued = w₀.queued
  heap : w.heap = w₀.heap
  recvData : w.recvData = w₀.recvData
  /-- The callback can be called once more, and then it waits. -/
  received : w.received.length + (match w.cb with | .idle => 1 | _ => 0) ≤ w₀.received.length + 1
  published : w.published.length + messagesAhead w ≤ w₀.published.length + messagesAhead w₀

theorem silent_refl {w : World} (h : tokens w = 0) : Silent w w := by
  refine ⟨h, rfl, rfl, rfl, ?_, Nat.le_refl _⟩
  cases w.cb <;> simp

/-- A step of `espnow_task` or `mqtt_pub` that needs no token. -/
theorem Silent.elsewhere {w₀ w w' : World} (h : Silent w₀ w)
    (hsem : w'.xSemaphoreData = w.xSemaphoreData) (hcb : w'.cb = w.cb)
    (htask : taskHolds w'.task = taskHolds w.task) (hqueued : w'.queued = w.queued)
    (hheap : w'.heap = w.heap) (hdata : w'.recvData = w.recvData)
    (hrec : w'.received = w.received)
    (hpub : w'.published.length + messagesAhead w' ≤ w.published.length + messagesAhead w) :
    Silent w₀ w' where
  lost := by rw [tokens, hsem, hcb, htask]; exact h.lost
  queued := hqueued.trans h.queued
  heap := hheap.trans h.heap
  recvData := hdata.trans h.recvData
  received := by rw [hrec, hcb]; exact h.received
  published := Nat.le_trans hpub h.published

/-- Without the token no step can be one of those between a take and a give. -/
theorem silent_step {w₀ w w' : World} {l : Label} (h : Silent w₀ w) (hs : Step w l w') :
    Silent w₀ w' := by
  obtain ⟨hsem, hcbfree, htaskfree⟩ :
      w.xSemaphoreData = false ∧ cbHolds w.cb = false ∧ taskHolds w.task = false := by
    have hzero := h.lost
    simp only [tokens] at hzero
    refine ⟨?_, ?_, ?_⟩ <;> refine Bool.toNat_eq_zero.mp ?_ <;> omega
  cases hs with
  | rejected c hcb hf => exact h
  | accepted c f hcb hf =>
      have hone := h.received
      rw [hcb] at hone
      refine ⟨?_, h.queued, h.heap, h.recvData, ?_, h.published⟩
      · have hzero := h.lost
        rwa [tokens, hcb] at hzero
      · simpa using hone
  | cbTake f hcb htake => rw [hsem] at htake; cases htake
  | cbMalloc f p junk hp hcb hlen => rw [hcb] at hcbfree; cases hcbfree
  | cbMallocFail f hcb => rw [hcb] at hcbfree; cases hcbfree
  | cbCopy f p heap hcb hcopy => rw [hcb] at hcbfree; cases hcbfree
  | cbCopyFault f p hcb hcopy => rw [hcb] at hcbfree; cases hcbfree
  | cbSend e hcb hlt => rw [hcb] at hcbfree; cases hcbfree
  | cbSendFail e hcb => rw [hcb] at hcbfree; cases hcbfree
  | cbFree e hcb => rw [hcb] at hcbfree; cases hcbfree
  | cbGive hcb => rw [hcb] at hcbfree; cases hcbfree
  | taskSkip e rest ht hq hid => exact h.elsewhere rfl rfl rfl rfl rfl rfl rfl (Nat.le_refl _)
  | taskReceive e rest ht hq hid =>
      exact h.elsewhere rfl rfl (by rw [ht]; rfl) rfl rfl rfl rfl (by simp [messagesAhead, ht])
  | taskTake e ht htake => rw [hsem] at htake; cases htake
  | taskCopy e m d ht hget hc => rw [ht] at htaskfree; cases htaskfree
  | taskCopyFault e ht hc => rw [ht] at htaskfree; cases htaskfree
  | taskFree e ht => rw [ht] at htaskfree; cases htaskfree
  | taskGive n ht => rw [ht] at htaskfree; cases htaskfree
  | taskFill n m ht hf =>
      exact h.elsewhere rfl rfl (by rw [ht]; rfl) rfl rfl rfl rfl (by simp [messagesAhead, ht])
  | taskFillFault n ht hf =>
      exact h.elsewhere rfl rfl (by rw [ht]; rfl) rfl rfl rfl rfl (by simp [messagesAhead, ht])
  | taskOffer m ht hlt =>
      exact h.elsewhere rfl rfl (by rw [ht]; rfl) rfl rfl rfl rfl (by
        simp [messagesAhead, ht]; omega)
  | taskDrop m ht hlt =>
      exact h.elsewhere rfl rfl (by rw [ht]; rfl) rfl rfl rfl rfl (by simp [messagesAhead, ht])
  | pubConnect hp hbit =>
      exact h.elsewhere rfl rfl rfl rfl rfl rfl rfl (by simp [messagesAhead, hp])
  | pubReceive m rest hp hq =>
      exact h.elsewhere rfl rfl rfl rfl rfl rfl rfl (by simp [messagesAhead, hp, hq]; omega)
  | pubExamine m hp hbit htype =>
      exact h.elsewhere rfl rfl rfl rfl rfl rfl rfl (by simp [messagesAhead, hp])
  | pubStop m hp hbit htype =>
      exact h.elsewhere rfl rfl rfl rfl rfl rfl rfl (by simp [messagesAhead, hp])
  | pubIgnore m hp hbit htype hstop =>
      exact h.elsewhere rfl rfl rfl rfl rfl rfl rfl (by simp [messagesAhead, hp])
  | pubDrop m hp hbit =>
      exact h.elsewhere rfl rfl rfl rfl rfl rfl rfl (by simp [messagesAhead, hp])
  | pubPublish m s hp hsent =>
      exact h.elsewhere rfl rfl rfl rfl rfl rfl rfl (by simp [messagesAhead, hp]; omega)
  | pubFault m hp hsent =>
      exact h.elsewhere rfl rfl rfl rfl rfl rfl rfl (by simp [messagesAhead, hp])
  | mqttConnected => exact h.elsewhere rfl rfl rfl rfl rfl rfl rfl (Nat.le_refl _)
  | mqttDisconnected => exact h.elsewhere rfl rfl rfl rfl rfl rfl rfl (Nat.le_refl _)

/--
**One failed `malloc` ends the gateway's work.**

However a run in which `malloc` has failed goes on: at most one more frame is
accepted and none is queued, no buffer is allocated, filled or freed, `recv_data`
stays as it is, and no more than the twelve messages that may already be behind it
are published.
-/
theorem silent_after_failed_malloc {ls ls' : List Label} {w w' : World}
    (hr : Runs (fun _ _ => True) ls w) (hfail : .cbMallocFail ∈ ls)
    (hrun : run step w ls' = some w') :
    w'.queued = w.queued ∧ w'.heap = w.heap ∧ w'.recvData = w.recvData
      ∧ w'.received.length ≤ w.received.length + 1
      ∧ w'.published.length ≤ w.published.length + 12 := by
  have hzero : tokens w = 0 := by
    have hone := tokens_conserved hr
    have hpos := mallocFails_pos hfail
    omega
  have h : Silent w w' := run_invariant (silent_refl hzero)
    (fun _ _ _ h _ hs => silent_step h (step_cases hs)) (stepsMeet_true ls') hrun
  have hahead : messagesAhead w ≤ 12 := by
    have hqueue := (queues_bounded hr).2
    rw [queueLength] at hqueue
    have hpub : (match w.pub with | .examining _ | .publishing _ => 1 | _ => 0) ≤ 1 := by
      cases w.pub <;> simp
    have htask : (match w.task with | .filling _ | .offering _ => 1 | _ => 0) ≤ 1 := by
      cases w.task <;> simp
    rw [messagesAhead]
    omega
  have hrec := h.received
  have hpub := h.published
  exact ⟨h.queued, h.heap, h.recvData, by omega, by omega⟩

/-- Two frames: the first finds no memory, and the second no semaphore. -/
theorem silent_after_first_frame :
    ∃ w w', Runs (fun _ _ => True) [.call oneByteCall, .cbTake, .cbMallocFail] w
      ∧ run step w [.call oneByteCall, .mqttConnected] = some w' ∧ w'.received.length = 2
      ∧ w'.queued = w.queued ∧ step w' .cbTake = none := by
  obtain ⟨w, w', hrun, hon, hrec, hstuck⟩ : ∃ w w',
      run step (World.boot (Buf.fill 128 0) (Buf.fill 140 0))
        [.call oneByteCall, .cbTake, .cbMallocFail] = some w
      ∧ run step w [.call oneByteCall, .mqttConnected] = some w' ∧ w'.received.length = 2
      ∧ step w' .cbTake = none := ⟨_, _, rfl, rfl, rfl, rfl⟩
  have hr : Runs (fun _ _ => True) [.call oneByteCall, .cbTake, .cbMallocFail] w :=
    ⟨_, _, stepsMeet_true _, hrun⟩
  have hfail : Label.cbMallocFail ∈ [.call oneByteCall, .cbTake, .cbMallocFail] :=
    List.mem_cons_of_mem _ (List.mem_cons_of_mem _ (List.mem_singleton_self _))
  exact ⟨w, w', hr, hon, hrec, (silent_after_failed_malloc hr hfail hon).1, hstuck⟩

/-! ## How much is allocated -/

theorem live_length {w : World} (h : Owns w) :
    w.heap.live.length = (cbBlank w.cb).length + ((cbEvent w.cb).length
      + (w.sEspnowQueue.length + (taskEvent w.task).length)) := by
  rw [h.live.length_eq, owners, List.length_append, List.length_map, eventsHeld,
    List.length_append, List.length_append]

/--
**At most twelve buffers are allocated**, whatever fails on the way: ten in the queue
and one on each side of it. All twelve are in a deadlock, and none is when the callback
is outside, the queue empty and the task at its `xQueueReceive`.
-/
theorem heap_bounded {ls : List Label} {w : World} (hr : Runs (fun _ _ => True) ls w) :
    w.heap.live.length ≤ 12 ∧ (Deadlock w → w.heap.live.length = 12)
      ∧ (w.cb = .idle → w.task = .receiving → w.sEspnowQueue = [] → w.heap.live = []) := by
  have hlive := live_length (owns_reachable hr)
  have hqueue := (queues_bounded hr).1
  rw [queueLength] at hqueue
  refine ⟨?_, fun hdead => ?_, fun hcb ht hq => ?_⟩
  · have hcb : (cbBlank w.cb).length + (cbEvent w.cb).length ≤ 1 := by
      cases w.cb <;> simp [cbBlank, cbEvent]
    have htask : (taskEvent w.task).length ≤ 1 := by cases w.task <;> simp [taskEvent]
    omega
  · obtain ⟨⟨e, hcb⟩, hfull, ⟨e', ht⟩, _⟩ := hdead
    rw [hlive, hcb, ht, hfull]
    rfl
  · rw [hcb, ht, hq] at hlive
    exact List.length_eq_zero_iff.mp hlive

/-- **Twelve frames that deadlock hold twelve buffers.** -/
theorem heap_full_in_clash :
    ∃ w, Runs (fun _ _ => True) clash w ∧ Deadlock w ∧ w.heap.live.length = 12 := by
  obtain ⟨w, hrun, hdead⟩ : ∃ w, run step (World.boot (Buf.fill 128 0) (Buf.fill 140 0)) clash
      = some w ∧ Deadlock w := ⟨_, rfl, ⟨_, rfl⟩, rfl, ⟨_, rfl⟩, rfl⟩
  have hr : Runs (fun _ _ => True) clash w := ⟨_, _, stepsMeet_true _, hrun⟩
  exact ⟨w, hr, hdead, (heap_bounded hr).2.1 hdead⟩

/-! ## What can go wrong -/

/-- A message `mqtt_pub` goes on with: it asks to be published, and holds two strings. -/
def Publishable (m : Tagged MqttT) : Prop :=
  MqttT.topicType m.val = TopicType.publish.code ∧ (MqttT.published m.val).isSome

theorem publishable_of_fill {b m : MqttT} {d : ExampleEspnowData} (n : Nat)
    (h : fillMqttBuf b d = some m) : Publishable ⟨n, m⟩ := by
  have hp : 0 ∈ ExampleEspnowData.payload d := by
    by_contra hp
    rw [fillMqttBuf_eq_none b hp] at h
    cases h
  obtain ⟨m', hm', htype, hpub⟩ := fillMqttBuf_spec b hp
  obtain rfl : m = m' := Option.some.inj (h.symm.trans hm')
  exact ⟨htype, by rw [hpub]; rfl⟩

/-- What keeps `mqtt_pub` in its loop, and what stopped `espnow_task`. -/
structure Confined (w : World) : Prop where
  task : ∀ m, w.task = .offering m → Publishable m
  queue : ∀ m ∈ w.xQueuePublish, Publishable m
  pub : ∀ m, w.pub = .examining m ∨ w.pub = .publishing m → Publishable m
  inLoop : w.pub ≠ .fault ∧ w.pub ≠ .stopped
  copy : ∀ e, w.task = .copyFault e → ∃ f, w.received[e.seq]? = some f ∧ 128 < f.bytes.length
  fill : w.task = .fault → 0 ∉ ExampleEspnowData.payload w.recvData

theorem confined_boot (d : ExampleEspnowData) (b : MqttT) : Confined (World.boot d b) where
  task := fun _ h => TaskPc.noConfusion h
  queue := fun _ h => absurd h List.not_mem_nil
  pub := fun _ h => h.elim PubPc.noConfusion PubPc.noConfusion
  inLoop := ⟨PubPc.noConfusion, PubPc.noConfusion⟩
  copy := fun _ h => TaskPc.noConfusion h
  fill := fun h => TaskPc.noConfusion h

/-- A step of the callback. -/
theorem Confined.callback {w w' : World} (h : Confined w) (htask : w'.task = w.task)
    (hpub : w'.pub = w.pub) (hqueue : w'.xQueuePublish = w.xQueuePublish)
    (hdata : w'.recvData = w.recvData) (hrec : w.received <+: w'.received) : Confined w' where
  task := by rw [htask]; exact h.task
  queue := by rw [hqueue]; exact h.queue
  pub := by rw [hpub]; exact h.pub
  inLoop := by rw [hpub]; exact h.inLoop
  copy := by
    intro e he
    obtain ⟨f, hseq, hlong⟩ := h.copy e (htask ▸ he)
    exact ⟨f, received_keep hrec hseq, hlong⟩
  fill := by rw [htask, hdata]; exact h.fill

/-- A step of `espnow_task` to a place where nothing has to be shown. -/
theorem Confined.moved {w w' : World} (h : Confined w) (hpub : w'.pub = w.pub)
    (hqueue : ∀ m ∈ w'.xQueuePublish, Publishable m) (hoffer : ∀ m, w'.task ≠ .offering m)
    (hcopy : ∀ e, w'.task ≠ .copyFault e) (hfill : w'.task ≠ .fault) : Confined w' where
  task := fun m hm => absurd hm (hoffer m)
  queue := hqueue
  pub := by rw [hpub]; exact h.pub
  inLoop := by rw [hpub]; exact h.inLoop
  copy := fun e he => absurd he (hcopy e)
  fill := fun hc => absurd hc hfill

/-- A step of `mqtt_pub`. -/
theorem Confined.publisher {w w' : World} (h : Confined w) (htask : w'.task = w.task)
    (hdata : w'.recvData = w.recvData) (hrec : w'.received = w.received)
    (hqueue : ∀ m ∈ w'.xQueuePublish, m ∈ w.xQueuePublish)
    (hpub : ∀ m, w'.pub = .examining m ∨ w'.pub = .publishing m → Publishable m)
    (hloop : w'.pub ≠ .fault ∧ w'.pub ≠ .stopped) : Confined w' where
  task := by rw [htask]; exact h.task
  queue := fun m hm => h.queue m (hqueue m hm)
  pub := hpub
  inLoop := hloop
  copy := by rw [htask, hrec]; exact h.copy
  fill := by rw [htask, hdata]; exact h.fill

theorem confined_step {w w' : World} {l : Label} (ho : Owns w) (h : Confined w)
    (hs : Step w l w') : Confined w' := by
  have hback : (∀ m, PubPc.receiving = .examining m ∨ PubPc.receiving = .publishing m → Publishable m)
      ∧ PubPc.receiving ≠ .fault ∧ PubPc.receiving ≠ .stopped :=
    ⟨fun _ hm => hm.elim PubPc.noConfusion PubPc.noConfusion, PubPc.noConfusion, PubPc.noConfusion⟩
  cases hs with
  | accepted c f hcb hf => exact h.callback rfl rfl rfl rfl (List.prefix_append ..)
  | taskSkip e rest ht hq hid => exact ⟨h.task, h.queue, h.pub, h.inLoop, h.copy, h.fill⟩
  | taskReceive e rest ht hq hid =>
      exact h.moved rfl h.queue (fun _ => TaskPc.noConfusion) (fun _ => TaskPc.noConfusion)
        TaskPc.noConfusion
  | taskTake e ht hsem =>
      exact h.moved rfl h.queue (fun _ => TaskPc.noConfusion) (fun _ => TaskPc.noConfusion)
        TaskPc.noConfusion
  | taskCopy e m d ht hget hc =>
      exact h.moved rfl h.queue (fun _ => TaskPc.noConfusion) (fun _ => TaskPc.noConfusion)
        TaskPc.noConfusion
  | taskCopyFault e ht hc =>
      -- the buffer is live and holds the frame, so it is the frame that is too long
      obtain ⟨f, hseq, hf, htake⟩ := ho.task_frame ht
      have hnone := hc f.bytes hf
      rw [htake, copyRecvData_eq_none_iff] at hnone
      refine ⟨fun m hm => TaskPc.noConfusion hm, h.queue, h.pub, h.inLoop, fun e' he' => ?_,
        fun hc => TaskPc.noConfusion hc⟩
      cases he'
      exact ⟨f, hseq, hnone⟩
  | taskFree e ht =>
      exact h.moved rfl h.queue (fun _ => TaskPc.noConfusion) (fun _ => TaskPc.noConfusion)
        TaskPc.noConfusion
  | taskGive n ht =>
      exact h.moved rfl h.queue (fun _ => TaskPc.noConfusion) (fun _ => TaskPc.noConfusion)
        TaskPc.noConfusion
  | taskFill n m ht hf =>
      refine ⟨fun m' hm' => ?_, h.queue, h.pub, h.inLoop, fun e he => TaskPc.noConfusion he,
        fun hc => TaskPc.noConfusion hc⟩
      cases hm'
      exact publishable_of_fill n hf
  | taskFillFault n ht hf =>
      refine ⟨fun m hm => TaskPc.noConfusion hm, h.queue, h.pub, h.inLoop,
        fun e he => TaskPc.noConfusion he, fun _ hp => ?_⟩
      obtain ⟨m, hm, _⟩ := fillMqttBuf_spec w.mqttBuf hp
      rw [hf] at hm
      cases hm
  | taskOffer m ht hlt =>
      refine h.moved rfl (fun m' hm' => ?_) (fun _ => TaskPc.noConfusion)
        (fun _ => TaskPc.noConfusion) TaskPc.noConfusion
      rcases List.mem_append.mp hm' with hold | hnew
      · exact h.queue m' hold
      · rw [List.mem_singleton.mp hnew]
        exact h.task m ht
  | taskDrop m ht hlt =>
      exact h.moved rfl h.queue (fun _ => TaskPc.noConfusion) (fun _ => TaskPc.noConfusion)
        TaskPc.noConfusion
  | pubConnect hp hbit => exact h.publisher rfl rfl rfl (fun _ hm => hm) hback.1 hback.2
  | pubReceive m rest hp hq =>
      refine h.publisher rfl rfl rfl (fun m' hm' => by rw [hq]; exact List.mem_cons_of_mem m hm')
        (fun m' hm' => ?_) ⟨PubPc.noConfusion, PubPc.noConfusion⟩
      obtain rfl : m = m' := hm'.elim PubPc.examining.inj PubPc.noConfusion
      exact h.queue m (by rw [hq]; exact List.mem_cons_self ..)
  | pubExamine m hp hbit htype =>
      refine h.publisher rfl rfl rfl (fun _ hm => hm) (fun m' hm' => ?_)
        ⟨PubPc.noConfusion, PubPc.noConfusion⟩
      obtain rfl : m = m' := hm'.elim PubPc.noConfusion PubPc.publishing.inj
      exact h.pub m (Or.inl hp)
  | pubStop m hp hbit htype =>
      rw [(h.pub m (Or.inl hp)).1] at htype
      cases htype
  | pubIgnore m hp hbit htype hstop => exact absurd (h.pub m (Or.inl hp)).1 htype
  | pubDrop m hp hbit => exact h.publisher rfl rfl rfl (fun _ hm => hm) hback.1 hback.2
  | pubPublish m s hp hsent => exact h.publisher rfl rfl rfl (fun _ hm => hm) hback.1 hback.2
  | pubFault m hp hsent =>
      have hsome := (h.pub m (Or.inr hp)).2
      rw [hsent] at hsome
      cases hsome
  | mqttConnected => exact h.publisher rfl rfl rfl (fun _ hm => hm) h.pub h.inLoop
  | mqttDisconnected => exact h.publisher rfl rfl rfl (fun _ hm => hm) h.pub h.inLoop
  | _ => exact h.callback rfl rfl rfl rfl (List.prefix_refl _)

theorem confined_reachable {C : World → Label → Prop} {ls : List Label} {w : World}
    (hr : Runs C ls w) : Confined w :=
  runs_invariant confined_boot (fun _ _ _ _ hr h _ hs => confined_step (owns_reachable hr) h hs) hr

/--
**Only two copies of `espnow_task` can fail.**

Whatever frames are received: the callback's copy stays inside its buffer; every event
in the queue has the id `espnow_task` has a branch for; every message in the other
queue asks to be published and holds two strings, so `mqtt_pub` neither leaves its loop
nor faults. The task's `memcpy` fails only on a frame of more than 128 bytes, and its
`strcpy` only when the payload it is given has no terminator.
-/
theorem only_the_task_faults {ls : List Label} {w : World} (hr : Runs (fun _ _ => True) ls w) :
    w.cb ≠ .fault ∧ w.pub ≠ .fault ∧ w.pub ≠ .stopped
      ∧ (∀ e ∈ w.sEspnowQueue, e.val.id = .recvCb)
      ∧ (∀ m ∈ w.xQueuePublish, MqttT.topicType m.val = TopicType.publish.code
        ∧ (MqttT.published m.val).isSome)
      ∧ (∀ e, w.task = .copyFault e →
        ∃ f, w.received[e.seq]? = some f ∧ 128 < f.bytes.length)
      ∧ (w.task = .fault → 0 ∉ ExampleEspnowData.payload w.recvData) := by
  have hown := owns_reachable hr
  have hconf := confined_reachable hr
  refine ⟨hown.cbSound, hconf.inLoop.1, hconf.inLoop.2, fun e he => ?_, hconf.queue, hconf.copy,
    hconf.fill⟩
  obtain ⟨f, _, _, hev⟩ :=
    hown.events e (List.mem_append_right _ (List.mem_append_left _ he))
  rw [hev]
  rfl

/-- A frame of one byte more than `recv_data` has. -/
def longCall : RecvCall :=
  { macAddr := some (Buf.fill 6 0), len := 129, data := some ⟨List.replicate 129 65, by simp⟩ }

set_option maxRecDepth 10000 in
/-- **The `memcpy` fails on the frame that is too long for it.** -/
theorem long_frame_faults :
    ∃ w, Runs (fun _ _ => True) [.call longCall, .cbTake, .cbMalloc 5 (List.replicate 129 0), .cbCopy,
        .cbSend, .cbGive, .taskReceive, .taskTake, .taskCopy] w
      ∧ ∃ e, w.task = .copyFault e ∧ ∃ f, w.received[e.seq]? = some f ∧ 128 < f.bytes.length := by
  obtain ⟨w, e, hrun, ht⟩ : ∃ w e, run step (World.boot (Buf.fill 128 0) (Buf.fill 140 0))
      [.call longCall, .cbTake, .cbMalloc 5 (List.replicate 129 0), .cbCopy, .cbSend, .cbGive,
        .taskReceive, .taskTake, .taskCopy] = some w ∧ w.task = .copyFault e :=
    ⟨_, _, rfl, rfl⟩
  have hr : Runs (fun _ _ => True) [.call longCall, .cbTake, .cbMalloc 5 (List.replicate 129 0),
      .cbCopy, .cbSend, .cbGive, .taskReceive, .taskTake, .taskCopy] w :=
    ⟨_, _, stepsMeet_true _, hrun⟩
  obtain ⟨_, _, _, _, _, hcopy, _⟩ := only_the_task_faults hr
  exact ⟨w, hr, e, ht, hcopy e ht⟩

end EspNowGateway.Proof
