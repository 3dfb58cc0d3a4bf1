import EspNowGateway.Esp32.Pipeline

/-!
# Who owns which buffer

Every frame is copied into a heap buffer that changes hands twice: the callback
allocates it, the queue holds it while its event waits, and the task frees it.
The event is copied by value on the way, so ownership is not visible in the data;
it is a matter of where the program counters stand.

`Owns` states the ledger: the live buffers are, as a multiset, those of the events
in hand or in the queue, plus the one the callback has allocated and not yet
filled. It also says what the buffers hold, which is what makes the decoding of a
frame independent of everything that happened between its reception and its turn.
-/

namespace EspNowGateway.Proof

open EspNowGateway CObject CHeap TransitionSystem

/-- The frame the callback is working on, before it has become an event. -/
def cbFrame : CbPc → List (Tagged Frame)
  | .taking f | .allocating f | .copying f _ => [f]
  | _ => []

/-- The buffer the callback has allocated and not yet filled. -/
def cbBlank : CbPc → List Ptr
  | .copying _ p => [p]
  | _ => []

/-- The event the callback holds the buffer of: sent to neither the queue nor `free`. -/
def cbEvent : CbPc → List (Tagged Event)
  | .sending e | .freeing e => [e]
  | _ => []

/-- The event the task holds the buffer of: from `xQueueReceive` to `free`. -/
def taskEvent : TaskPc → List (Tagged Event)
  | .taking e | .copying e | .freeing e | .copyFault e => [e]
  | _ => []

/-- Every event whose buffer has an owner. -/
def eventsHeld (w : World) : List (Tagged Event) :=
  cbEvent w.cb ++ (w.sEspnowQueue ++ taskEvent w.task)

/-- The buffers that have an owner, once for each owner. -/
def owners (w : World) : List Ptr :=
  cbBlank w.cb ++ (eventsHeld w).map fun e => e.val.data

/-- The event was made from the frame of its number, and its buffer holds that frame. -/
def EventOk (heap : Heap) (received : List Frame) (e : Tagged Event) : Prop :=
  ∃ f, received[e.seq]? = some f ∧ heap.get e.val.data = some f.bytes
    ∧ e.val = recvEvent f e.val.data

/-- The ownership ledger. -/
structure Owns (w : World) : Prop where
  /-- The live buffers are the owned ones, each with one owner. -/
  live : w.heap.live.Perm (owners w)
  /-- Every event in hand or in the queue carries its own frame. -/
  events : ∀ e ∈ eventsHeld w, EventOk w.heap w.received e
  /-- The buffer being filled is live and as long as its frame. -/
  blank : ∀ f p, w.cb = .copying f p →
    ∃ m, w.heap.get p = some m ∧ m.length = f.val.bytes.length
  /-- The callback works on the frame it was called with. -/
  frame : ∀ f ∈ cbFrame w.cb, w.received[f.seq]? = some f.val
  /-- The callback's copy stays inside its buffer. -/
  cbSound : w.cb ≠ .fault
  /-- No buffer was freed twice. -/
  frees : w.deadFrees = 0

theorem owns_boot (d : ExampleEspnowData) (b : MqttT) : Owns (World.boot d b) where
  live := List.Perm.refl _
  events := by intro e he; simp [eventsHeld, World.boot, cbEvent, taskEvent] at he
  blank := by intro f p h; cases h
  frame := by intro f hf; simp [World.boot, cbFrame] at hf
  cbSound := by intro h; cases h
  frees := rfl

/-! ## How an event survives what others do -/

theorem EventOk.live {heap : Heap} {received : List Frame} {e : Tagged Event}
    (h : EventOk heap received e) : e.val.data ∈ heap.live := by
  obtain ⟨f, _, hget, _⟩ := h
  exact Heap.mem_of_get hget

/-- Frames received later do not renumber earlier ones. -/
theorem EventOk.append {heap : Heap} {received : List Frame} {e : Tagged Event} {f : Frame}
    (h : EventOk heap received e) : EventOk heap (received ++ [f]) e := by
  obtain ⟨g, hseq, hget, hev⟩ := h
  exact ⟨g, received_keep (List.prefix_append ..) hseq, hget, hev⟩

theorem EventOk.of_get {heap heap' : Heap} {received : List Frame} {e : Tagged Event}
    (hget : heap'.get e.val.data = heap.get e.val.data) (h : EventOk heap received e) :
    EventOk heap' received e := by
  obtain ⟨g, hseq, hg, hev⟩ := h
  exact ⟨g, hseq, hget.trans hg, hev⟩

theorem Owns.nodup {w : World} (h : Owns w) : (owners w).Nodup :=
  h.live.nodup_iff.mp w.heap.nodup

/-- The buffer being filled belongs to no event. -/
theorem Owns.blank_ne {w : World} (h : Owns w) {p : Ptr} (hp : p ∈ cbBlank w.cb)
    {e : Tagged Event} (he : e ∈ eventsHeld w) : e.val.data ≠ p := by
  intro heq
  have hdisj := (List.nodup_append.mp h.nodup).2.2
  exact hdisj p hp p (List.mem_map.mpr ⟨e, he, heq⟩) rfl

/--
**Freeing the buffer of an event.** The ledger without that buffer describes the
heap without it, no other owner's buffer changes, and the call was no double free.
-/
theorem Owns.free {w : World} (h : Owns w) (e : Tagged Event) (rest : List (Tagged Event))
    (hev : (eventsHeld w).Perm (e :: rest)) :
    (w.heap.free e.val.data).live.Perm (cbBlank w.cb ++ rest.map fun e => e.val.data)
      ∧ (∀ e' ∈ rest, EventOk (w.heap.free e.val.data) w.received e')
      ∧ (∀ p ∈ cbBlank w.cb, (w.heap.free e.val.data).get p = w.heap.get p)
      ∧ (w.free e.val.data).deadFrees = 0 := by
  have hmem : e ∈ eventsHeld w := hev.mem_iff.mpr (List.mem_cons_self ..)
  have hperm : w.heap.live.Perm
      (e.val.data :: (cbBlank w.cb ++ rest.map fun e => e.val.data)) :=
    (h.live.trans ((hev.map _).append_left _)).trans List.perm_middle
  have hnd := hperm.nodup_iff.mp w.heap.nodup
  refine ⟨?_, ?_, ?_, ?_⟩
  · have := hperm.erase e.val.data
    rwa [List.erase_cons_head] at this
  · intro e' he'
    have hne : e'.val.data ≠ e.val.data := by
      intro he
      refine (List.nodup_cons.mp hnd).1 (List.mem_append_right _ ?_)
      exact List.mem_map.mpr ⟨e', he', he⟩
    exact (h.events e' (hev.mem_iff.mpr (List.mem_cons_of_mem e he'))).of_get
      (Heap.get_free_ne hne)
  · intro p hp
    exact Heap.get_free_ne (h.blank_ne hp hmem).symm
  · have hlive : e.val.data ∈ w.heap.live := (h.events e hmem).live
    show (if e.val.data ∈ w.heap.live then w.deadFrees else w.deadFrees + 1) = 0
    rw [if_pos hlive]; exact h.frees

/-! ## Every step keeps the ledger -/

/-- A step that leaves the heap, the received frames and the ownership alone. -/
theorem Owns.transfer {w w' : World} (h : Owns w) (hheap : w'.heap = w.heap)
    (hrec : w'.received = w.received) (hfree : w'.deadFrees = w.deadFrees)
    (hblank : cbBlank w'.cb = cbBlank w.cb) (hev : (eventsHeld w).Perm (eventsHeld w'))
    (hcopy : ∀ f p, w'.cb = .copying f p → w.cb = .copying f p)
    (hframe : ∀ f ∈ cbFrame w'.cb, f ∈ cbFrame w.cb) (hcb : w'.cb ≠ .fault) : Owns w' where
  live := by
    rw [hheap, owners, hblank]
    exact h.live.trans ((hev.map _).append_left _)
  events := by
    intro e he
    rw [hheap, hrec]
    exact h.events e (hev.mem_iff.mpr he)
  blank := by rw [hheap]; exact fun f p hc => h.blank f p (hcopy f p hc)
  frame := by rw [hrec]; exact fun f hf => h.frame f (hframe f hf)
  cbSound := hcb
  frees := by rw [hfree]; exact h.frees

/-- A step of the callback that moves no buffer. -/
theorem Owns.callback {w w' : World} (h : Owns w) (hheap : w'.heap = w.heap)
    (hrec : w'.received = w.received) (hfree : w'.deadFrees = w.deadFrees)
    (hqueue : w'.sEspnowQueue = w.sEspnowQueue) (htask : w'.task = w.task)
    (hblank : cbBlank w'.cb = cbBlank w.cb) (hevent : cbEvent w'.cb = cbEvent w.cb)
    (hframe : ∀ f ∈ cbFrame w'.cb, f ∈ cbFrame w.cb) (hcopy : ∀ f p, w'.cb ≠ .copying f p)
    (hcb : w'.cb ≠ .fault) : Owns w' :=
  h.transfer hheap hrec hfree hblank (by rw [eventsHeld, eventsHeld, hevent, hqueue, htask])
    (fun f p hc => absurd hc (hcopy f p)) hframe hcb

/-- A callback with no event in hand owns no event. -/
theorem eventsHeld_of_no_event {w : World} (h : cbEvent w.cb = []) :
    eventsHeld w = w.sEspnowQueue ++ taskEvent w.task := by
  rw [eventsHeld, h]
  rfl

/-- A step of `espnow_task` or `mqtt_pub` that moves no buffer. -/
theorem Owns.elsewhere {w w' : World} (h : Owns w) (hheap : w'.heap = w.heap)
    (hrec : w'.received = w.received) (hfree : w'.deadFrees = w.deadFrees) (hcb : w'.cb = w.cb)
    (hqueue : w'.sEspnowQueue = w.sEspnowQueue) (htask : taskEvent w'.task = taskEvent w.task) :
    Owns w' :=
  h.transfer hheap hrec hfree (by rw [hcb]) (by rw [eventsHeld, eventsHeld, hcb, hqueue, htask])
    (fun f p hc => by rw [← hcb]; exact hc) (fun f hf => by rw [← hcb]; exact hf)
    (by rw [hcb]; exact h.cbSound)

theorem owns_step {w w' : World} {l : Label} (h : Owns w) (hs : Step w l w') : Owns w' := by
  cases hs with
  | rejected c hcb hf => exact h
  | accepted c f hcb hf =>
      have hev := eventsHeld_of_no_event (w := w) (by rw [hcb]; rfl)
      refine ⟨?_, ?_, (by intro f p hc; cases hc), ?_, (by intro hc; cases hc), h.frees⟩
      · have := h.live
        rwa [owners, hcb, hev] at this
      · intro e he
        exact (h.events e (by rw [hev]; exact he)).append
      · intro g hg
        rw [List.mem_singleton.mp hg]
        show (w.received ++ [f])[w.received.length]? = some f
        simp
  | cbTake f hcb hsem =>
      exact h.callback rfl rfl rfl rfl rfl (by rw [hcb]; rfl) (by rw [hcb]; rfl)
        (fun g hg => by rw [hcb]; exact hg) (fun _ _ => CbPc.noConfusion) CbPc.noConfusion
  | cbMalloc f p junk hp hcb hlen =>
      have hev := eventsHeld_of_no_event (w := w) (by rw [hcb]; rfl)
      refine ⟨?_, ?_, ?_, (fun g hg => h.frame g (by rw [hcb]; exact hg)),
        (by intro hc; cases hc), h.frees⟩
      · have := h.live
        rw [owners, hcb, hev] at this
        exact this.cons p
      · intro e he
        have hok := h.events e (by rw [hev]; exact he)
        exact hok.of_get (Heap.get_malloc_of_mem hp hok.live)
      · intro g q hc
        cases hc
        exact ⟨junk, Heap.get_malloc_self hp, hlen⟩
  | cbMallocFail f hcb =>
      exact h.callback rfl rfl rfl rfl rfl (by rw [hcb]; rfl) (by rw [hcb]; rfl)
        (fun g hg => absurd hg List.not_mem_nil) (fun _ _ => CbPc.noConfusion) CbPc.noConfusion
  | cbCopy f p heap hcb hcopy =>
      obtain ⟨m, hget, hlen⟩ := h.blank f p hcb
      have hev := eventsHeld_of_no_event (w := w) (by rw [hcb]; rfl)
      have howners : owners w = p :: (eventsHeld w).map fun e => e.val.data := by
        rw [owners, hcb]; rfl
      refine ⟨?_, ?_, (by intro g q hc; cases hc), (fun g hg => absurd hg List.not_mem_nil),
        (by intro hc; cases hc), h.frees⟩
      · have := h.live
        rw [howners, hev] at this
        show heap.live.Perm _
        rw [Heap.memcpy_live hcopy]
        exact this
      · intro e he
        rcases List.mem_cons.mp he with rfl | he
        · -- the new event: its buffer has just been filled with its frame
          exact ⟨f.val, h.frame f (by rw [hcb]; exact List.mem_singleton_self f),
            Heap.get_memcpy_whole hcopy hget hlen, rfl⟩
        · have hmem : e ∈ eventsHeld w := by rw [hev]; exact he
          have hne : e.val.data ≠ p := by
            intro hc
            have hnd := h.nodup
            rw [howners] at hnd
            exact (List.nodup_cons.mp hnd).1 (List.mem_map.mpr ⟨e, hmem, hc⟩)
          exact (h.events e hmem).of_get (Heap.get_memcpy_ne hcopy hne)
  | cbCopyFault f p hcb hcopy =>
      obtain ⟨m, hget, hlen⟩ := h.blank f p hcb
      have hfit : 0 + f.val.bytes.length ≤ m.length := by omega
      obtain ⟨heap, hsome, _⟩ := Heap.memcpy_of_get hget hfit
      rw [hcopy] at hsome; cases hsome
  | cbSend e hcb hlt =>
      refine h.transfer rfl rfl rfl (by rw [hcb]; rfl) ?_ (fun f p hc => by cases hc)
        (fun g hg => absurd hg List.not_mem_nil) (by intro hc; cases hc)
      rw [eventsHeld, hcb]
      show (e :: (w.sEspnowQueue ++ taskEvent w.task)).Perm
        ((w.sEspnowQueue ++ [e]) ++ taskEvent w.task)
      rw [List.append_assoc]
      exact List.perm_middle.symm
  | cbSendFail e hcb =>
      exact h.callback rfl rfl rfl rfl rfl (by rw [hcb]; rfl) (by rw [hcb]; rfl)
        (fun g hg => absurd hg List.not_mem_nil) (fun _ _ => CbPc.noConfusion) CbPc.noConfusion
  | cbFree e hcb =>
      obtain ⟨hlive, hok, _, hfree⟩ := h.free e (w.sEspnowQueue ++ taskEvent w.task)
        (by rw [eventsHeld, hcb]; exact .refl _)
      rw [hcb] at hlive
      exact ⟨hlive, hok, (by intro g q hc; cases hc), (fun g hg => absurd hg List.not_mem_nil),
        (by intro hc; cases hc), hfree⟩
  | cbGive hcb =>
      exact h.callback rfl rfl rfl rfl rfl (by rw [hcb]; rfl) (by rw [hcb]; rfl)
        (fun g hg => absurd hg List.not_mem_nil) (fun _ _ => CbPc.noConfusion) CbPc.noConfusion
  | taskSkip e rest ht hq hid =>
      -- only the callback posts events, and it posts them with the other id
      have hmem : e ∈ eventsHeld w := by rw [eventsHeld, hq]; simp
      obtain ⟨f, _, _, hev⟩ := h.events e hmem
      rw [hev] at hid; cases hid
  | taskReceive e rest ht hq hid =>
      refine h.transfer rfl rfl rfl rfl ?_ (fun f p hc => hc) (fun g hg => hg) h.cbSound
      rw [eventsHeld, hq, ht]
      refine List.Perm.append_left _ ?_
      show (e :: (rest ++ [])).Perm (rest ++ [e])
      rw [List.append_nil]
      exact (List.perm_append_singleton e rest).symm
  | taskTake e ht hsem => exact h.elsewhere rfl rfl rfl rfl rfl (by rw [ht]; rfl)
  | taskCopy e m d ht hget hc => exact h.elsewhere rfl rfl rfl rfl rfl (by rw [ht]; rfl)
  | taskCopyFault e ht hc => exact h.elsewhere rfl rfl rfl rfl rfl (by rw [ht]; rfl)
  | taskFree e ht =>
      -- the callback may be anywhere: only its own buffer is known to be another one
      obtain ⟨hlive, hok, hblank, hfree⟩ := h.free e
        (cbEvent w.cb ++ (w.sEspnowQueue ++ [])) (by
          rw [eventsHeld, ht, ← List.append_assoc, ← List.append_assoc, List.append_nil]
          exact List.perm_append_singleton e _)
      refine ⟨hlive, hok, ?_, h.frame, h.cbSound, hfree⟩
      intro f p hc
      obtain ⟨m, hget, hlen⟩ := h.blank f p hc
      have hp : p ∈ cbBlank w.cb := by rw [show w.cb = _ from hc]; exact List.mem_singleton_self p
      exact ⟨m, (hblank p hp).trans hget, hlen⟩
  | taskGive n ht => exact h.elsewhere rfl rfl rfl rfl rfl (by rw [ht]; rfl)
  | taskFill n m ht hf => exact h.elsewhere rfl rfl rfl rfl rfl (by rw [ht]; rfl)
  | taskFillFault n ht hf => exact h.elsewhere rfl rfl rfl rfl rfl (by rw [ht]; rfl)
  | taskOffer m ht hlt => exact h.elsewhere rfl rfl rfl rfl rfl (by rw [ht]; rfl)
  | taskDrop m ht hlt => exact h.elsewhere rfl rfl rfl rfl rfl (by rw [ht]; rfl)
  | _ => exact h.elsewhere rfl rfl rfl rfl rfl rfl

/-- **The task reads back the frame it was sent**, from a buffer that is still its own. -/
theorem Owns.task_frame {w : World} (h : Owns w) {e : Tagged Event} (ht : w.task = .copying e) :
    ∃ f, w.received[e.seq]? = some f ∧ w.heap.get e.val.data = some f.bytes
      ∧ f.bytes.take e.val.dataLen.toNat = f.bytes := by
  obtain ⟨f, hseq, hget, hev⟩ := h.events e (by rw [eventsHeld, ht]; simp [taskEvent])
  have hlen : e.val.dataLen.toNat = f.bytes.length := by rw [hev]; rfl
  exact ⟨f, hseq, hget, by rw [hlen, List.take_length]⟩

theorem owns_reachable {C : World → Label → Prop} {ls : List Label} {w : World}
    (hr : Runs C ls w) : Owns w :=
  runs_invariant owns_boot (fun _ _ _ _ _ h _ hs => owns_step h hs) hr

/-! ## The ledger of every run -/

/--
**Every buffer has exactly one owner.**

In every state of every run, whatever allocation or send failed on the way, the
live buffers are those of the queued events, of the event the task holds, of the
event the callback holds, and the one the callback is filling. No address is owned
twice, a queued event's buffer is live and has exactly `data_len` bytes, and no
buffer was freed twice.
-/
theorem buffers_have_one_owner {ls : List Label} {w : World} (hr : Runs (fun _ _ => True) ls w) :
    w.heap.live.Perm (cbBlank w.cb ++ (cbEvent w.cb ++ (w.sEspnowQueue ++ taskEvent w.task)).map
        fun e => e.val.data)
      ∧ (cbBlank w.cb ++ (cbEvent w.cb ++ (w.sEspnowQueue ++ taskEvent w.task)).map
        fun e => e.val.data).Nodup
      ∧ (∀ e ∈ w.sEspnowQueue, ∃ m, w.heap.get e.val.data = some m
        ∧ (m.length : Int) = e.val.dataLen)
      ∧ w.deadFrees = 0 := by
  have h := owns_reachable hr
  refine ⟨h.live, h.nodup, ?_, h.frees⟩
  intro e he
  have hmem : e ∈ eventsHeld w :=
    List.mem_append_right _ (List.mem_append_left _ he)
  obtain ⟨f, _, hget, hev⟩ := h.events e hmem
  refine ⟨f.bytes, hget, ?_⟩
  rw [hev]; rfl

/-- One frame whose send fails, and a second at the address the first one gave back. -/
def failedSend : List Label :=
  [.call oneByteCall, .cbTake, .cbMalloc 5 [0], .cbCopy, .cbSendFail, .cbFree, .cbGive] ++ deliver 5

/-- **After a failed send the ledger balances** and its address is owned by the next frame. -/
theorem one_owner_after_failed_send :
    ∃ w, Runs (fun _ _ => True) failedSend w ∧ w.heap.live = [5]
      ∧ w.heap.live.Perm
        (cbBlank w.cb ++ (cbEvent w.cb ++ (w.sEspnowQueue ++ taskEvent w.task)).map
          fun e => e.val.data)
      ∧ w.deadFrees = 0 := by
  obtain ⟨w, hrun, hlive⟩ : ∃ w, run step (World.boot (Buf.fill 128 0) (Buf.fill 140 0)) failedSend
      = some w ∧ w.heap.live = [5] := ⟨_, rfl, rfl⟩
  have hr : Runs (fun _ _ => True) failedSend w :=
    ⟨_, _, stepsMeet_of_forall fun _ _ => trivial, hrun⟩
  obtain ⟨hperm, _, _, hfrees⟩ := buffers_have_one_owner hr
  exact ⟨w, hr, hlive, hperm, hfrees⟩

end EspNowGateway.Proof
