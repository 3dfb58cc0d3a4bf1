import EspNowGateway.Esp32.Pipeline

/-!
# What a call of the receive callback leaves behind

`example_espnow_recv_cb` has four exits: the argument check before anything was
acquired, the failed `malloc` behind the semaphore's take, the failed send behind
the allocation, and the end. Each should leave the semaphore available, and either
an event with its buffer in the queue or nothing. The second one does not.
-/

namespace EspNowGateway.Proof

open EspNowGateway CObject CHeap TransitionSystem

/-! ## Balance -/

/-- Exactly one event was posted, with the sender and a fresh copy of the `len` bytes. -/
def Posted (c : RecvCall) (w w' : World) : Prop :=
  ∃ mac d e, c.macAddr = some mac ∧ c.data = some d ∧ 0 < c.len
    ∧ w'.sEspnowQueue = w.sEspnowQueue ++ [e]
    ∧ e.val = { id := .recvCb, macAddr := mac, data := e.val.data, dataLen := c.len }
    ∧ e.val.data ∉ w.heap.live
    ∧ w'.heap.live = e.val.data :: w.heap.live
    ∧ w'.heap.get e.val.data = some (d.val.take c.len.toNat)

/-- Nothing was posted, and no block is live that was not before. -/
def Untouched (w w' : World) : Prop :=
  w'.sEspnowQueue = w.sEspnowQueue ∧ w'.heap.live = w.heap.live

/-- The state a call should return in. -/
def Balanced (c : RecvCall) (w w' : World) : Prop :=
  w'.xSemaphoreData = true ∧ (Posted c w w' ∨ Untouched w w')

/-- The steps that may lie between a call and its return: `espnow_task` makes none. -/
def WithoutTask : Label → Prop
  | .call _ => False
  | .taskReceive | .taskTake | .taskCopy | .taskFree | .taskGive | .taskFill | .taskOffer => False
  | _ => True

/-! ## A call under way -/

/-- The frame has been copied to a fresh block, and the event that names it is made. -/
structure FreshCopy (w : World) (f : Frame) (e : Tagged Event) (heap : Heap) : Prop where
  event : e.val = recvEvent f e.val.data
  fresh : e.val.data ∉ w.heap.live
  live : heap.live = e.val.data :: w.heap.live
  bytes : heap.get e.val.data = some f.bytes

/-- The event is in the queue, or nothing has happened. -/
def Settled (w : World) (f : Frame) (v : World) : Prop :=
  (∃ e, v.sEspnowQueue = w.sEspnowQueue ++ [e] ∧ FreshCopy w f e v.heap) ∨ Untouched w v

/-- How far a call with frame `f`, entered in `w`, has come; `failed` says that its `malloc` did. -/
def Progress (w : World) (f : Frame) (failed : Prop) (v : World) : Prop :=
  match v.cb with
  | .taking g => ¬ failed ∧ g.val = f ∧ Untouched w v
  | .allocating g => ¬ failed ∧ g.val = f ∧ v.xSemaphoreData = false ∧ Untouched w v
  | .copying g p => ¬ failed ∧ g.val = f ∧ v.sEspnowQueue = w.sEspnowQueue
      ∧ p ∉ w.heap.live ∧ v.heap.live = p :: w.heap.live
      ∧ ∃ junk, v.heap.get p = some junk ∧ junk.length = f.bytes.length
  | .sending e => ¬ failed ∧ v.sEspnowQueue = w.sEspnowQueue ∧ FreshCopy w f e v.heap
  | .freeing e => ¬ failed ∧ v.sEspnowQueue = w.sEspnowQueue ∧ FreshCopy w f e v.heap
  | .giving => ¬ failed ∧ Settled w f v
  | .idle => (¬ failed ∧ v.xSemaphoreData = true ∧ Settled w f v)
      ∨ (failed ∧ v.xSemaphoreData = false)
  | .fault => False

/-- **What one step does to a call under way.** -/
theorem progress_step {w v v' : World} {f : Frame} {failed : Prop} {l : Label}
    (h : Progress w f failed v) (hl : WithoutTask l) (hs : Step v l v') :
    Progress w f (failed ∨ l = .cbMallocFail) v' := by
  have hsame (hne : l ≠ .cbMallocFail) : (failed ∨ l = .cbMallocFail) = failed :=
    propext (or_iff_left hne)
  unfold Progress at h
  cases hs with
  | rejected | accepted => exact hl.elim
  | cbTake g hcb _ =>
      rw [hsame Label.noConfusion]
      simp only [hcb] at h
      obtain ⟨hno, hval, hfree⟩ := h
      exact ⟨hno, hval, rfl, hfree⟩
  | cbMalloc g p junk hfresh hcb hlen =>
      rw [hsame Label.noConfusion]
      simp only [hcb] at h
      obtain ⟨hno, hval, _, hqueue, hlive⟩ := h
      refine ⟨hno, hval, hqueue, hlive ▸ hfresh, congrArg (p :: ·) hlive, junk,
        Heap.get_malloc_self hfresh, ?_⟩
      rw [← hval]
      exact hlen
  | cbMallocFail g hcb =>
      simp only [hcb] at h
      obtain ⟨_, _, hsem, _⟩ := h
      exact Or.inr ⟨Or.inr rfl, hsem⟩
  | cbCopy g p heap hcb hcopy =>
      rw [hsame Label.noConfusion]
      simp only [hcb] at h
      obtain ⟨hno, hval, hqueue, hfresh, hlive, junk, hget, hlen⟩ := h
      subst hval
      exact ⟨hno, hqueue, rfl, hfresh, (Heap.memcpy_live hcopy).trans hlive,
        Heap.get_memcpy_whole hcopy hget hlen⟩
  | cbCopyFault g p hcb hcopy =>
      -- the block was allocated for just these bytes
      exfalso
      simp only [hcb] at h
      obtain ⟨_, hval, _, _, _, junk, hget, hlen⟩ := h
      rw [← hval] at hlen
      obtain ⟨heap, hput, _⟩ := Heap.memcpy_of_get hget
        (show 0 + g.val.bytes.length ≤ junk.length by omega)
      rw [hcopy] at hput
      cases hput
  | cbSend e hcb _ =>
      rw [hsame Label.noConfusion]
      simp only [hcb] at h
      obtain ⟨hno, hqueue, hcopied⟩ := h
      exact ⟨hno, Or.inl ⟨e, congrArg (· ++ [e]) hqueue, hcopied⟩⟩
  | cbSendFail e hcb =>
      rw [hsame Label.noConfusion]
      simp only [hcb] at h
      exact h
  | cbFree e hcb =>
      rw [hsame Label.noConfusion]
      simp only [hcb] at h
      obtain ⟨hno, hqueue, hcopied⟩ := h
      refine ⟨hno, Or.inr ⟨hqueue, ?_⟩⟩
      show v.heap.live.erase e.val.data = _
      rw [hcopied.live]
      exact List.erase_cons_head ..
  | cbGive hcb =>
      rw [hsame Label.noConfusion]
      simp only [hcb] at h
      obtain ⟨hno, hsettled⟩ := h
      exact Or.inl ⟨hno, rfl, hsettled⟩
  | taskSkip | taskReceive | taskTake | taskCopy | taskCopyFault | taskFree => exact hl.elim
  | taskGive | taskFill | taskFillFault | taskOffer | taskDrop => exact hl.elim
  | _ =>
      -- a step of `mqtt_pub` or of the MQTT client: nothing of all this is theirs
      rw [hsame Label.noConfusion]
      exact h

/-- Between two calls only steps of the publisher and its client are left. -/
theorem idle_step {v v' : World} {l : Label} (hcb : v.cb = .idle) (hl : WithoutTask l)
    (hs : Step v l v') :
    l ≠ .cbMallocFail ∧ v'.cb = .idle ∧ v'.xSemaphoreData = v.xSemaphoreData ∧ Untouched v v' := by
  cases hs with
  | rejected | accepted => exact hl.elim
  | cbTake g hc _ => rw [hcb] at hc; cases hc
  | cbMalloc g p junk _ hc _ => rw [hcb] at hc; cases hc
  | cbMallocFail g hc => rw [hcb] at hc; cases hc
  | cbCopy g p heap hc _ => rw [hcb] at hc; cases hc
  | cbCopyFault g p hc _ => rw [hcb] at hc; cases hc
  | cbSend e hc _ => rw [hcb] at hc; cases hc
  | cbSendFail e hc => rw [hcb] at hc; cases hc
  | cbFree e hc => rw [hcb] at hc; cases hc
  | cbGive hc => rw [hcb] at hc; cases hc
  | taskSkip | taskReceive | taskTake | taskCopy | taskCopyFault | taskFree => exact hl.elim
  | taskGive | taskFill | taskFillFault | taskOffer | taskDrop => exact hl.elim
  | _ => exact ⟨Label.noConfusion, hcb, rfl, rfl, rfl⟩

/-! ## A whole call -/

section

variable {w v : World} {c : RecvCall} {ls : List Label}

/-- A call that was rejected leaves everything as it was, and cannot fail to allocate. -/
theorem rejected_run (hidle : w.cb = .idle) (hls : ∀ l ∈ ls, WithoutTask l)
    (hrun : run step w ls = some v) :
    .cbMallocFail ∉ ls ∧ v.cb = .idle ∧ v.xSemaphoreData = w.xSemaphoreData ∧ Untouched w v := by
  refine run_induction (P := fun ls v => .cbMallocFail ∉ ls ∧ v.cb = .idle
      ∧ v.xSemaphoreData = w.xSemaphoreData ∧ Untouched w v)
    ⟨List.not_mem_nil, hidle, rfl, rfl, rfl⟩ ?_ ls v (stepsMeet_of_forall hls) hrun
  intro ls v l v' _ _ hrest hl hs
  obtain ⟨hno, hcb, hsem, hqueue, hlive⟩ := hrest
  obtain ⟨hne, hcb', hsem', hqueue', hlive'⟩ := idle_step hcb hl (step_cases hs)
  refine ⟨?_, hcb', hsem'.trans hsem, hqueue'.trans hqueue, hlive'.trans hlive⟩
  rw [List.mem_append, List.mem_singleton]
  exact fun hmem => hmem.elim hno fun he => hne he.symm

theorem progress_run {f : Frame} (hfresh : Progress w f False v)
    (hls : ∀ l ∈ ls, WithoutTask l) {v' : World} (hrun : run step v ls = some v') :
    Progress w f (.cbMallocFail ∈ ls) v' :=
  run_mark (P := Progress w f) hfresh
    (fun _ _ _ _ h hl hs => progress_step h hl (step_cases hs)) (stepsMeet_of_forall hls) hrun

theorem frame_eq_some {f : Frame} (h : c.frame = some f) :
    ∃ d, c.macAddr = some f.macAddr ∧ c.data = some d ∧ 0 < c.len
      ∧ f.bytes = d.val.take c.len.toNat := by
  unfold RecvCall.frame at h
  split at h
  · rename_i mac d hmac hdata
    split at h
    · rename_i hpos
      cases h
      exact ⟨d, hmac, hdata, hpos, rfl⟩
    · cases h
  · cases h

/-- What was copied is what the arguments say. -/
theorem FreshCopy.posted {f : Frame} {e : Tagged Event} (h : FreshCopy w f e v.heap)
    (hf : c.frame = some f) (hqueue : v.sEspnowQueue = w.sEspnowQueue ++ [e]) : Posted c w v := by
  obtain ⟨d, hmac, hdata, hpos, hbytes⟩ := frame_eq_some hf
  have hlen : (f.bytes.length : Int) = c.len := by
    have := d.property
    rw [hbytes, List.length_take]
    omega
  refine ⟨f.macAddr, d, e, hmac, hdata, hpos, hqueue, ?_, h.fresh, h.live, ?_⟩
  · rw [h.event, recvEvent, hlen]
  · rw [← hbytes]
    exact h.bytes

/--
**A call leaves balance behind exactly when its `malloc` did not fail.**

`ls` is what happens between the call and its return, other than by `espnow_task`.
-/
theorem balanced_iff (hidle : w.cb = .idle) (hsem : w.xSemaphoreData = true)
    (hls : ∀ l ∈ ls, WithoutTask l) (hrun : run step w (.call c :: ls) = some v)
    (hret : v.cb = .idle) : Balanced c w v ↔ .cbMallocFail ∉ ls := by
  obtain ⟨m, hcall, hrest⟩ := run_cons_eq_some.mp hrun
  cases step_cases hcall with
  | rejected _ _ _ =>
      obtain ⟨hno, _, hsem', hfree⟩ := rejected_run hidle hls hrest
      exact iff_of_true ⟨hsem'.trans hsem, Or.inr hfree⟩ hno
  | accepted _ f _ hf =>
      have hentered : Progress w f False
          { w with cb := .taking ⟨w.received.length, f⟩, received := w.received ++ [f] } :=
        ⟨not_false, rfl, rfl, rfl⟩
      have hprogress := progress_run hentered hls hrest
      unfold Progress at hprogress
      simp only [hret] at hprogress
      rcases hprogress with ⟨hno, hsem', hsettled⟩ | ⟨hyes, hsem'⟩
      · refine iff_of_true ⟨hsem', ?_⟩ hno
        rcases hsettled with ⟨e, hqueue, hcopied⟩ | hfree
        · exact Or.inl (hcopied.posted hf hqueue)
        · exact Or.inr hfree
      · refine iff_of_false ?_ (not_not_intro hyes)
        intro h
        rw [h.1] at hsem'
        cases hsem'

end

/-- **A frame that gets through**: one byte, delivered at boot. -/
theorem delivered_byte_balanced :
    ∃ v, run step (World.boot (Buf.fill 128 0) (Buf.fill 140 0)) (deliver 0) = some v
      ∧ Balanced oneByteCall (World.boot (Buf.fill 128 0) (Buf.fill 140 0)) v := by
  have hls : ∀ l ∈ [.cbTake, .cbMalloc 0 [0], .cbCopy, .cbSend, .cbGive], WithoutTask l := by
    intro l hl
    simp only [List.mem_cons, List.not_mem_nil, or_false] at hl
    rcases hl with rfl | rfl | rfl | rfl | rfl <;> trivial
  refine ⟨_, rfl, (balanced_iff rfl rfl hls rfl rfl).mpr ?_⟩
  simp

/-- **A frame that finds no memory** takes the semaphore away with it. -/
theorem failed_malloc_unbalanced :
    ∃ v, run step (World.boot (Buf.fill 128 0) (Buf.fill 140 0))
        [.call oneByteCall, .cbTake, .cbMallocFail] = some v
      ∧ v.cb = .idle
      ∧ ¬ Balanced oneByteCall (World.boot (Buf.fill 128 0) (Buf.fill 140 0)) v := by
  refine ⟨_, rfl, rfl, ?_⟩
  intro h
  exact Bool.noConfusion h.1

end EspNowGateway.Proof
