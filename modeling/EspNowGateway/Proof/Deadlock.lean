import EspNowGateway.Esp32.Pipeline
import Mathlib.Data.Set.Finite.Lattice

/-!
# When the receive path deadlocks

The two processes take the two resources in opposite orders. The callback takes
`xSemaphoreData` and then waits for a queue slot; the task takes an event out of
the queue and then waits for `xSemaphoreData`. If the queue is full again by the
time the callback holds the semaphore, and the task stands between its two steps,
each waits for what only the other can give.

The one step that leads there is the callback taking the semaphore while ten
events are queued and an eleventh is in the task's hands. `no_deadlock` says that
runs without that step never deadlock; `unsafe_take_deadlocks` says that after it
the callback's own next two steps end in the deadlock; `deadlock_persists` says
nothing the pipeline does ends it.
-/

namespace EspNowGateway.Proof

open EspNowGateway CObject CHeap TransitionSystem

/-- The outcomes that are not assumed to happen: `malloc` and the blocking send failing. -/
def Label.fails : Label → Bool
  | .cbMallocFail | .cbSendFail => true
  | _ => false

/--
The callback waits in `xQueueSend` on a full queue with `xSemaphoreData` taken,
and the task waits in `xSemaphoreTake`.
-/
def Deadlock (w : World) : Prop :=
  (∃ e, w.cb = .sending e) ∧ w.sEspnowQueue.length = queueLength
    ∧ (∃ e, w.task = .taking e) ∧ w.xSemaphoreData = false

/--
The callback takes the semaphore only while the queue has a free slot or the task
is not on its way to the semaphore with an event in hand.
-/
def SafeTake (w : World) (l : Label) : Prop :=
  l = .cbTake → w.sEspnowQueue.length < queueLength ∨ ∀ e, w.task ≠ .taking e

/-- The callback is past its semaphore and has not yet been let into the queue. -/
def PastTake : CbPc → Prop
  | .allocating _ | .copying _ _ | .sending _ => True
  | _ => False

/-- A callback past its semaphore does not close the circle. -/
def Clear (w : World) : Prop :=
  PastTake w.cb → w.sEspnowQueue.length < queueLength ∨ ∀ e, w.task ≠ .taking e

theorem clear_step {w w' : World} {l : Label} (hb : w.sEspnowQueue.length ≤ queueLength)
    (hc : Clear w) (hl : SafeTake w l) (hs : Step w l w') : Clear w' := by
  cases hs with
  | accepted c f hcb hf => exact fun hp => hp.elim
  -- the take is the only step that can close the circle, and it is a safe one
  | cbTake f hcb hsem => exact fun _ => hl rfl
  | cbMalloc f p junk hp hcb _ => exact fun _ => hc (by rw [hcb]; trivial)
  | cbMallocFail f hcb => exact fun hp => hp.elim
  | cbCopy f p heap hcb _ => exact fun _ => hc (by rw [hcb]; trivial)
  | cbCopyFault f p hcb _ => exact fun hp => hp.elim
  | cbSend e hcb hlt => exact fun hp => hp.elim
  | cbSendFail e hcb => exact fun hp => hp.elim
  | cbFree e hcb => exact fun hp => hp.elim
  | cbGive hcb => exact fun hp => hp.elim
  | taskSkip e rest ht hq _ => rw [hq, List.length_cons] at hb; exact fun _ => Or.inl hb
  | taskReceive e rest ht hq hid =>
      -- the event the task now holds has left a free slot behind
      rw [hq, List.length_cons] at hb
      exact fun _ => Or.inl hb
  -- elsewhere the task is not on its way to the semaphore
  | taskTake e ht _ => exact fun _ => Or.inr fun _ he => TaskPc.noConfusion he
  | taskCopy e m d ht _ _ => exact fun _ => Or.inr fun _ he => TaskPc.noConfusion he
  | taskCopyFault e ht _ => exact fun _ => Or.inr fun _ he => TaskPc.noConfusion he
  | taskFree e ht => exact fun _ => Or.inr fun _ he => TaskPc.noConfusion he
  | taskGive n ht => exact fun _ => Or.inr fun _ he => TaskPc.noConfusion he
  | taskFill n m ht _ => exact fun _ => Or.inr fun _ he => TaskPc.noConfusion he
  | taskFillFault n ht _ => exact fun _ => Or.inr fun _ he => TaskPc.noConfusion he
  | taskOffer m ht _ => exact fun _ => Or.inr fun _ he => TaskPc.noConfusion he
  | taskDrop m ht _ => exact fun _ => Or.inr fun _ he => TaskPc.noConfusion he
  | _ => exact hc

/-- **Runs whose every semaphore take is safe never deadlock**, whatever fails on the way. -/
theorem no_deadlock {ls : List Label} {w : World} (hr : Runs SafeTake ls w) : ¬ Deadlock w := by
  have hc : Clear w := runs_invariant (fun _ _ hp => hp.elim)
    (fun _ _ _ _ hr hc hl hs => clear_step (queues_bounded hr).1 hc hl hs) hr
  intro hdead
  obtain ⟨⟨e, hcb⟩, hfull, ⟨e', ht⟩, _⟩ := hdead
  rcases hc (by rw [hcb]; trivial) with hlt | hnt
  · omega
  · exact hnt e' ht

/-- Some address is not in use. -/
theorem exists_fresh (h : Heap) : ∃ p, p ∉ h.live := by
  obtain ⟨p, hp⟩ := Infinite.exists_notMem_finset h.live.toFinset
  exact ⟨p, fun hc => hp (List.mem_toFinset.mpr hc)⟩

/-- **An unsafe take is a deadlock two steps later**, and those steps are the callback's own. -/
theorem unsafe_take_deadlocks {w w' : World} (hs : step w .cbTake = some w')
    (hbad : ¬ SafeTake w .cbTake) (hb : w.sEspnowQueue.length ≤ queueLength) :
    ∃ p junk w'', run step w' [.cbMalloc p junk, .cbCopy] = some w'' ∧ Deadlock w'' := by
  have hfull : w.sEspnowQueue.length = queueLength ∧ ∃ e, w.task = .taking e := by
    by_contra hn
    refine hbad fun _ => ?_
    by_cases hlt : w.sEspnowQueue.length < queueLength
    · exact Or.inl hlt
    · exact Or.inr fun e he => hn ⟨by omega, e, he⟩
  cases step_cases hs with
  | cbTake f hcb hsem =>
      obtain ⟨p, hp⟩ := exists_fresh w.heap
      have hself : (w.heap.malloc p f.val.bytes hp).get p = some f.val.bytes :=
        Heap.get_malloc_self hp
      obtain ⟨heap, hcopy, _⟩ := Heap.memcpy_of_get hself
        (by rw [Nat.zero_add])
      refine ⟨p, f.val.bytes, { w with
        cb := .sending ⟨f.seq, recvEvent f.val p⟩, xSemaphoreData := false, heap := heap }, ?_,
        ⟨_, rfl⟩, hfull.1, hfull.2, rfl⟩
      simp [run_cons, step, cbStep, hp, hcopy]

/-- **Nothing the pipeline does ends a deadlock**, as long as the blocking send does not fail. -/
theorem deadlock_persists {w w' : World} {l : Label} (h : Deadlock w) (hl : Label.fails l = false)
    (hs : step w l = some w') : Deadlock w' := by
  obtain ⟨⟨e, hcb⟩, hfull, ⟨e', ht⟩, hsem⟩ := h
  cases step_cases hs with
  | rejected c hi _ => rw [hcb] at hi; cases hi
  | accepted c f hi _ => rw [hcb] at hi; cases hi
  | cbTake f hi _ => rw [hcb] at hi; cases hi
  | cbMalloc f p junk hp hi _ => rw [hcb] at hi; cases hi
  | cbMallocFail f hi => cases hl
  | cbCopy f p heap hi _ => rw [hcb] at hi; cases hi
  | cbCopyFault f p hi _ => rw [hcb] at hi; cases hi
  | cbSend e'' hi hlt => omega
  | cbSendFail e'' hi => cases hl
  | cbFree e'' hi => rw [hcb] at hi; cases hi
  | cbGive hi => rw [hcb] at hi; cases hi
  | taskSkip e'' rest hi _ _ => rw [ht] at hi; cases hi
  | taskReceive e'' rest hi _ _ => rw [ht] at hi; cases hi
  | taskTake e'' hi hfree => rw [hsem] at hfree; cases hfree
  | taskCopy e'' m d hi _ _ => rw [ht] at hi; cases hi
  | taskCopyFault e'' hi _ => rw [ht] at hi; cases hi
  | taskFree e'' hi => rw [ht] at hi; cases hi
  | taskGive n hi => rw [ht] at hi; cases hi
  | taskFill n m hi _ => rw [ht] at hi; cases hi
  | taskFillFault n hi _ => rw [ht] at hi; cases hi
  | taskOffer m hi _ => rw [ht] at hi; cases hi
  | taskDrop m hi _ => rw [ht] at hi; cases hi
  | _ => exact ⟨⟨e, hcb⟩, hfull, ⟨e', ht⟩, hsem⟩

/-! ## The condition is exact -/

/--
**The receive path deadlocks exactly through an unsafe take.**

A run all of whose semaphore takes are safe reaches no deadlock. And in any run,
whatever happened before, an unsafe take is followed by the deadlock as soon as
the callback has executed its `malloc` and its `memcpy`.
-/
theorem deadlock_exactly_after_unsafe_take (ls : List Label) (w : World) :
    (Runs (fun w l => Label.fails l = false ∧ SafeTake w l) ls w → ¬ Deadlock w)
      ∧ (Runs (fun _ l => Label.fails l = false) ls w →
        ∀ w', step w .cbTake = some w' → ¬ SafeTake w .cbTake →
          ∃ p junk w'', Runs (fun _ l => Label.fails l = false)
            (ls ++ [.cbTake, .cbMalloc p junk, .cbCopy]) w'' ∧ Deadlock w'') := by
  constructor
  · intro ⟨d, b, hm, hr⟩
    exact no_deadlock ⟨d, b, stepsMeet_mono (fun _ _ h => h.2) hm, hr⟩
  · intro hr w' hs hbad
    obtain ⟨p, junk, w'', hrun, hdead⟩ := unsafe_take_deadlocks hs hbad (queues_bounded hr).1
    refine ⟨p, junk, w'', runs_append hr (stepsMeet_of_forall ?_) ?_, hdead⟩
    · intro l hl
      simp only [List.mem_cons, List.not_mem_nil, or_false] at hl
      rcases hl with rfl | rfl | rfl <;> rfl
    · exact run_cons_eq_some.mpr ⟨w', hs, hrun⟩

/-! ## A schedule that deadlocks -/

/--
Twelve frames: ten fill the queue, the task takes the first out, the eleventh
fills the slot it left, and the twelfth takes the semaphore before the task does.
-/
def clash : List Label :=
  (List.range 10).flatMap deliver ++ .taskReceive :: deliver 10
    ++ [.call oneByteCall, .cbTake, .cbMalloc 11 [0], .cbCopy]

/-- **The deadlock is reachable**, with every allocation succeeding and no send failing. -/
theorem receive_path_can_deadlock :
    ∃ w, Runs (fun _ l => Label.fails l = false) clash w ∧ Deadlock w := by
  refine ⟨_, ⟨Buf.fill 128 0, Buf.fill 140 0, stepsMeet_of_forall ?_, rfl⟩,
    ⟨_, rfl⟩, rfl, ⟨_, rfl⟩, rfl⟩
  decide

end EspNowGateway.Proof
