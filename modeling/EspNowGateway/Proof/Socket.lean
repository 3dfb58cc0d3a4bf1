import EspNowGateway.Linux.Socket
import EspNowGateway.Proof.MainLoops

/-!
# What comes through the socket

The filter is attached last. What the socket has taken by then stays in its queue, and is
read first: frames of any kind, and of any interface as long as the socket was not bound.
From there on only ESP-NOW action frames of the interface follow. `main` does not tell the
one from the other, and publishes both.
-/

namespace EspNowGateway.Proof

open EspNowGateway CObject ServerLoop TransitionSystem

variable {ι : Type}

/-- What is used of a program and its socket. -/
structure CaptureInv (dev : ι) (s : Capture ι) : Prop where
  /-- What was read, and then what waits, is what was taken: the early frames first. -/
  order : s.received ++ s.queue = (s.early ++ s.passed).map (·.2)
  unread : s.pc ≠ .filtering → s.received = [] ∧ s.passed = []
  passed : ∀ f ∈ s.passed, f.1 = dev ∧ EspNowAction f.2

theorem captureInv_boot (dev : ι) : CaptureInv dev (Capture.boot ι) :=
  ⟨rfl, fun _ => ⟨rfl, rfl⟩, fun _ hf => absurd hf List.not_mem_nil⟩

theorem captureInv_step [DecidableEq ι] {dev : ι} {s s' : Capture ι} {l : CaptureLabel ι} (h : CaptureInv dev s)
    (hs : CaptureStep dev s l s') : CaptureInv dev s' := by
  cases hs with
  | call ok pc hpc hnext => exact ⟨h.order, fun _ => h.unread hpc, h.passed⟩
  | lost i bytes room hlost => exact h
  | early i bytes hpc hstart hown =>
      obtain ⟨hreceived, hpassed⟩ := h.unread hpc
      refine ⟨?_, h.unread, h.passed⟩
      have horder := h.order
      rw [hreceived, hpassed, List.nil_append, List.append_nil] at horder
      show s.received ++ (s.queue ++ [bytes]) = ((s.early ++ [(i, bytes)]) ++ s.passed).map (·.2)
      rw [hreceived, hpassed, List.nil_append, List.append_nil, List.map_append, horder]
      rfl
  | passed bytes hpc hframe =>
      refine ⟨?_, fun hne => absurd hpc hne, fun f hf => ?_⟩
      · show s.received ++ (s.queue ++ [bytes]) = (s.early ++ (s.passed ++ [(dev, bytes)])).map (·.2)
        have hnew : [bytes] = [(dev, bytes)].map (·.2) := rfl
        rw [← List.append_assoc, h.order, hnew, ← List.map_append, List.append_assoc]
      · rcases List.mem_append.mp hf with hold | hnew
        · exact h.passed f hold
        · obtain rfl := List.mem_singleton.mp hnew
          exact ⟨rfl, hframe⟩
  | recvfrom p rest hpc hqueue =>
      refine ⟨?_, fun hne => absurd hpc hne, h.passed⟩
      show (s.received ++ [p]) ++ rest = _
      rw [← h.order, hqueue, List.append_assoc]
      rfl

theorem captureInv_run [DecidableEq ι] {dev : ι} {ls : List (CaptureLabel ι)} {s : Capture ι}
    (hr : run (captureStep dev) (Capture.boot ι) ls = some s) : CaptureInv dev s :=
  run_invariant (captureInv_boot dev) (fun _ _ _ h _ hs => captureInv_step h (captureStep_cases hs))
    (stepsMeet_true ls) hr

/-- What was read: the early frames, and then frames that the filter has let through. -/
theorem CaptureInv.heard {dev : ι} {s : Capture ι} (h : CaptureInv dev s) :
    ∃ heard, s.received = heard.map (·.2) ∧ heard <+: s.early ++ s.passed
      ∧ ∀ f ∈ heard.drop s.early.length, f.1 = dev ∧ EspNowAction f.2 := by
  refine ⟨(s.early ++ s.passed).take s.received.length, ?_, List.take_prefix _ _, fun f hf => ?_⟩
  · rw [List.map_take, ← h.order, List.take_left]
  · refine h.passed f ?_
    have hdrop := (List.take_sublist s.received.length (s.early ++ s.passed)).drop s.early.length
    rw [List.drop_left] at hdrop
    exact hdrop.subset hf

/--
**The filter comes after the first frames.**

In every run of a program that was started for `dev`, with frames on any interface at any
time: what the C gateway publishes is what it would publish of the frames it has read,
one by one. These are the ones that its socket had taken before the filter was attached,
whatever they are, and after them only ESP-NOW action frames of `dev`.
-/
theorem early_frames_published [DecidableEq ι] {dev : ι} {ls : List (CaptureLabel ι)} {s : Capture ι}
    (hr : run (captureStep dev) (Capture.boot ι) ls = some s) (turns : List (Turn (List UInt8)))
    (hturns : requests turns = s.received) (hterminated : ∀ p ∈ s.received, Terminated p) :
    (∃ r, Gateway.main true turns = some r
        ∧ r.published.map some = s.received.map (Gateway.message Gateway.State.boot))
      ∧ ∃ heard, s.received = heard.map (·.2) ∧ heard <+: s.early ++ s.passed
        ∧ ∀ f ∈ heard.drop s.early.length, f.1 = dev ∧ EspNowAction f.2 := by
  obtain ⟨r, hmain, hpublished, _⟩ := main_of_terminated (hturns ▸ hterminated)
  exact ⟨⟨r, hmain, hturns ▸ hpublished.symm⟩, (captureInv_run hr).heard⟩

/-- A beacon behind a radiotap header of 24 bytes. -/
def beacon : List UInt8 :=
  [0, 0, 24, 0] ++ List.replicate 20 0 ++ [0x80] ++ List.replicate 166 0

theorem takes_beacon (own : Bool) : SocketPc.filtering.takes own beacon = false := by
  cases own <;> decide +kernel

theorem takes_of_accepts {p : List UInt8} (h : ClassicBpf.Accepts bpfcode p) :
    SocketPc.filtering.takes true p = true := by
  obtain ⟨v, hv, hne⟩ := h
  rw [SocketPc.takes, Bool.true_and]
  exact (Option.any_eq_true _ _).mpr ⟨v, hv, decide_eq_true hne⟩

/-- A frame of another interface before `bind`, and two of `dev` once the filter is attached. -/
def earlyFrame (b p q : List UInt8) : List (CaptureLabel Bool) :=
  [.call true, .frame false b true, .call true, .call true, .call true, .frame true p true,
    .frame true q true, .recvfrom, .recvfrom]

theorem earlyFrame_run {b p q : List UInt8} (hp : SocketPc.filtering.takes true p = true)
    (hq : SocketPc.filtering.takes true q = false) :
    run (captureStep true) (Capture.boot Bool) (earlyFrame b p q)
      = some ⟨.filtering, [], [b, p], [(false, b)], [(true, p)]⟩ := by
  have hb : SocketPc.opened.takes false b = true := rfl
  simp [earlyFrame, run_cons, captureStep, Capture.boot, SocketPc.next, Capture.put, hb, hp, hq]

theorem message_beacon : Gateway.message Gateway.State.boot beacon = some ([], []) := by
  decide +kernel

/-- **The beacon is published as well.** -/
theorem beacon_published :
    ∃ r, Gateway.main true [.request beacon, .request (frameHead ++ firstBytes)] = some r
      ∧ r.published = [([], []), pair firstReading] := by
  have hterminated : ∀ p ∈ [beacon, frameHead ++ firstBytes], Terminated p := by
    intro p hp
    rcases List.mem_cons.mp hp with rfl | hp
    · rw [Terminated]
      decide
    · obtain rfl := List.mem_singleton.mp hp
      exact terminated_firstPacket
  have hrun := earlyFrame_run (b := beacon) (takes_of_accepts (frameHead_accepts firstBytes).1)
    (takes_beacon true)
  obtain ⟨⟨r, hmain, hpublished⟩, _⟩ := early_frames_published hrun
    [.request beacon, .request (frameHead ++ firstBytes)] rfl hterminated
  refine ⟨r, hmain, List.map_injective_iff.mpr (fun _ _ => Option.some.inj) (hpublished.trans ?_)⟩
  show [_, _] = [_, _]
  rw [message_beacon, message_firstPacket]

end EspNowGateway.Proof
