import EspNowGateway.Lib.Transition
import EspNowGateway.Linux.Filter

/-!
# The raw socket

Both Linux programs that receive open their socket with the same calls, in this order:
`socket` for frames of every protocol, `ioctl` for the index of the interface, `bind` to
it, and `setsockopt` for the filter. An `assert` follows each one.

The kernel is the environment. A packet socket takes frames from when it is made: of every
interface, until it is bound to one, and all of them, until a filter is attached. A frame
that it has taken waits for `recvfrom`, and neither `bind` nor the filter takes it back.
Where there is no room for a frame, it is lost.

`early` and `passed` are ghost: the frames taken before the filter was attached, and since.
-/

namespace EspNowGateway

open ClassicBpf

/-- How far `create_raw_socket` has come. -/
inductive SocketPc where
  | start
  | opened
  | indexed
  | bound
  /-- It has returned. -/
  | filtering
  | aborted
  deriving DecidableEq

/-- The next call, and the `assert` behind it. -/
def SocketPc.next : SocketPc → Bool → Option SocketPc
  | .start, ok => some (if ok then .opened else .aborted)
  | .opened, ok => some (if ok then .indexed else .aborted)
  | .indexed, ok => some (if ok then .bound else .aborted)
  | .bound, ok => some (if ok then .filtering else .aborted)
  | .filtering, _ => none
  | .aborted, _ => none

/-- Whether the socket takes a frame; `own` if it came in on the interface `dev`. -/
def SocketPc.takes (pc : SocketPc) (own : Bool) (bytes : List UInt8) : Bool :=
  match pc with
  | .start | .aborted => false
  | .opened | .indexed => true
  | .bound => own
  | .filtering => own && (filter bpfcode bytes).any fun v => v ≠ 0

/-- A program with its socket. -/
structure Capture (ι : Type) where
  pc : SocketPc
  queue : List (List UInt8)
  received : List (List UInt8)
  early : List (ι × List UInt8)
  passed : List (ι × List UInt8)

def Capture.boot (ι : Type) : Capture ι := ⟨.start, [], [], [], []⟩

inductive CaptureLabel (ι : Type) where
  /-- The next call of `create_raw_socket`, and whether it succeeds. -/
  | call (ok : Bool)
  /-- A frame comes in on an interface. -/
  | frame (i : ι) (bytes : List UInt8) (room : Bool)
  /-- `recvfrom` in the loop of `main`. -/
  | recvfrom

section

variable {ι : Type} [DecidableEq ι]

/-- The socket takes a frame. -/
def Capture.put (s : Capture ι) (i : ι) (bytes : List UInt8) : Capture ι :=
  if s.pc = .filtering then
    { s with queue := s.queue ++ [bytes], passed := s.passed ++ [(i, bytes)] }
  else { s with queue := s.queue ++ [bytes], early := s.early ++ [(i, bytes)] }

/-- One step of a program that was started for the interface `dev`. -/
def captureStep (dev : ι) (s : Capture ι) : CaptureLabel ι → Option (Capture ι)
  | .call ok => (s.pc.next ok).map fun pc => { s with pc := pc }
  | .frame i bytes room => some (if s.pc.takes (i = dev) bytes && room then s.put i bytes else s)
  | .recvfrom =>
      match s.pc, s.queue with
      | .filtering, p :: rest => some { s with queue := rest, received := s.received ++ [p] }
      | _, _ => none

/-- What a step does. -/
inductive CaptureStep (dev : ι) (s : Capture ι) : CaptureLabel ι → Capture ι → Prop where
  | call (ok : Bool) (pc : SocketPc) (hpc : s.pc ≠ .filtering) (hnext : s.pc.next ok = some pc) :
      CaptureStep dev s (.call ok) { s with pc := pc }
  | early (i : ι) (bytes : List UInt8) (hpc : s.pc ≠ .filtering) (hstart : s.pc ≠ .start)
      (hown : s.pc = .bound → i = dev) :
      CaptureStep dev s (.frame i bytes true)
        { s with queue := s.queue ++ [bytes], early := s.early ++ [(i, bytes)] }
  | passed (bytes : List UInt8) (hpc : s.pc = .filtering) (hframe : EspNowAction bytes) :
      CaptureStep dev s (.frame dev bytes true)
        { s with queue := s.queue ++ [bytes], passed := s.passed ++ [(dev, bytes)] }
  | lost (i : ι) (bytes : List UInt8) (room : Bool)
      (hlost : (s.pc.takes (i = dev) bytes && room) = false) :
      CaptureStep dev s (.frame i bytes room) s
  | recvfrom (p : List UInt8) (rest : List (List UInt8)) (hpc : s.pc = .filtering)
      (hqueue : s.queue = p :: rest) :
      CaptureStep dev s .recvfrom { s with queue := rest, received := s.received ++ [p] }

theorem SocketPc.next_of_ne {pc pc' : SocketPc} {ok : Bool} (h : pc.next ok = some pc') :
    pc ≠ .filtering := by
  rintro rfl
  cases h

/-- The filter at work lets through ESP-NOW action frames of its own interface. -/
theorem takes_filtering {own : Bool} {bytes : List UInt8}
    (h : SocketPc.filtering.takes own bytes = true) : own = true ∧ EspNowAction bytes := by
  obtain ⟨hown, hfilter⟩ := Bool.and_eq_true_iff.mp h
  obtain ⟨v, hv, hne⟩ := (Option.any_eq_true _ _).mp hfilter
  exact ⟨hown, (accepts_iff bytes).mp ⟨v, hv, of_decide_eq_true hne⟩⟩

theorem captureStep_cases {dev : ι} {s s' : Capture ι} {l : CaptureLabel ι}
    (h : captureStep dev s l = some s') : CaptureStep dev s l s' := by
  cases l with
  | call ok =>
      obtain ⟨pc, hnext, rfl⟩ := Option.map_eq_some_iff.mp h
      exact .call ok pc (SocketPc.next_of_ne hnext) hnext
  | frame i bytes room =>
      obtain rfl : (if s.pc.takes (i = dev) bytes && room then s.put i bytes else s) = s' :=
        Option.some.inj h
      by_cases htaken : (s.pc.takes (i = dev) bytes && room) = true
      · obtain ⟨htakes, rfl⟩ := Bool.and_eq_true_iff.mp htaken
        rw [if_pos htaken, Capture.put]
        by_cases hpc : s.pc = .filtering
        · rw [hpc] at htakes
          obtain ⟨hown, hframe⟩ := takes_filtering htakes
          obtain rfl := of_decide_eq_true hown
          rw [if_pos hpc]
          exact .passed bytes hpc hframe
        · rw [if_neg hpc]
          refine .early i bytes hpc (fun hstart => ?_) fun hbound => ?_
          · rw [hstart] at htakes
            cases htakes
          · rw [hbound] at htakes
            exact of_decide_eq_true htakes
      · rw [if_neg htaken]
        exact .lost i bytes room (Bool.eq_false_iff.mpr htaken)
  | recvfrom =>
      rw [captureStep] at h
      split at h
      · next p rest hpc hqueue =>
          cases h
          exact .recvfrom p rest hpc hqueue
      · cases h

end

end EspNowGateway
