import EspNowGateway.Esp32.Pipeline
import EspNowGateway.Esp8266.MyData
import Mathlib.Logic.Function.Basic

/-!
# Boards and a gateway

Any number of boards run the sketches and send to one ESP32 gateway. The boards and the
processes of the gateway take their steps in any order.

The radio is the environment. Once `esp_now_send` has accepted a packet, the gateway's
callback may be called with it at any time, again and again, or never. `OnDataSent` is
no bound for that: it tells of an acknowledgement, which the gateway's radio gives before
it calls the callback, and a frame can wait behind a callback that is blocked. That a
radio keeps the packets of a board in order and drops repetitions, as 802.11 does with
its sequence numbers, is no part of a step but a condition on a run, `InOrder`.

`origins` is ghost: of each frame, in the order of reception, the board, the number of
the packet among those the board has sent, and the reading in it.
-/

namespace EspNowGateway

open CObject

/-- Where a frame came from. -/
structure Origin (ι : Type) where
  board : ι
  number : Nat
  reading : Reading

structure Net (ι : Type) where
  senders : ι → Sender
  gateway : World
  origins : List (Origin ι)

/-- Everything is switched on. -/
def Net.boot (ι : Type) (recvData : ExampleEspnowData) (mqttBuf : MqttT) : Net ι where
  senders := fun _ => Sender.boot
  gateway := World.boot recvData mqttBuf
  origins := []

inductive NetLabel (ι : Type) where
  /-- A statement of a board. -/
  | sender (i : ι) (l : SenderLabel)
  /-- The gateway's callback is called with a packet that a board has sent. -/
  | deliver (i : ι) (number : Nat)
  /-- Any other statement of the gateway. -/
  | gateway (l : Label)

/-- The arguments of the callback for a packet. -/
def delivery (mac : Buf 6) (bytes : List UInt8) : RecvCall where
  macAddr := some mac
  len := bytes.length
  data := some ⟨bytes, Nat.le_of_eq (Int.toNat_natCast _)⟩

section

variable {ι : Type} [DecidableEq ι]

/-- A step of the network, of boards with a sketch and a MAC address each. -/
def netStep (sketch : ι → Sketch) (mac : ι → Buf 6) (n : Net ι) : NetLabel ι → Option (Net ι)
  | .sender i l =>
      (senderStep (sketch i) (n.senders i) l).map fun s =>
        { n with senders := Function.update n.senders i s }
  | .deliver i number =>
      match (n.senders i).sent[number]? with
      | none => none
      | some (r, bytes) =>
          (step n.gateway (.call (delivery (mac i) bytes))).map fun w =>
            { n with gateway := w, origins := n.origins ++ [⟨i, number, r⟩] }
  | .gateway l =>
      match l with
      | .call _ => none
      | l => (step n.gateway l).map fun w => { n with gateway := w }

/-- The numbers of the packets of a board with which the callback is called, in the order of the calls. -/
def deliveredOf (ls : List (NetLabel ι)) (i : ι) : List Nat :=
  ls.filterMap fun
    | .deliver j number => if j = i then some number else none
    | _ => none

/-- The radio delivers the packets of a board in the order in which they were sent, and none twice. -/
def InOrder (ls : List (NetLabel ι)) (i : ι) : Prop := (deliveredOf ls i).Pairwise (· < ·)

/-- What the gateway has published of a board, in the order of publication. -/
def Net.publishedOf (n : Net ι) (i : ι) : List (List UInt8 × List UInt8) :=
  (n.gateway.published.filter fun p => (n.origins[p.seq]?).any fun o => o.board = i).map (·.val)

/-! ## What one step can do -/

/-- Every effect a step can have. -/
inductive NetStep (sketch : ι → Sketch) (mac : ι → Buf 6) (n : Net ι) : NetLabel ι → Net ι → Prop where
  | sender (i : ι) (l : SenderLabel) (s : Sender) : SenderStep (sketch i) (n.senders i) l s →
      NetStep sketch mac n (.sender i l) { n with senders := Function.update n.senders i s }
  | deliver (i : ι) (number : Nat) (r : Reading) (bytes : List UInt8) (w : World) :
      (n.senders i).sent[number]? = some (r, bytes) →
      step n.gateway (.call (delivery (mac i) bytes)) = some w →
      NetStep sketch mac n (.deliver i number)
        { n with gateway := w, origins := n.origins ++ [⟨i, number, r⟩] }
  | gateway (l : Label) (w : World) : (∀ c, l ≠ .call c) → step n.gateway l = some w →
      NetStep sketch mac n (.gateway l) { n with gateway := w }

theorem netStep_cases {sketch : ι → Sketch} {mac : ι → Buf 6} {n n' : Net ι} {l : NetLabel ι}
    (h : netStep sketch mac n l = some n') : NetStep sketch mac n l n' := by
  cases l with
  | sender i l =>
      obtain ⟨s, hs, rfl⟩ := Option.map_eq_some_iff.mp h
      exact .sender i l s (senderStep_cases hs)
  | deliver i number =>
      rw [netStep] at h
      split at h
      · cases h
      · rename_i r bytes hsent
        obtain ⟨w, hw, rfl⟩ := Option.map_eq_some_iff.mp h
        exact .deliver i number r bytes w hsent hw
  | gateway l =>
      by_cases hcall : ∃ c, l = .call c
      · obtain ⟨c, rfl⟩ := hcall
        cases h
      · have hstep : netStep sketch mac n (.gateway l)
            = (step n.gateway l).map fun w => { n with gateway := w } := by
          cases l with
          | call c => exact absurd ⟨c, rfl⟩ hcall
          | _ => rfl
        rw [hstep] at h
        obtain ⟨w, hw, rfl⟩ := Option.map_eq_some_iff.mp h
        exact .gateway l w (fun c hc => hcall ⟨c, hc⟩) hw

theorem deliveredOf_snoc (ls : List (NetLabel ι)) (l : NetLabel ι) (i : ι) :
    deliveredOf (ls ++ [l]) i = deliveredOf ls i ++ deliveredOf [l] i := List.filterMap_append ..

end

end EspNowGateway
