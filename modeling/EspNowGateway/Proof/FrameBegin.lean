import EspNowGateway.Linux.Gateway
import EspNowGateway.Linux.Receiver

/-!
# Where the frame begins

The filter reads the length of the radiotap header from each packet. The two
programs behind it do not: the gateway copies from byte 63 and the Receiver walks
from byte 56, wherever the frame may be. The three agree on the packets whose
header has the 24 bytes that those constants stand for, and on no others.
-/

namespace EspNowGateway.Proof

open EspNowGateway CObject CHeap ClassicBpf

/--
The gateway takes the two fields from where the filter's frame has them, when the
packet reaches that far and fits `buff`.
-/
def GatewayAgrees (p : List UInt8) : Prop :=
  radiotapLength p + 39 + 128 ≤ p.length → p.length ≤ Gateway.maxPacketLen →
    ∀ s : Gateway.State, ∃ d, Gateway.copyMyData s.myData (s.buff.recvInto p) = some d
      ∧ d.slice Gateway.topicOff 64 = (p.drop (radiotapLength p + 39)).take 64
      ∧ d.slice Gateway.payloadOff 64 = (p.drop (radiotapLength p + 103)).take 64

/--
The first element that the Receiver decodes is the one that the filter looked at:
it stands 32 bytes behind the radiotap header, and its id, organization and type
are those the filter asks for.
-/
def ReceiverAgrees (p : List UInt8) : Prop :=
  p.length ≤ Receiver.maxPacketLen →
    ∀ (recvData : Buf Receiver.maxPacketLen) (oracle : Nat → Heap.Realloc) (heap : Heap)
      (totalBody : Ptr) (o : Receiver.Outcome),
      Receiver.elementLoop (recvData.recvInto p) oracle heap totalBody = some o →
      ∃ bodyLength rest, o.state.walked = (radiotapLength p + 32, bodyLength) :: rest
        ∧ ∃ len, (recvData.recvInto p).read (radiotapLength p + 32) 6
          = some [0xdd, len, 0x18, 0xfe, 0x34, 4]

theorem gatewayAgrees_of_eq {p : List UInt8} (hR : radiotapLength p = 24) : GatewayAgrees p := by
  intro hlong hfit s
  rw [hR] at hlong ⊢
  obtain ⟨d, hd, htopic, hpayload⟩ := Gateway.copyMyData_eq s.myData (s.buff.recvInto p)
  refine ⟨d, hd, ?_, ?_⟩
  · rw [htopic, Buf.slice_recvInto _ _ (by omega) (by decide)]
  · rw [hpayload, Buf.slice_recvInto _ _ (by omega) (by decide)]

theorem receiverAgrees_of_eq {p : List UInt8} (h : EspNowAction p) (hR : radiotapLength p = 24) :
    ReceiverAgrees p := by
  intro hfit recvData oracle heap totalBody o hrun
  obtain ⟨rest, hwalked⟩ := Receiver.elementLoop_first hrun
  have hlong := h.length
  have hread : (recvData.recvInto p).read (radiotapLength p + 32) 6
      = some [0xdd, byteAt p (radiotapLength p + 33), 0x18, 0xfe, 0x34, 4] := by
    rw [Buf.read_recvInto recvData (by omega) (by omega), h.element]
  exact ⟨_, rest, by rw [hR]; exact hwalked, _, hread⟩

/-- The walk begins at byte 56 of every packet. -/
theorem ReceiverAgrees.eq {p : List UInt8} (hfit : p.length ≤ Receiver.maxPacketLen)
    (h : ReceiverAgrees p) : radiotapLength p = 24 := by
  have recvData : Buf Receiver.maxPacketLen := Buf.fill _ 0
  obtain ⟨o, hrun⟩ := Receiver.elementLoop_total (recvData.recvInto p) (fun _ => .fail)
    Heap.empty 0
  obtain ⟨_, _, hwalked, _⟩ := h hfit recvData _ _ _ o hrun
  obtain ⟨_, hfirst⟩ := Receiver.elementLoop_first hrun
  rw [hfirst] at hwalked
  have hoff : 56 = radiotapLength p + 32 :=
    congrArg Prod.fst (List.cons.inj hwalked).1
  omega

/--
**When the three agree on where the frame begins.**

Of a packet that passed the filter and fits the Receiver's buffer: the gateway and
the Receiver both read the frame that the filter found exactly when its radiotap
header has 24 bytes.
-/
theorem frameBegin_iff {p : List UInt8} (hacc : Accepts bpfcode p)
    (hfit : p.length ≤ Receiver.maxPacketLen) :
    GatewayAgrees p ∧ ReceiverAgrees p ↔ radiotapLength p = 24 := by
  constructor
  · intro hagree
    exact hagree.2.eq hfit
  · intro hR
    exact ⟨gatewayAgrees_of_eq hR, receiverAgrees_of_eq ((accepts_iff p).mp hacc) hR⟩

/-- **A whole frame behind 24 bytes of radiotap is read alike by the three.** -/
theorem whole_frame_agrees :
    GatewayAgrees (frameHead ++ List.replicate 128 0)
      ∧ ReceiverAgrees (frameHead ++ List.replicate 128 0) :=
  (frameBegin_iff (frameHead_accepts _).1
    (by rw [List.length_append, List.length_replicate]; decide)).mpr (frameHead_accepts _).2

/-- A frame behind a radiotap header of 18 bytes, with the topic `"A"`. -/
def shortHeader : List UInt8 :=
  ([0, 0, 18, 0] ++ List.replicate 14 0 ++ frameHead.drop 24) ++ (65 :: List.replicate 127 0)

/-- **Behind 18 bytes of radiotap, both programs read somewhere else than the filter did.** -/
theorem shortHeader_disagrees :
    Accepts bpfcode shortHeader ∧ shortHeader.length ≤ Gateway.maxPacketLen
      ∧ radiotapLength shortHeader + 39 + 128 ≤ shortHeader.length
      ∧ ¬ GatewayAgrees shortHeader ∧ ¬ ReceiverAgrees shortHeader := by
  have hhead : EspNowAction ([0, 0, 18, 0] ++ List.replicate 14 0 ++ frameHead.drop 24) :=
    ⟨by decide, by decide, by decide, by decide, by decide, by decide, by decide⟩
  have hR : radiotapLength shortHeader = 18 := rfl
  have hlen : shortHeader.length = 185 := rfl
  refine ⟨(accepts_iff _).mpr (hhead.append _), by rw [hlen]; decide, by rw [hlen, hR],
    fun h => ?_, fun h => ?_⟩
  · obtain ⟨d, hd, htopic, _⟩ := h (by rw [hlen, hR]) (by rw [hlen]; decide) Gateway.State.boot
    obtain ⟨d', hd', htopic', _⟩ := Gateway.copyMyData_eq Gateway.State.boot.myData
      (Gateway.State.boot.buff.recvInto shortHeader)
    rw [hd] at hd'
    cases hd'
    -- byte 63 of the packet is a zero of the body, and byte 57 is the `A`
    rw [htopic', Buf.slice_recvInto _ _ (by rw [hlen]; decide) (by decide)] at htopic
    exact absurd (congrArg List.head? htopic) (by decide)
  · have := h.eq (by rw [hlen]; decide)
    rw [hR] at this
    cases this

end EspNowGateway.Proof
