import EspNowGateway.Lib.StaleBuffer
import EspNowGateway.Linux.Gateway

/-!
# What earlier packets leave in a publication

The C gateway receives into one buffer and never looks at how much arrived. The
filter lets packets through that end long before the payload field, and what is
published for them comes from the packet before. The question is the one asked of
`recv_data` on the ESP32, and so is the answer, with the window 64 bytes further
into a larger buffer.
-/

namespace EspNowGateway.Proof

open EspNowGateway CObject ClassicBpf StaleBuffer Gateway

/-- What is published, as a reader of `buff` up to a NUL in the payload's place. -/
def packetReader : Reader maxPacketLen (List UInt8 × List UInt8) :=
  Reader.twoFields 63 64 (by decide) (by decide) Gateway.sentTopic

theorem message_eq_read (s : Gateway.State) (p : List UInt8) :
    Gateway.message s p = packetReader.read (s.buff.recvInto p) := Gateway.message_eq s p

/-- The contents of `buff` that packets let through by the filter can leave behind. -/
def LeftByPackets (buff : Buf maxPacketLen) : Prop :=
  ∃ (h : List (List UInt8)) (s : Gateway.State), (∀ p ∈ h, Accepts bpfcode p)
    ∧ onPackets State.boot h = some s ∧ s.buff = buff

/-- **One whole frame leaves any terminated body in the buffer.** -/
theorem leftByPackets_body {body : List UInt8} (hlen : body.length = 128)
    (hz : 0 ∈ body.drop 64) :
    ∃ b, LeftByPackets b ∧ ∀ i, i < 128 → b.bytes[63 + i]? = body[i]? := by
  have hp : (frameHead ++ body).length = 191 := by rw [List.length_append, hlen]; rfl
  have hpayload : 0 ∈ (State.boot.buff.recvInto (frameHead ++ body)).slice 127 64 := by
    rw [Buf.slice_recvInto _ _ (by rw [hp]) (by decide), ← List.drop_drop (i := 64) (j := 63),
      drop_frameHead, List.take_of_length_le (by rw [List.length_drop, hlen])]
    exact hz
  have hsome := Gateway.message_eq State.boot (frameHead ++ body)
  rw [if_pos hpayload] at hsome
  obtain ⟨⟨s, m⟩, hs, _⟩ := Option.map_eq_some_iff.mp hsome
  refine ⟨s.buff, ⟨[frameHead ++ body], s, ?_, ?_, rfl⟩, ?_⟩
  · intro p hmem
    rw [List.mem_singleton.mp hmem]
    exact (frameHead_accepts body).1
  · simp [onPackets, hs]
  · intro i hi
    have hin : 63 + i < min (frameHead ++ body).length maxPacketLen := by
      rw [hp]; exact Nat.lt_min.mpr ⟨by omega, Nat.lt_of_lt_of_le (by omega) (by decide : 191 ≤ 1000)⟩
    rw [onPacket_buff hs, Buf.recvInto_getElem?, if_pos hin, ← List.getElem?_drop, drop_frameHead]

theorem leftByPackets_rich : Rich packetReader LeftByPackets := by
  intro k hlo hhi v _
  have hlo' : 127 ≤ k := hlo
  have hhi' : k < 191 := hhi
  obtain ⟨j, rfl⟩ : ∃ j, k = 63 + j := ⟨k - 63, by omega⟩
  have hlen : ((List.replicate 128 (0 : UInt8)).set j v).length = 128 := by
    rw [List.length_set, List.length_replicate]
  -- one payload byte is at `v`, and another one is the terminator
  have hz : 0 ∈ ((List.replicate 128 (0 : UInt8)).set j v).drop 64 := by
    have hother (i : Nat) (hi : 64 + i < 128) (hne : j ≠ 64 + i) :
        0 ∈ ((List.replicate 128 (0 : UInt8)).set j v).drop 64 := by
      refine List.mem_of_getElem? (i := i) ?_
      rw [List.getElem?_drop, List.getElem?_set_ne hne, List.getElem?_replicate, if_pos hi]
    by_cases hj : j = 64
    · exact hother 1 (by decide) (by omega)
    · exact hother 0 (by decide) hj
  obtain ⟨b, hb, hbytes⟩ := leftByPackets_body hlen hz
  refine ⟨b, hb, ?_⟩
  rw [hbytes j (by omega), List.getElem?_set_self (by rw [List.length_replicate]; omega)]

/--
What is published for packet `p` is the same after any two histories of packets
that passed the filter and were handled to their end: it is a function of `p`.
-/
def PacketDecides (p : List UInt8) : Prop :=
  ∀ (h h' : List (List UInt8)) (s s' : Gateway.State),
    (∀ q ∈ h, Accepts bpfcode q) → (∀ q ∈ h', Accepts bpfcode q) →
    onPackets State.boot h = some s → onPackets State.boot h' = some s' →
    ∃ m, Gateway.message s p = some m ∧ Gateway.message s' p = some m

/--
**When a publication is a function of its packet.**

Of any packet: it decides what is published for it exactly when it brings a NUL
within bytes 127 to 190, where the payload field of a whole frame stands.
-/
theorem packetDecides_iff (p : List UInt8) : PacketDecides p ↔ 0 ∈ (p.take 191).drop 127 := by
  have hread : PacketDecides p ↔ Determined packetReader LeftByPackets p := by
    constructor
    · intro hdec b b' hleft hleft'
      rcases hleft with ⟨h, s, hacc, hs, rfl⟩
      rcases hleft' with ⟨h', s', hacc', hs', rfl⟩
      rw [← message_eq_read, ← message_eq_read]
      exact hdec h h' s s' hacc hacc' hs hs'
    · intro hdet h h' s s' hacc hacc' hs hs'
      rw [message_eq_read, message_eq_read]
      exact hdet s.buff s'.buff ⟨h, s, hacc, hs, rfl⟩ ⟨h', s', hacc', hs', rfl⟩
  rw [hread, determined_iff packetReader leftByPackets_rich]
  rfl

/-- A whole frame with an empty topic and a payload of one letter. -/
def letterPacket (v : UInt8) : List UInt8 := frameHead ++ (List.replicate 128 0).set 64 v

set_option maxRecDepth 20000 in
/-- **A packet without a body is published with the payload of the packet before it.** -/
theorem frameHead_leaks :
    Accepts bpfcode frameHead ∧ radiotapLength frameHead = 24 ∧ ¬ PacketDecides frameHead := by
  refine ⟨(frameHead_accepts []).1, rfl, fun hdec => ?_⟩
  have hacc (v : UInt8) : ∀ q ∈ [letterPacket v], Accepts bpfcode q := by
    intro q hq
    rw [List.mem_singleton.mp hq]
    exact (frameHead_accepts _).1
  obtain ⟨m, hm, hm'⟩ := hdec [letterPacket 65] [letterPacket 66] _ _ (hacc 65) (hacc 66) rfl rfl
  have hA : m = ([], [65]) := (Option.some.inj hm).symm
  have hB : m = ([], [66]) := (Option.some.inj hm').symm
  rw [hA] at hB
  exact absurd hB (by decide)

end EspNowGateway.Proof
