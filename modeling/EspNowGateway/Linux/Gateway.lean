import EspNowGateway.Linux.Filter
import EspNowGateway.Lib.CObject

/-!
# The Linux gateway in C

`main` receives every packet that passes the filter into one buffer, copies 64
bytes from each of two fixed positions into the global `myData`, and publishes the
two fields as C strings. The length that `recvfrom` returns is looked at for
errors only.

Both objects are modelled whole, so a string that is not terminated inside its
field runs on into what follows it in the object, and has no value if it runs out
of the object.
-/

namespace EspNowGateway.Gateway

open CObject ClassicBpf

/-- `MAX_PACKET_LEN`. -/
def maxPacketLen : Nat := 1000

/-- `struct_message`: `char topic[64]` at 0, `char payload[64]` at 64. -/
abbrev StructMessage := Buf 128

def topicOff : Nat := 0

def payloadOff : Nat := 64

/-- `buff` of `main`, and the global `myData`. -/
structure State where
  buff : Buf maxPacketLen
  myData : StructMessage

/-- Both objects start zeroed. -/
def State.boot : State := ⟨Buf.fill maxPacketLen 0, Buf.fill 128 0⟩

/-- The two `memcpy`s out of `buff`. -/
def copyMyData (myData : StructMessage) (buff : Buf maxPacketLen) : Option StructMessage := do
  let d ← myData.memcpy topicOff (buff.slice 63 64)
  d.memcpy payloadOff (buff.slice 127 64)

/-- The topic and the payload handed to `MQTTClient_publishMessage`. -/
def published (myData : StructMessage) : Option (List UInt8 × List UInt8) := do
  let payloadlen ← myData.strlen payloadOff
  let topic ← myData.str topicOff
  some (topic, myData.slice payloadOff payloadlen)

/-- One iteration of the loop, for a packet that passed the filter, and what it publishes. -/
def onPacket (s : State) (p : List UInt8) : Option (State × (List UInt8 × List UInt8)) := do
  let buff := s.buff.recvInto p
  let myData ← copyMyData s.myData buff
  let m ← published myData
  some ({ buff := buff, myData := myData }, m)

/-- The state the loop is in after one packet after another. -/
def onPackets (s : State) (history : List (List UInt8)) : Option State :=
  history.foldlM (fun s p => (onPacket s p).map Prod.fst) s

/-- What the loop publishes for a packet. -/
def message (s : State) (p : List UInt8) : Option (List UInt8 × List UInt8) :=
  (onPacket s p).map Prod.snd

/-! ## What is published -/

/-- An iteration leaves the packet in the buffer, over what was there. -/
theorem onPacket_buff {s s' : State} {p : List UInt8} {m : List UInt8 × List UInt8}
    (h : onPacket s p = some (s', m)) : s'.buff = s.buff.recvInto p := by
  obtain ⟨d, _, hd⟩ := Option.bind_eq_some_iff.mp h
  obtain ⟨m', _, hm⟩ := Option.bind_eq_some_iff.mp hd
  cases hm
  rfl

/-- Every byte of `myData` is overwritten, whatever it held. -/
theorem copyMyData_eq (myData : StructMessage) (buff : Buf maxPacketLen) :
    ∃ d, copyMyData myData buff = some d
      ∧ d.slice topicOff 64 = buff.slice 63 64 ∧ d.slice payloadOff 64 = buff.slice 127 64 := by
  have ht : (buff.slice 63 64).length = 64 := Buf.slice_length buff (by decide)
  have hp : (buff.slice 127 64).length = 64 := Buf.slice_length buff (by decide)
  have f1 : topicOff + (buff.slice 63 64).length ≤ 128 := by rw [ht]; decide
  have f2 : payloadOff + (buff.slice 127 64).length ≤ 128 := by rw [hp]; decide
  refine ⟨(myData.write topicOff _ f1).write payloadOff _ f2, ?_, ?_, ?_⟩
  · simp only [copyMyData, Buf.memcpy_of_le _ f1, bind, Option.bind, Buf.memcpy_of_le _ f2]
  · rw [Buf.slice_write_disjoint _ f2 (Or.inl (by decide))]
    have := Buf.slice_write_self myData topicOff _ f1
    rwa [ht] at this
  · have := Buf.slice_write_self (myData.write topicOff _ f1) payloadOff _ f2
    rwa [hp] at this

/-- The topic string, which runs on into the payload when its field is full. -/
def sentTopic (topic payload : List UInt8) : List UInt8 :=
  if 0 ∈ topic then cstr topic else topic ++ payload

/-- The strings published from `myData`: none when the payload field holds no NUL. -/
theorem published_eq (d : StructMessage) :
    published d = if 0 ∈ d.slice payloadOff 64 then
        some (sentTopic (d.slice topicOff 64) (cstr (d.slice payloadOff 64)),
          cstr (d.slice payloadOff 64))
      else none := by
  by_cases h : 0 ∈ d.slice payloadOff 64
  · have hpay : d.str payloadOff = some (cstr (d.slice payloadOff 64)) := Buf.str_of_mem_slice h
    have hcut : d.slice payloadOff (cstr (d.slice payloadOff 64)).length
        = cstr (d.slice payloadOff 64) := by
      have hle := cstr_length_le (d.slice payloadOff 64)
      rw [Buf.slice_length d (by decide)] at hle
      rw [← Buf.slice_take d hle, take_cstr_length]
    have htop : d.str topicOff = _ := Buf.str_adjacent topicOff 64 h
    simp only [published, Buf.strlen, hpay, Option.map_some, bind, Option.bind, htop, hcut, if_pos h]
    rfl
  · have hnone : d.str payloadOff = none := by
      rw [Buf.str_eq_none_iff, Buf.drop_eq_slice]; exact h
    simp [published, Buf.strlen, hnone, h]

/-- **What is published for a packet is read off the buffer it was received into.** -/
theorem message_eq (s : State) (p : List UInt8) :
    message s p = if 0 ∈ (s.buff.recvInto p).slice 127 64 then
        some (sentTopic ((s.buff.recvInto p).slice 63 64)
            (cstr ((s.buff.recvInto p).slice 127 64)),
          cstr ((s.buff.recvInto p).slice 127 64))
      else none := by
  obtain ⟨d, hd, ht, hp⟩ := copyMyData_eq s.myData (s.buff.recvInto p)
  rw [← ht, ← hp, ← published_eq]
  simp only [message, onPacket, hd, bind, Option.bind]
  cases published d <;> rfl

end EspNowGateway.Gateway
