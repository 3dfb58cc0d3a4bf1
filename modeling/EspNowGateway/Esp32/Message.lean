import EspNowGateway.Lib.CObject

/-!
# What the gateway task copies

`espnow_task` keeps two locals alive across its loop: `recv_data`, the last
received struct, and `mqttBuf`, the message it hands on. Handling one frame is a
`memcpy` of the frame over the front of `recv_data` followed by two `strcpy`s
into `mqttBuf`.

Both structs are modelled as their bytes, because neither copy is bounded by the
field it reads or writes: `recv_data.topic` runs into `recv_data.payload`, and
`mqttBuf.topic` runs into `mqttBuf.data_len` and `mqttBuf.data`. What stops a
copy is the end of the whole object.
-/

namespace EspNowGateway

open CObject

/-- `example_espnow_data_t`: `char topic[64]` at 0, `char payload[64]` at 64. -/
abbrev ExampleEspnowData := Buf 128

namespace ExampleEspnowData

def topicOff : Nat := 0

def payloadOff : Nat := 64

/-- The 64 bytes of `topic`. -/
def topic (d : ExampleEspnowData) : List UInt8 := d.slice topicOff 64

/-- The 64 bytes of `payload`. -/
def payload (d : ExampleEspnowData) : List UInt8 := d.slice payloadOff 64

end ExampleEspnowData

/-- `TOPIC_TYPE`. -/
inductive TopicType where
  | publish
  | subscribe
  | stop
  deriving DecidableEq, Repr

/-- The enumerator's value. -/
def TopicType.code : TopicType → Nat
  | .publish => 0
  | .subscribe => 1
  | .stop => 2

/--
`MQTT_t`: `int topic_type` at 0, `int topic_len` at 4, `char topic[64]` at 8,
`int data_len` at 72, `char data[64]` at 76.
-/
abbrev MqttT := Buf 140

namespace MqttT

def topicTypeOff : Nat := 0

def topicLenOff : Nat := 4

def topicOff : Nat := 8

def dataLenOff : Nat := 72

def dataOff : Nat := 76

/-- The value of `topic_type`. -/
def topicType (m : MqttT) : Nat := ofLe (m.slice topicTypeOff 4)

/--
What `esp_mqtt_client_publish(client, m.topic, m.data, 0, 1, 0)` sends: the topic
as a C string, and, the length being 0, the data as a C string.
-/
def published (m : MqttT) : Option (List UInt8 × List UInt8) :=
  (m.str topicOff).bind fun topic => (m.str dataOff).map fun data => (topic, data)

end MqttT

/-- A struct's contents after the frame's bytes are copied over its front (`espnow_task`). -/
def copyRecvData (recvData : ExampleEspnowData) (bytes : List UInt8) : Option ExampleEspnowData :=
  recvData.memcpy 0 bytes

/-- The assignments to `mqttBuf` in `espnow_task`, in the order of the source. -/
def fillMqttBuf (mqttBuf : MqttT) (recvData : ExampleEspnowData) : Option MqttT := do
  let b ← mqttBuf.memcpy MqttT.topicTypeOff (le32 TopicType.publish.code)
  let b ← b.strcpy MqttT.topicOff recvData ExampleEspnowData.topicOff
  -- the length is taken of the copy, before the data is stored behind it
  let topicLen ← b.strlen MqttT.topicOff
  let b ← b.memcpy MqttT.topicLenOff (le32 topicLen)
  let b ← b.strcpy MqttT.dataOff recvData ExampleEspnowData.payloadOff
  let dataLen ← b.strlen MqttT.dataOff
  b.memcpy MqttT.dataLenOff (le32 dataLen)

/-- The two locals of `espnow_task` that outlive an iteration of its loop. -/
structure TaskLocals where
  recvData : ExampleEspnowData
  mqttBuf : MqttT

/-- One iteration of the loop of `espnow_task`, for a frame of these bytes. -/
def handleFrame (s : TaskLocals) (bytes : List UInt8) : Option TaskLocals := do
  let recvData ← copyRecvData s.recvData bytes
  let mqttBuf ← fillMqttBuf s.mqttBuf recvData
  some { recvData := recvData, mqttBuf := mqttBuf }

/-- The loop, over one frame after another. -/
def handleFrames (s : TaskLocals) (history : List (List UInt8)) : Option TaskLocals :=
  history.foldlM handleFrame s

/-- The topic and data strings of the message enqueued for a frame. -/
def message (s : TaskLocals) (bytes : List UInt8) : Option (List UInt8 × List UInt8) :=
  (handleFrame s bytes).bind fun t => MqttT.published t.mqttBuf

/-! ## What is left in `recv_data` -/

/-- A frame no longer than the struct overwrites its front and leaves the rest as it was. -/
theorem copyRecvData_of_le (r : ExampleEspnowData) {bytes : List UInt8}
    (h : bytes.length ≤ 128) :
    ∃ d, copyRecvData r bytes = some d ∧ d.bytes = bytes ++ r.bytes.drop bytes.length := by
  refine ⟨_, Buf.memcpy_of_le r (by rw [Nat.zero_add]; exact h), ?_⟩
  rw [Buf.write_bytes, List.take_zero, List.nil_append, Nat.zero_add]

/-- What `recv_data` holds is the struct with the frame received into it. -/
theorem copyRecvData_eq_recvInto (r : ExampleEspnowData) {bytes : List UInt8}
    (h : bytes.length ≤ 128) : copyRecvData r bytes = some (r.recvInto bytes) := by
  obtain ⟨d, hd, hbytes⟩ := copyRecvData_of_le r h
  rw [hd]
  exact congrArg some (Buf.ext_bytes (hbytes.trans (Buf.recvInto_bytes r h).symm))

/-- The `memcpy` is not bounded by the struct it writes. -/
theorem copyRecvData_eq_none_iff {r : ExampleEspnowData} {bytes : List UInt8} :
    copyRecvData r bytes = none ↔ 128 < bytes.length := by
  rw [copyRecvData, Buf.memcpy_eq_none_iff, Nat.zero_add]

theorem copyRecvData_bytes {r d : ExampleEspnowData} {bytes : List UInt8}
    (h : copyRecvData r bytes = some d) : d.bytes = bytes ++ r.bytes.drop bytes.length := by
  have hle : bytes.length ≤ 128 := by
    by_contra hlt
    rw [copyRecvData_eq_none_iff.mpr (by omega)] at h
    cases h
  obtain ⟨d', hd', hbytes⟩ := copyRecvData_of_le r hle
  rw [h] at hd'
  cases hd'
  exact hbytes

/-- A frame exactly as long as the struct leaves nothing of what was there. -/
theorem copyRecvData_whole {r d : ExampleEspnowData} {bytes : List UInt8}
    (h : copyRecvData r bytes = some d) (hlen : bytes.length = 128) : d.bytes = bytes := by
  rw [copyRecvData_bytes h, List.drop_of_length_le (by rw [r.size_eq, hlen]), List.append_nil]

/-! ## What ends up in the message -/

/--
The topic string the message carries. A topic field without a NUL is copied on
into `data_len`, and the later store of `data_len` decides how it ends.
-/
def sentTopic (d : ExampleEspnowData) : List UInt8 :=
  if 0 ∈ ExampleEspnowData.topic d then cstr (ExampleEspnowData.topic d)
  else ExampleEspnowData.topic d ++ cstr (le32 (cstr (ExampleEspnowData.payload d)).length)

/-- What `strcpy` reads from `recv_data.topic`. -/
theorem str_topic {d : ExampleEspnowData} (hp : 0 ∈ ExampleEspnowData.payload d) :
    d.str ExampleEspnowData.topicOff
      = some (if 0 ∈ ExampleEspnowData.topic d then cstr (ExampleEspnowData.topic d)
          else ExampleEspnowData.topic d ++ cstr (ExampleEspnowData.payload d)) :=
  Buf.str_adjacent ExampleEspnowData.topicOff 64 hp

theorem topic_length (d : ExampleEspnowData) : (ExampleEspnowData.topic d).length = 64 :=
  Buf.slice_length d (by decide)

theorem payload_length (d : ExampleEspnowData) : (ExampleEspnowData.payload d).length = 64 :=
  Buf.slice_length d (by decide)

/-- The string at `recv_data.topic` has no NUL and, with its terminator, at most 128 bytes. -/
theorem str_topic_bound {d : ExampleEspnowData} {s : List UInt8}
    (h : d.str ExampleEspnowData.topicOff = some s) : 0 ∉ s ∧ s.length + 1 ≤ 128 := by
  have hmem : 0 ∈ d.bytes.drop ExampleEspnowData.topicOff := by
    by_contra hc
    rw [Buf.str_eq_none_iff.mpr hc] at h; cases h
  rw [Buf.str_of_mem hmem] at h
  have hs : cstr (d.bytes.drop ExampleEspnowData.topicOff) = s := Option.some.inj h
  have hlt := cstr_length_lt hmem
  rw [List.length_drop, d.size_eq] at hlt
  rw [← hs]
  exact ⟨zero_not_mem_cstr _, by omega⟩

/-! ### The five stores into `mqttBuf` -/

/-- `mqttBuf` once the topic string `s` is in place and its length stored. -/
def storeTopic (b : MqttT) (s : List UInt8) (hs : s.length + 1 ≤ 128) : MqttT :=
  ((b.write MqttT.topicTypeOff (le32 TopicType.publish.code) (by decide)).write
      MqttT.topicOff (s ++ [0])
      (by simp only [MqttT.topicOff, List.length_append, List.length_singleton]; omega)).write
    MqttT.topicLenOff (le32 s.length) (by simp only [MqttT.topicLenOff, le32_length]; omega)

/-- `mqttBuf` once the data string `q` is in place and its length stored. -/
def storeData (b : MqttT) (q : List UInt8) (hq : q.length < 64) : MqttT :=
  (b.write MqttT.dataOff (q ++ [0])
      (by simp only [MqttT.dataOff, List.length_append, List.length_singleton]; omega)).write
    MqttT.dataLenOff (le32 q.length) (by simp only [MqttT.dataLenOff, le32_length]; omega)

section Stores

variable {s q : List UInt8} (b : MqttT) (hs : s.length + 1 ≤ 128) (hq : q.length < 64)

theorem storeTopic_str (hz : 0 ∉ s) : (storeTopic b s hs).str MqttT.topicOff = some s := by
  unfold storeTopic
  exact Buf.str_write_disjoint _ _ (Buf.str_write_terminated _ _ hz) (Or.inr (Nat.le_refl _))

theorem storeTopic_type :
    (storeTopic b s hs).slice MqttT.topicTypeOff 4 = le32 TopicType.publish.code := by
  rw [storeTopic, Buf.slice_write_disjoint _ _ (Or.inl (by decide)),
    Buf.slice_write_disjoint _ _ (Or.inl (by decide))]
  exact Buf.slice_write_self b _ (le32 TopicType.publish.code) (by decide)

/-- A topic longer than its field fills the field. -/
theorem storeTopic_field {t : List UInt8} (ht : t.length = 64) (h : s = t ++ q) :
    (storeTopic b s hs).slice MqttT.topicOff 64 = t := by
  rw [storeTopic, Buf.slice_write_disjoint _ _
    (Or.inr (by simp [MqttT.topicLenOff, MqttT.topicOff]))]
  have hlen : 64 ≤ (s ++ [0]).length := by rw [h]; simp only [List.length_append, ht]; omega
  rw [Buf.slice_write_take _ _ _ _ hlen, h, List.append_assoc, List.take_left' ht]

theorem storeData_str (hz : 0 ∉ q) : (storeData b q hq).str MqttT.dataOff = some q := by
  unfold storeData
  exact Buf.str_write_disjoint _ _ (Buf.str_write_terminated _ _ hz) (Or.inr (Nat.le_refl _))

/-- Storing the data leaves the header and the topic field alone. -/
theorem storeData_slice {a len : Nat} (h : a + len ≤ MqttT.dataLenOff) :
    (storeData b q hq).slice a len = b.slice a len := by
  rw [storeData, Buf.slice_write_disjoint _ _ (Or.inl h), Buf.slice_write_disjoint _ _
    (Or.inl (Nat.le_trans h (by decide)))]

theorem storeData_topic (h : b.str MqttT.topicOff = some s) (hlen : s.length < 64) :
    (storeData b q hq).str MqttT.topicOff = some s := by
  refine Buf.str_write_disjoint _ _ (Buf.str_write_disjoint _ _ h (Or.inl ?_)) (Or.inl ?_)
  · simp only [MqttT.topicOff, MqttT.dataOff]; omega
  · simp only [MqttT.topicOff, MqttT.dataLenOff]; omega

/-- Behind a full topic field stands the stored `data_len`. -/
theorem storeData_behind_topic :
    (storeData b q hq).str (MqttT.topicOff + 64) = some (cstr (le32 q.length)) := by
  have hfield : (storeData b q hq).slice MqttT.dataLenOff 4 = le32 q.length :=
    Buf.slice_write_self _ MqttT.dataLenOff (le32 q.length)
      (by simp only [MqttT.dataLenOff, le32_length]; omega)
  have hmem : 0 ∈ (storeData b q hq).slice MqttT.dataLenOff 4 := by
    rw [hfield]; exact zero_mem_le32 (by omega)
  exact (Buf.str_of_mem_slice hmem).trans (by rw [hfield])

/-- The whole of `fillMqttBuf`, once both strings are known to fit. -/
theorem fillMqttBuf_eq {d : ExampleEspnowData}
    (htop : d.str ExampleEspnowData.topicOff = some s)
    (hpay : d.str ExampleEspnowData.payloadOff = some q) (hsz : 0 ∉ s) (hqz : 0 ∉ q) :
    fillMqttBuf b d = some (storeData (storeTopic b s hs) q hq) := by
  -- the five stores stay inside `mqttBuf`
  have f1 : MqttT.topicTypeOff + (le32 TopicType.publish.code).length ≤ 140 := by decide
  have f2 : MqttT.topicOff + (s ++ [0]).length ≤ 140 := by
    simp only [MqttT.topicOff, List.length_append, List.length_singleton]; omega
  have f3 : MqttT.topicLenOff + (le32 s.length).length ≤ 140 := by
    simp only [MqttT.topicLenOff, le32_length]; omega
  have f4 : MqttT.dataOff + (q ++ [0]).length ≤ 140 := by
    simp only [MqttT.dataOff, List.length_append, List.length_singleton]; omega
  have f5 : MqttT.dataLenOff + (le32 q.length).length ≤ 140 := by
    simp only [MqttT.dataLenOff, le32_length]; omega
  -- and the two copies and two lengths are those of `s` and `q`, whatever `mqttBuf` holds
  have e2 (b' : MqttT) : b'.strcpy MqttT.topicOff d ExampleEspnowData.topicOff
      = some (b'.write MqttT.topicOff (s ++ [0]) f2) := Buf.strcpy_of_str htop f2
  have e4 (b' : MqttT) : b'.strcpy MqttT.dataOff d ExampleEspnowData.payloadOff
      = some (b'.write MqttT.dataOff (q ++ [0]) f4) := Buf.strcpy_of_str hpay f4
  have l2 (b' : MqttT) : (b'.write MqttT.topicOff (s ++ [0]) f2).strlen MqttT.topicOff
      = some s.length := by rw [Buf.strlen, Buf.str_write_terminated _ _ hsz]; rfl
  have l4 (b' : MqttT) : (b'.write MqttT.dataOff (q ++ [0]) f4).strlen MqttT.dataOff
      = some q.length := by rw [Buf.strlen, Buf.str_write_terminated _ _ hqz]; rfl
  simp only [fillMqttBuf, bind, Option.bind, Buf.memcpy_of_le _ f1, e2, l2,
    Buf.memcpy_of_le _ f3, e4, l4, Buf.memcpy_of_le _ f5]
  rfl

end Stores

/--
**The message a struct turns into.**

With a NUL in the payload field every copy stays inside its object. The data
string is the payload field's string; the topic string is `sentTopic`.
-/
theorem fillMqttBuf_spec (b : MqttT) {d : ExampleEspnowData}
    (hp : 0 ∈ ExampleEspnowData.payload d) :
    ∃ m, fillMqttBuf b d = some m
      ∧ MqttT.topicType m = TopicType.publish.code
      ∧ MqttT.published m = some (sentTopic d, cstr (ExampleEspnowData.payload d)) := by
  have hpay : d.str ExampleEspnowData.payloadOff = some (cstr (ExampleEspnowData.payload d)) :=
    Buf.str_of_mem_slice hp
  have hqz := zero_not_mem_cstr (ExampleEspnowData.payload d)
  have hq : (cstr (ExampleEspnowData.payload d)).length < 64 := by
    have := cstr_length_lt hp
    rwa [payload_length] at this
  obtain ⟨s, hs, htop⟩ : ∃ s, s = (if 0 ∈ ExampleEspnowData.topic d
      then cstr (ExampleEspnowData.topic d)
      else ExampleEspnowData.topic d ++ cstr (ExampleEspnowData.payload d))
      ∧ d.str ExampleEspnowData.topicOff = some s := ⟨_, rfl, str_topic hp⟩
  obtain ⟨hsz, hslen⟩ := str_topic_bound htop
  refine ⟨_, fillMqttBuf_eq b hslen hq htop hpay hsz hqz, ?_, ?_⟩
  · rw [MqttT.topicType, storeData_slice _ _ (by decide), storeTopic_type]; rfl
  · have htopic : (storeData (storeTopic b s hslen) _ hq).str MqttT.topicOff
        = some (sentTopic d) := by
      unfold sentTopic
      by_cases ht : 0 ∈ ExampleEspnowData.topic d
      · -- the topic string ends inside its field and nothing stored later reaches it
        rw [if_pos ht] at hs ⊢
        have hlt := cstr_length_lt ht
        rw [topic_length, ← hs] at hlt
        rw [← hs]
        exact storeData_topic _ hq (storeTopic_str b hslen hsz) hlt
      · -- the topic field is full, so the string runs on into `data_len`
        rw [if_neg ht] at hs ⊢
        have hfield : (storeData (storeTopic b s hslen) _ hq).slice MqttT.topicOff 64
            = ExampleEspnowData.topic d := by
          rw [storeData_slice _ _ (by decide), storeTopic_field b hslen (topic_length d) hs]
        rw [← hfield] at ht
        rw [Buf.str_of_not_mem_slice ht, hfield, storeData_behind_topic]
        rfl
    rw [MqttT.published, htopic, storeData_str _ hq hqz]; rfl

/-- **Without a NUL in the payload field the second `strcpy` leaves `recv_data`.** -/
theorem fillMqttBuf_eq_none (b : MqttT) {d : ExampleEspnowData}
    (hp : 0 ∉ ExampleEspnowData.payload d) : fillMqttBuf b d = none := by
  have hnone : d.str ExampleEspnowData.payloadOff = none := by
    rw [Buf.str_eq_none_iff, Buf.drop_eq_slice]; exact hp
  have hcpy (b' : MqttT) : b'.strcpy MqttT.dataOff d ExampleEspnowData.payloadOff = none := by
    rw [Buf.strcpy, hnone]; rfl
  simp [fillMqttBuf, hcpy]

/-- **What is enqueued for a frame is read off `recv_data` alone**, whatever `mqttBuf` held. -/
theorem message_eq (s : TaskLocals) {bytes : List UInt8} (h : bytes.length ≤ 128) :
    message s bytes
      = if 0 ∈ ExampleEspnowData.payload (s.recvData.recvInto bytes) then
          some (sentTopic (s.recvData.recvInto bytes),
            cstr (ExampleEspnowData.payload (s.recvData.recvInto bytes)))
        else none := by
  have hcopy := copyRecvData_eq_recvInto s.recvData h
  by_cases hp : 0 ∈ ExampleEspnowData.payload (s.recvData.recvInto bytes)
  · obtain ⟨m, hm, _, hpub⟩ := fillMqttBuf_spec s.mqttBuf hp
    simp [message, handleFrame, hcopy, hm, hpub, hp]
  · have hnone := fillMqttBuf_eq_none s.mqttBuf hp
    simp [message, handleFrame, hcopy, hnone, hp]

end EspNowGateway
