import EspNowGateway.Esp32.Message
import EspNowGateway.Linux.Gateway
import EspNowGateway.Linux.PyGateway

/-!
# Three decoders of one layout

The ESP32 gateway, the C gateway and the Python gateway decode the same 128 bytes,
each with a stopping rule of its own. As long as both fields are terminated they
agree. A full topic field tells them apart: Python stops at its end, the C
gateway runs on into the payload, and the ESP32 gateway runs on into the length
of the payload, which it stores behind the topic. `gateways_agree_iff` says that
this, and a payload without a terminator, are all that tells them apart.
-/

namespace EspNowGateway.Proof

open EspNowGateway CObject ClassicBpf

section Body

variable {body : List UInt8}

/-- What the ESP32 gateway makes of a whole body, whatever came before. -/
theorem message_of_body (s : TaskLocals) (hlen : body.length = 128) :
    message s body = if 0 ∈ body.drop 64 then
        some (if 0 ∈ body.take 64 then cstr (body.take 64)
          else body.take 64 ++ cstr (le32 (cstr (body.drop 64)).length), cstr (body.drop 64))
      else none := by
  have hbytes : (s.recvData.recvInto body).bytes = body := by
    rw [Buf.recvInto_bytes _ (Nat.le_of_eq hlen), hlen,
      List.drop_of_length_le (by rw [s.recvData.size_eq]), List.append_nil]
  have htopic : ExampleEspnowData.topic (s.recvData.recvInto body) = body.take 64 := by
    rw [ExampleEspnowData.topic, Buf.slice, hbytes]; rfl
  have hpayload : ExampleEspnowData.payload (s.recvData.recvInto body) = body.drop 64 := by
    rw [ExampleEspnowData.payload, Buf.slice, hbytes,
      List.take_of_length_le (by rw [List.length_drop, hlen]; decide)]
    rfl
  rw [message_eq s (Nat.le_of_eq hlen), hpayload, sentTopic, htopic, hpayload]

/-- What the C gateway makes of a packet that carries the body behind its 63 header bytes. -/
theorem gateway_message_of_body (g : Gateway.State) {p : List UInt8} (hlen : body.length = 128)
    (hp : (p.drop 63).take 128 = body) :
    Gateway.message g p = if 0 ∈ body.drop 64 then
        some (Gateway.sentTopic (body.take 64) (cstr (body.drop 64)), cstr (body.drop 64))
      else none := by
  have hlong : 191 ≤ p.length := by
    have := congrArg List.length hp
    rw [List.length_take, List.length_drop, hlen] at this
    omega
  have htopic : (g.buff.recvInto p).slice 63 64 = body.take 64 := by
    rw [Buf.slice_recvInto _ _ (by omega) (by decide), ← hp, List.take_take]; rfl
  have hpayload : (g.buff.recvInto p).slice 127 64 = body.drop 64 := by
    rw [Buf.slice_recvInto _ _ (by omega) (by decide), ← hp, List.drop_take, List.drop_drop]
  rw [Gateway.message_eq, htopic, hpayload]

/-- What the Python gateway makes of a body of characters. -/
theorem callback_of_body (hlen : body.length = 128) (hascii : ∀ b ∈ body, b < 0x80) :
    PyGateway.callback body = some (cstr (body.take 64), cstr (body.drop 64)) := by
  have hchars {m : List UInt8} (hsub : ∀ b ∈ m, b ∈ body) :
      PyGateway.utf8 ((cstr m).map fun b => Char.ofNat b.toNat) = cstr m :=
    PyGateway.utf8_ascii fun b hb => hascii b (hsub b ((List.takeWhile_prefix _).subset hb))
  have htail : (body.drop 64).take 64 = body.drop 64 :=
    List.take_of_length_le (by rw [List.length_drop, hlen])
  rw [PyGateway.callback_eq (Nat.le_of_eq hlen.symm), htail,
    hchars fun b hb => List.mem_of_mem_take hb, hchars fun b hb => List.mem_of_mem_drop hb]

end Body

/-- A payload that is empty begins with its terminator. -/
theorem cstr_eq_nil_iff {q : List UInt8} (hq : q ≠ []) : cstr q = [] ↔ q[0]? = some 0 := by
  cases q with
  | nil => exact absurd rfl hq
  | cons b q => by_cases hb : b = 0 <;> simp [cstr, hb]

/--
**When the three gateways agree.**

For a body of 128 bytes below 128, delivered whole to each of them in any state:
they publish the same topic and payload exactly when the payload field is
terminated, and the topic field is terminated or the payload is empty.
-/
theorem gateways_agree_iff {body p : List UInt8} (hlen : body.length = 128)
    (hascii : ∀ b ∈ body, b < 0x80) (s : TaskLocals) (g : Gateway.State)
    (hR : radiotapLength p = 24) (hp : (p.drop (radiotapLength p + 39)).take 128 = body) :
    (∃ m, message s body = some m ∧ Gateway.message g p = some m
        ∧ PyGateway.callback body = some m)
      ↔ 0 ∈ body.drop 64 ∧ (0 ∈ body.take 64 ∨ body[64]? = some 0) := by
  rw [hR] at hp
  rw [message_of_body s hlen, gateway_message_of_body g hlen hp, callback_of_body hlen hascii]
  have hempty : cstr (body.drop 64) = [] ↔ body[64]? = some 0 := by
    have hne : body.drop 64 ≠ [] := by
      intro hc
      have := congrArg List.length hc
      rw [List.length_drop, hlen] at this
      cases this
    rw [cstr_eq_nil_iff hne, List.getElem?_drop]
  by_cases hpay : 0 ∈ body.drop 64
  · rw [if_pos hpay, if_pos hpay]
    by_cases htop : 0 ∈ body.take 64
    · -- both fields are terminated
      refine iff_of_true ⟨(cstr (body.take 64), cstr (body.drop 64)), ?_, ?_, rfl⟩
        ⟨hpay, Or.inl htop⟩
      · rw [if_pos htop]
      · rw [Gateway.sentTopic, if_pos htop]
    · -- the topic field is full: what follows it decides
      rw [if_neg htop, Gateway.sentTopic, if_neg htop, cstr_eq_self htop]
      constructor
      · intro hagree
        rcases hagree with ⟨m, _, hc, hpy⟩
        rw [← hpy] at hc
        have happ : body.take 64 ++ cstr (body.drop 64) = body.take 64 :=
          congrArg Prod.fst (Option.some.inj hc)
        exact ⟨hpay, Or.inr (hempty.mp (List.append_right_eq_self.mp happ))⟩
      · intro hfields
        rcases hfields with ⟨_, h⟩
        have hnil := hempty.mpr (h.resolve_left htop)
        refine ⟨(body.take 64, cstr (body.drop 64)), ?_, ?_, rfl⟩
        · rw [hnil]
          show some (body.take 64 ++ cstr (le32 0), []) = _
          rw [show cstr (le32 0) = [] from rfl, List.append_nil]
        · rw [hnil, List.append_nil]
  · rw [if_neg hpay]
    refine iff_of_false ?_ fun h => hpay h.1
    intro hagree
    rcases hagree with ⟨m, hm, _⟩
    cases hm

/-- A topic field full of `A`s, and the payload `"B"`. -/
def fullTopicBody : List UInt8 := List.replicate 64 65 ++ [66] ++ List.replicate 63 0

theorem fullTopicBody_ascii : ∀ b ∈ fullTopicBody, b < 0x80 := by
  intro b hb
  simp only [fullTopicBody, List.mem_append, List.mem_replicate, List.mem_singleton] at hb
  rcases hb with (⟨_, rfl⟩ | rfl) | ⟨_, rfl⟩ <;> decide

/-- **A full topic field is published under three different topics.** -/
theorem full_topic_disagrees :
    Accepts bpfcode (frameHead ++ fullTopicBody)
      ∧ ¬ ∃ m, message ⟨Buf.fill 128 0, Buf.fill 140 0⟩ fullTopicBody = some m
        ∧ Gateway.message Gateway.State.boot (frameHead ++ fullTopicBody) = some m
        ∧ PyGateway.callback fullTopicBody = some m := by
  refine ⟨(frameHead_accepts _).1, ?_⟩
  intro hagree
  rcases hagree with ⟨m, _, hc, hpy⟩
  have hp : ((frameHead ++ fullTopicBody).drop 63).take 128 = fullTopicBody := by
    rw [drop_frameHead]; rfl
  rw [gateway_message_of_body _ rfl hp] at hc
  rw [callback_of_body rfl fullTopicBody_ascii] at hpy
  rw [← hpy] at hc
  exact absurd hc (by decide)

/-- The topic `"t"` and the payload `"p"`. -/
def shortTopicBody : List UInt8 := 116 :: List.replicate 63 0 ++ 112 :: List.replicate 63 0

theorem shortTopicBody_ascii : ∀ b ∈ shortTopicBody, b < 0x80 := by
  intro b hb
  simp only [shortTopicBody, List.mem_append, List.mem_cons, List.mem_replicate] at hb
  rcases hb with (rfl | ⟨_, rfl⟩) | (rfl | ⟨_, rfl⟩) <;> decide

/-- **Bodies whose fields are both terminated are published alike.** -/
theorem short_topic_agrees :
    PyGateway.callback shortTopicBody = some ([116], [112])
      ∧ ∃ m, message ⟨Buf.fill 128 0, Buf.fill 140 0⟩ shortTopicBody = some m
        ∧ Gateway.message Gateway.State.boot (frameHead ++ shortTopicBody) = some m
        ∧ PyGateway.callback shortTopicBody = some m :=
  ⟨callback_of_body rfl shortTopicBody_ascii,
    (gateways_agree_iff rfl shortTopicBody_ascii _ _ (frameHead_accepts _).2
      (by rw [(frameHead_accepts _).2, drop_frameHead]; rfl)).mpr ⟨by decide, Or.inl (by decide)⟩⟩

end EspNowGateway.Proof
