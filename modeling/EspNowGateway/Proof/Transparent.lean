import EspNowGateway.Linux.PyGateway

/-!
# Bytes through the Python gateway

A byte becomes a character, and the client encodes the character. Below 128 the two
steps undo each other; from 128 on one byte goes in and two come out. What the client
looks at before it encodes a topic (it takes none that is empty, or holds a `+` or a
`#`) is its own matter, and left out.
-/

namespace EspNowGateway.Proof

open EspNowGateway CObject PyGateway

/-- What a message says: each field up to its first NUL, all of it if there is none. -/
def fields (msg : List UInt8) : List UInt8 × List UInt8 :=
  (cstr (msg.take 64), cstr ((msg.drop 64).take 64))

/-- The message is published byte for byte. -/
def Transparent (msg : List UInt8) : Prop := callback msg = some (fields msg)

/--
**Which messages come through byte for byte.**

Those whose topic and payload are bytes below 128; what stands behind a NUL may be
anything.
-/
theorem transparent_iff {msg : List UInt8} (h : 128 ≤ msg.length) :
    Transparent msg ↔ ∀ b ∈ (fields msg).1 ++ (fields msg).2, b < 0x80 := by
  unfold Transparent fields
  rw [callback_eq h, Option.some_inj, Prod.mk.injEq, utf8_eq_self_iff, utf8_eq_self_iff]
  constructor
  · intro ⟨htopic, hpayload⟩ b hb
    rcases List.mem_append.mp hb with hb | hb
    · exact htopic b hb
    · exact hpayload b hb
  · intro hall
    exact ⟨fun b hb => hall b (List.mem_append_left _ hb),
      fun b hb => hall b (List.mem_append_right _ hb)⟩

/-- A message with the topic "t", the payload "21C", and other things behind their NULs. -/
def asciiMsg : List UInt8 :=
  116 :: 0 :: List.replicate 62 0xff ++ [50, 49, 67, 0] ++ List.replicate 60 0xff

/-- The same with a degree sign, in the encoding that has one byte for it. -/
def degreeMsg : List UInt8 :=
  116 :: 0 :: List.replicate 62 0xff ++ [50, 49, 0xb0, 67] ++ List.replicate 60 0

/-- **An ASCII message comes through.** -/
theorem asciiMsg_transparent : Transparent asciiMsg := by
  have hlen : asciiMsg.length = 128 := rfl
  have hfields : fields asciiMsg = ([116], [50, 49, 67]) := rfl
  refine (transparent_iff (Nat.le_of_eq hlen.symm)).mpr ?_
  rw [hfields]
  intro b hb
  simp only [List.cons_append, List.nil_append, List.mem_cons, List.not_mem_nil, or_false] at hb
  rcases hb with rfl | rfl | rfl | rfl <;> decide

/-- **A degree sign does not.** -/
theorem degreeMsg_not_transparent : 128 ≤ degreeMsg.length ∧ ¬ Transparent degreeMsg := by
  have hlen : degreeMsg.length = 128 := rfl
  have htwo : callback degreeMsg = some ([116], [50, 49, 0xc2, 0xb0, 67]) := by
    rw [callback_eq (Nat.le_of_eq hlen.symm)]
    rfl
  have hfields : fields degreeMsg = ([116], [50, 49, 0xb0, 67]) := rfl
  refine ⟨Nat.le_of_eq hlen.symm, ?_⟩
  intro h
  rw [Transparent, htwo, hfields] at h
  have hpayload : [50, 49, 0xc2, 0xb0, 67].length = [50, 49, 0xb0, 67].length :=
    congrArg (fun r => r.2.length) (Option.some.inj h)
  cases hpayload

end EspNowGateway.Proof
