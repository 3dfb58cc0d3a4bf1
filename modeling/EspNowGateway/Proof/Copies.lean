import EspNowGateway.Esp32.Pipeline

/-!
# How far the three copies reach

For each frame `espnow_task` makes three copies whose length it does not choose:
a `memcpy` as long as the frame says, and two `strcpy`s as long as the bytes say.
`CopiesFit` is the bound their destinations set: the struct for the first, the
64-byte field for the other two.

Nothing in the code checks any of it. `copiesFit_iff` is therefore a condition on
the frame and on what `recv_data` held before: the frame is no longer than the
struct, and, once it lies over the old contents, each field holds a NUL.
-/

namespace EspNowGateway.Proof

open EspNowGateway CObject

/--
Handling a frame over the contents `r` of `recv_data`: the `memcpy` writes at most
the struct, and each `strcpy` finds a NUL inside `recv_data` and writes, its
terminator included, at most the 64 bytes of the field it is given.
-/
def CopiesFit (r : ExampleEspnowData) (bytes : List UInt8) : Prop :=
  bytes.length ≤ 128
    ∧ ∃ d, copyRecvData r bytes = some d
      ∧ (∃ topic, d.str ExampleEspnowData.topicOff = some topic ∧ (topic ++ [0]).length ≤ 64)
      ∧ ∃ data, d.str ExampleEspnowData.payloadOff = some data ∧ (data ++ [0]).length ≤ 64

/-- The frame's bytes, and behind them what was there before. -/
def laidOver (r : ExampleEspnowData) (bytes : List UInt8) : List UInt8 :=
  bytes ++ r.bytes.drop bytes.length

/--
**When every copy stays inside its destination.**

For any accepted frame over any previous contents, the three copies fit exactly
when the frame is no longer than the struct and leaves a NUL in both fields.
-/
theorem copiesFit_iff (r : ExampleEspnowData) (f : Frame) :
    CopiesFit r f.bytes ↔ f.bytes.length ≤ 128 ∧ 0 ∈ (laidOver r f.bytes).take 64
      ∧ 0 ∈ (laidOver r f.bytes).drop 64 := by
  refine and_congr_right fun hlen => ?_
  obtain ⟨d, hd, hbytes⟩ := copyRecvData_of_le r hlen
  have htopic : d.slice ExampleEspnowData.topicOff 64 = (laidOver r f.bytes).take 64 := by
    rw [Buf.slice, hbytes]; rfl
  have hpayload : d.slice ExampleEspnowData.payloadOff 64 = (laidOver r f.bytes).drop 64 := by
    rw [laidOver, ← hbytes]; exact (Buf.drop_eq_slice d 64).symm
  constructor
  · intro hfit
    rcases hfit with ⟨d', hd', ht, hp⟩
    rw [hd] at hd'
    cases hd'
    rw [← htopic, ← hpayload]
    exact ⟨(Buf.str_within_iff (by decide)).mp ht, (Buf.str_within_iff (by decide)).mp hp⟩
  · intro hnul
    rcases hnul with ⟨ht, hp⟩
    rw [← htopic] at ht
    rw [← hpayload] at hp
    exact ⟨d, hd, (Buf.str_within_iff (by decide)).mpr ht, (Buf.str_within_iff (by decide)).mpr hp⟩

/-- A call with `len` bytes that are all the letter `A`. -/
def solidCall (len : Nat) : RecvCall :=
  { macAddr := some (Buf.fill 6 0)
    len := len
    data := some ⟨List.replicate len 65, by rw [List.length_replicate, Int.toNat_natCast]⟩ }

theorem solidCall_frame {len : Nat} (h : 0 < len) :
    ∃ f, (solidCall len).frame = some f ∧ f.bytes = List.replicate len 65 := by
  obtain ⟨f, hf, hbytes⟩ := RecvCall.frame_of_pos (Int.natCast_pos.mpr h) _
  refine ⟨f, hf, hbytes.trans ?_⟩
  show (List.replicate len 65).take len = _
  rw [List.take_replicate, Nat.min_self]

/--
**Accepted frames overrun their destinations**: one of 200 bytes, which either
version of the radio protocol delivers, and one of 128 bytes that spells no NUL.
-/
theorem copies_can_overrun :
    (∃ f, (solidCall 200).frame = some f ∧ ∀ r, ¬ CopiesFit r f.bytes)
      ∧ ∃ f, (solidCall 128).frame = some f ∧ ∀ r, ¬ CopiesFit r f.bytes := by
  constructor
  · obtain ⟨f, hf, hbytes⟩ := solidCall_frame (show 0 < 200 by decide)
    refine ⟨f, hf, fun r hfit => ?_⟩
    have hlen := hfit.1
    rw [hbytes, List.length_replicate] at hlen
    omega
  · obtain ⟨f, hf, hbytes⟩ := solidCall_frame (show 0 < 128 by decide)
    refine ⟨f, hf, fun r hfit => ?_⟩
    obtain ⟨_, htopic, _⟩ := (copiesFit_iff r f).mp hfit
    rw [laidOver, List.take_append_of_le_length (by rw [hbytes, List.length_replicate]; decide),
      hbytes, List.take_replicate] at htopic
    exact absurd (List.eq_of_mem_replicate htopic) (by decide)

end EspNowGateway.Proof
