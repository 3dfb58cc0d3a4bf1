import EspNowGateway.Linux.Filter

/-!
# What the socket filter computes

The twenty instructions are raw numbers, with jump distances counted by hand. That
they are a program at all comes first: no jump leaves it, and every packet is
answered. Then the answer: it is other than 0 for the ESP-NOW action frames and for
no other packet.
-/

namespace EspNowGateway.Proof

open EspNowGateway ClassicBpf

theorem bpfcode_checked : Checked bpfcode := by decide

/--
**The filter is exact.**

It answers every packet, and lets through just the ESP-NOW action frames; and from
no instruction does it go on outside itself.
-/
theorem filter_exact (p : List UInt8) :
    (∃ v, filter bpfcode p = some v ∧ (v ≠ 0 ↔ EspNowAction p))
      ∧ ∀ j i, bpfcode[j]? = some i → ∀ n ∈ i.skips, j + 1 + n < bpfcode.length := by
  constructor
  · obtain ⟨v, hv⟩ := exec_total (p := p) bpfcode_checked (show 0 < bpfcode.length by decide) 0 0
    refine ⟨v, hv, ?_⟩
    rw [← accepts_iff]
    constructor
    · intro hne
      exact ⟨v, hv, hne⟩
    · intro haccepts
      obtain ⟨v', hv', hne⟩ := haccepts
      have heq : v' = v := Option.some.inj (hv'.symm.trans hv)
      exact heq ▸ hne
  · intro j i hi n hn
    exact bpfcode_checked.target hi hn

end EspNowGateway.Proof
