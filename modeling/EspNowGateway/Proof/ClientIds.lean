import EspNowGateway.ClientId

/-!
# No gateway takes another one's place

A client that connects under the id of another one throws it off the broker. The ids here
keep clients apart as far as what they are made of does: base MAC addresses are unique,
process ids are so on one host, and two recorders may draw the same number.
-/

namespace EspNowGateway.Proof

open EspNowGateway CObject

theorem digits_inj {n n' : Nat} (h : Uri.digits n = Uri.digits n') : n = n' := by
  rw [← Uri.ofDigits_digits n, h, Uri.ofDigits_digits]

/-- The first letter of an id. -/
def initial : Client → UInt8
  | .mqttPub _ => 112
  | .gateway _ => 67
  | .recorder _ => 115

theorem head_clientId (c : Client) : c.clientId.head? = some (initial c) := by
  cases c <;> rfl

theorem clientId_injective : Function.Injective Client.clientId := by
  intro c c' h
  -- The first letter tells the kinds apart.
  have hkind : initial c = initial c' := by
    rw [← Option.some.injEq, ← head_clientId, ← head_clientId, h]
  cases c with
  | mqttPub mac =>
      cases c' with
      | mqttPub mac' =>
          have hbytes := flatMap_hex02_injective (List.append_cancel_left h)
          rw [Buf.ext_bytes hbytes]
      | gateway pid' => exact absurd hkind (show (112 : UInt8) ≠ 67 by decide)
      | recorder random' => exact absurd hkind (show (112 : UInt8) ≠ 115 by decide)
  | gateway pid =>
      cases c' with
      | mqttPub mac' => exact absurd hkind (show (67 : UInt8) ≠ 112 by decide)
      | gateway pid' => rw [digits_inj (List.append_cancel_left h)]
      | recorder random' => exact absurd hkind (show (67 : UInt8) ≠ 115 by decide)
  | recorder random =>
      cases c' with
      | mqttPub mac' => exact absurd hkind (show (115 : UInt8) ≠ 112 by decide)
      | gateway pid' => exact absurd hkind (show (115 : UInt8) ≠ 67 by decide)
      | recorder random' => rw [digits_inj (List.append_cancel_left h)]

theorem length_mqttPub (mac : Buf 6) : (Client.mqttPub mac).clientId.length = 16 := by
  rw [Client.clientId, List.length_append, length_flatMap_hex02, mac.size_eq]
  rfl

theorem length_gateway_lt {pid : Nat} (h : pid < 0x80000000) :
    (Client.gateway pid).clientId.length < 40 := by
  have hdigits : (Nat.toDigits 10 pid).length ≤ 10 :=
    (Nat.length_toDigits_le_iff (by decide) (by decide)).mpr (by omega)
  rw [Client.clientId, Uri.digits, List.length_append, List.length_map]
  exact Nat.lt_of_le_of_lt (Nat.add_le_add_left hdigits _) (by decide)

/--
**Client ids tell clients apart.**

The ids of two clients are the same only if they are of one kind, and the same base MAC
address, process id or random number; and `sprintf` has room for each: what is on the
stack before does not matter, and the id is what the library reads.
-/
theorem client_ids_apart :
    (∀ c c' : Client, c.clientId = c'.clientId → c = c')
      ∧ (∀ mac (stack : Buf 64), ∃ b, sprintfClientId stack (.mqttPub mac) = some b
        ∧ b.str 0 = some (Client.mqttPub mac).clientId)
      ∧ ∀ pid, pid < 0x80000000 → ∀ stack : Buf 40,
        ∃ b, sprintfClientId stack (.gateway pid) = some b
          ∧ b.str 0 = some (Client.gateway pid).clientId := by
  refine ⟨fun _ _ h => clientId_injective h, fun mac stack => ?_, fun pid hpid stack => ?_⟩
  · exact sprintfClientId_of_le stack (by rw [length_mqttPub]; decide)
  · exact sprintfClientId_of_le stack (length_gateway_lt hpid)

end EspNowGateway.Proof
