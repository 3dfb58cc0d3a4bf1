import EspNowGateway.Lib.CObject
import EspNowGateway.Lib.Uri

/-!
# Client ids

A broker knows its clients by their ids, and drops a client when another one connects
under the same id. `mqtt_pub` makes its id of the base MAC address, the C gateway of its
process id, and the recorder of a random number up to 100. The Python gateway leaves the
choice to the broker.
-/

namespace EspNowGateway

open CObject

/-- A hexadecimal digit, in lower case. -/
def hexDigit (d : Nat) : UInt8 := .ofNat (if d < 10 then 48 + d else 87 + d)

/-- `"%02x"` of a byte. -/
def hex02 (b : UInt8) : List UInt8 := [hexDigit (b.toNat / 16), hexDigit (b.toNat % 16)]

/-- A program that connects under an id of its own, with what the id is made of. -/
inductive Client where
  | mqttPub (mac : Buf 6)
  | gateway (pid : Nat)
  | recorder (random : Nat)
  deriving DecidableEq

/-- The id: `"pub-%02x%02x%02x%02x%02x%02x"`, `"CLIENT-%d"` or `subscribe-{}`. -/
def Client.clientId : Client → List UInt8
  | .mqttPub mac => [112, 117, 98, 45] ++ mac.bytes.flatMap hex02
  | .gateway pid => [67, 76, 73, 69, 78, 84, 45] ++ Uri.digits pid
  | .recorder random => [115, 117, 98, 115, 99, 114, 105, 98, 101, 45] ++ Uri.digits random

/-- `sprintf` of an id: into `client_id[64]` of `mqtt_pub`, or `clientId[40]` of the C gateway. -/
def sprintfClientId {n : Nat} (buf : Buf n) (c : Client) : Option (Buf n) :=
  buf.memcpy 0 (c.clientId ++ [0])

/-! ## Hexadecimal digits -/

theorem toNat_hexDigit {d : Nat} (h : d < 16) :
    (hexDigit d).toNat = if d < 10 then 48 + d else 87 + d := by
  rw [hexDigit, UInt8.toNat_ofNat']
  split <;> omega

theorem hexDigit_injective {d d' : Nat} (hd : d < 16) (hd' : d' < 16)
    (h : hexDigit d = hexDigit d') : d = d' := by
  have hnat := congrArg UInt8.toNat h
  rw [toNat_hexDigit hd, toNat_hexDigit hd'] at hnat
  split at hnat <;> split at hnat <;> omega

theorem hex02_injective {b b' : UInt8} (h : hex02 b = hex02 b') : b = b' := by
  obtain ⟨hhigh, hlow⟩ := List.cons.inj h
  have hb := b.toNat_lt
  have hb' := b'.toNat_lt
  have hdiv := hexDigit_injective (by omega) (by omega) hhigh
  have hmod := hexDigit_injective (by omega) (by omega) (List.cons.inj hlow).1
  refine UInt8.toNat_inj.mp ?_
  omega

theorem flatMap_hex02_injective {bs bs' : List UInt8} (h : bs.flatMap hex02 = bs'.flatMap hex02) :
    bs = bs' := by
  induction bs generalizing bs' with
  | nil =>
      cases bs' with
      | nil => rfl
      | cons b' bs' => cases h
  | cons b bs ih =>
      cases bs' with
      | nil => cases h
      | cons b' bs' =>
          rw [List.flatMap_cons, List.flatMap_cons] at h
          obtain ⟨hfirst, hrest⟩ := List.append_inj h rfl
          rw [hex02_injective hfirst, ih hrest]

theorem length_flatMap_hex02 (bs : List UInt8) : (bs.flatMap hex02).length = 2 * bs.length := by
  induction bs with
  | nil => rfl
  | cons b bs ih =>
      rw [List.flatMap_cons, List.length_append, ih, List.length_cons]
      exact Nat.add_comm 2 _

theorem digit_ne_zero {n : Nat} : 0 ∉ Uri.digits n := by
  intro h
  exact absurd (Uri.isDigit_of_mem_digits h) Bool.false_ne_true

theorem hexDigit_ne_zero {d : Nat} (h : d < 16) : hexDigit d ≠ 0 := by
  intro hzero
  have hnat := toNat_hexDigit h
  rw [hzero, UInt8.toNat_zero] at hnat
  split at hnat <;> omega

/-- An id is a C string. -/
theorem zero_not_mem_clientId (c : Client) : 0 ∉ c.clientId := by
  intro h
  cases c with
  | mqttPub mac =>
      rcases List.mem_append.mp h with hlit | hmac
      · revert hlit
        decide
      · obtain ⟨b, _, hb⟩ := List.mem_flatMap.mp hmac
        have hlt := b.toNat_lt
        rcases List.mem_cons.mp hb with hhigh | hlow
        · exact hexDigit_ne_zero (by omega) hhigh.symm
        · exact hexDigit_ne_zero (by omega) (List.mem_singleton.mp hlow).symm
  | gateway pid =>
      rcases List.mem_append.mp h with hlit | hdigits
      · revert hlit
        decide
      · exact digit_ne_zero hdigits
  | recorder random =>
      rcases List.mem_append.mp h with hlit | hdigits
      · revert hlit
        decide
      · exact digit_ne_zero hdigits

/-- An id that fits into its buffer is read back from it. -/
theorem sprintfClientId_of_le {n : Nat} (buf : Buf n) {c : Client} (h : c.clientId.length < n) :
    ∃ b, sprintfClientId buf c = some b ∧ b.str 0 = some c.clientId := by
  have hfit : 0 + (c.clientId ++ [0]).length ≤ n := by
    rw [List.length_append, List.length_singleton]
    omega
  exact ⟨_, Buf.memcpy_of_le buf hfit, Buf.str_write_terminated buf hfit (zero_not_mem_clientId c)⟩

end EspNowGateway
