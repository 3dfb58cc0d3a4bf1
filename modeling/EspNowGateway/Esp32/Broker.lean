import EspNowGateway.Lib.CObject
import EspNowGateway.Lib.Uri

/-!
# The broker's host name

Before it connects, `mqtt_pub` has the configured broker name converted: a name that
mDNS is responsible for is replaced by the address it stands for. What mDNS answers
is a parameter: an address, or none whatever the error was. The host that comes out of
it goes into the URI of the broker, in the format of the configured transport.
-/

namespace EspNowGateway

open CObject

/-- `".local"`. -/
def dotLocal : List UInt8 := [46, 108, 111, 99, 97, 108]

/-- `"%d"` of a byte. -/
def decimal (b : UInt8) : List UInt8 :=
  (if 100 ≤ b then [48 + b / 100] else []) ++ (if 10 ≤ b then [48 + b / 10 % 10] else [])
    ++ [48 + b % 10]

/-- `esp_ip4_addr`: the four bytes of an address, the first one first. -/
structure Ip4Addr where
  addr1 : UInt8
  addr2 : UInt8
  addr3 : UInt8
  addr4 : UInt8
  deriving DecidableEq, Repr

/-- `IPSTR` with `IP2STR`. -/
def Ip4Addr.dotted (ip : Ip4Addr) : List UInt8 :=
  decimal ip.addr1 ++ 46 :: decimal ip.addr2 ++ 46 :: decimal ip.addr3 ++ 46 :: decimal ip.addr4

/-- `query_mdns_host`: `ESP_OK` with the address written to `ip`, or `ESP_FAIL` with `ip` as it was. -/
def queryMdnsHost (mdnsQueryA : List UInt8 → Option Ip4Addr) (hostName : List UInt8)
    (ip : Buf 128) : Option (Bool × Buf 128) :=
  match mdnsQueryA hostName with
  | none => some (false, ip)
  | some addr => (ip.memcpy 0 (addr.dotted ++ [0])).map fun ip => (true, ip)

/--
`convert_mdns_host`: what it leaves in `to`. The buffers `_from` and `_ip` are on the
stack, and hold anything on entry.
-/
def convertMdnsHost {n : Nat} (mdnsQueryA : List UInt8 → Option Ip4Addr) (stack : Buf 128 × Buf 128)
    (from' : Buf n) (to' : Buf 128) : Option (Buf 128) := do
  let to' ← to'.strcpy 0 from' 0
  let s ← from'.str 0
  match strstr dotLocal s with
  | none => some to'
  | some len =>
      let _from ← stack.1.strcpy 0 from' 0
      let _from ← _from.memcpy len [0]
      let host ← _from.str 0
      let (ok, _ip) ← queryMdnsHost mdnsQueryA host stack.2
      if ok then to'.strcpy 0 _ip 0 else some to'

/-! ## The URI -/

/-- The choice `MQTT_TRANSPORT`: `MQTT_TRANSPORT_OVER_TCP` and so on. -/
inductive Transport where
  | tcp
  | ssl
  | ws
  | wss
  deriving DecidableEq, Repr

/-- What the format has in front of `"://"`: `"mqtt"`, `"mqtts"`, `"ws"` or `"wss"`. -/
def Transport.scheme : Transport → List UInt8
  | tcp => [109, 113, 116, 116]
  | ssl => [109, 113, 116, 116, 115]
  | ws => [119, 115]
  | wss => [119, 115, 115]

/-- What it has behind the port: nothing, or `"/mqtt"`. -/
def Transport.path : Transport → List UInt8
  | tcp => []
  | ssl => []
  | ws => [47, 109, 113, 116, 116]
  | wss => [47, 109, 113, 116, 116]

/-- `sprintf(uri, "mqtt://%.60s:%d", ip, port)`, or the format of another transport. -/
def sprintfUri (transport : Transport) (uri : Buf 138) (ip : Buf 128) (port : UInt16) :
    Option (Buf 138) :=
  uri.memcpy 0 (transport.scheme ++ [58, 47, 47] ++ cstr (ip.bytes.take 60) ++ [58]
    ++ Uri.digits port.toNat ++ transport.path ++ [0])

/-- `mqtt_pub`, up to the URI. The buffers `ip` and `uri` are on the stack as well. -/
def brokerUri {n : Nat} (mdnsQueryA : List UInt8 → Option Ip4Addr) (stack : Buf 128 × Buf 128)
    (broker : Buf n) (ip : Buf 128) (uri : Buf 138) (transport : Transport) (port : UInt16) :
    Option (Buf 138) := do
  let ip ← convertMdnsHost mdnsQueryA stack broker ip
  sprintfUri transport uri ip port

/-! ## Addresses in text -/

theorem decimal_digits {b c : UInt8} (h : c ∈ decimal b) : 48 ≤ c.toNat ∧ c.toNat ≤ 57 := by
  have hb := b.toNat_lt
  have hcases : c = 48 + b / 100 ∨ c = 48 + b / 10 % 10 ∨ c = 48 + b % 10 := by
    unfold decimal at h
    split at h <;> split at h <;> simp at h <;> tauto
  rcases hcases with rfl | rfl | rfl
  · rw [UInt8.toNat_add, UInt8.toNat_div]
    have : b.toNat / (100 : UInt8).toNat = b.toNat / 100 := rfl
    have : (48 : UInt8).toNat = 48 := rfl
    omega
  · rw [UInt8.toNat_add, UInt8.toNat_mod, UInt8.toNat_div]
    have : (b.toNat / (10 : UInt8).toNat) % (10 : UInt8).toNat = b.toNat / 10 % 10 := rfl
    have : (48 : UInt8).toNat = 48 := rfl
    omega
  · rw [UInt8.toNat_add, UInt8.toNat_mod]
    have : b.toNat % (10 : UInt8).toNat = b.toNat % 10 := rfl
    have : (48 : UInt8).toNat = 48 := rfl
    omega

theorem decimal_length (b : UInt8) : (decimal b).length ≤ 3 := by
  unfold decimal
  split <;> split <;> simp

/-- An address in text is digits and dots. -/
theorem dotted_chars {ip : Ip4Addr} {c : UInt8} (h : c ∈ ip.dotted) :
    c = 46 ∨ 48 ≤ c.toNat ∧ c.toNat ≤ 57 := by
  simp only [Ip4Addr.dotted, List.mem_append, List.mem_cons] at h
  rcases h with ((h | h | h) | h | h) | h | h
  · exact Or.inr (decimal_digits h)
  · exact Or.inl h
  · exact Or.inr (decimal_digits h)
  · exact Or.inl h
  · exact Or.inr (decimal_digits h)
  · exact Or.inl h
  · exact Or.inr (decimal_digits h)

theorem zero_not_mem_dotted (ip : Ip4Addr) : 0 ∉ ip.dotted := by
  intro h
  rcases dotted_chars h with he | hd
  · cases he
  · exact absurd hd.1 (by decide)

/-- So no name is mistaken for one. -/
theorem dotted_ne {ip : Ip4Addr} {s : List UInt8} (h : dotLocal <:+: s) : ip.dotted ≠ s := by
  intro he
  have hl : (108 : UInt8) ∈ dotLocal := by decide
  have hmem : (108 : UInt8) ∈ ip.dotted := he ▸ h.subset hl
  rcases dotted_chars hmem with hc | hd
  · cases hc
  · exact absurd hd.2 (by decide)

theorem dotted_length (ip : Ip4Addr) : ip.dotted.length ≤ 15 := by
  have h1 := decimal_length ip.addr1
  have h2 := decimal_length ip.addr2
  have h3 := decimal_length ip.addr3
  have h4 := decimal_length ip.addr4
  simp only [Ip4Addr.dotted, List.length_append, List.length_cons]
  omega

end EspNowGateway
