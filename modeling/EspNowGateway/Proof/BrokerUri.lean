import Mathlib.Data.List.TakeDrop
import EspNowGateway.Proof.LocalNames

/-!
# What the broker's URI says

The formats take at most 60 bytes of the host. That keeps the URI within its buffer, for
every transport and every port, and cuts a longer host off without a word: the URI then
names another one. A host of at most 60 bytes comes through, as long as it can be told
from the parts around it.
-/

namespace EspNowGateway.Proof

open EspNowGateway CObject

/-- The URI is a string in its buffer, and its parts are the transport's, the host and the port. -/
def PreservesHost (uri : Option (Buf 138)) (transport : Transport) (port : UInt16)
    (host : List UInt8) : Prop :=
  ∃ u text, uri = some u ∧ u.str 0 = some text
    ∧ ∃ parts, Uri.split text = some parts ∧ parts.scheme = transport.scheme ∧ parts.host = host
      ∧ parts.port = port.toNat ∧ parts.path = transport.path

theorem colon_not_mem_scheme (transport : Transport) : Uri.colon ∉ transport.scheme := by
  cases transport <;> decide

theorem path_absolute (transport : Transport) :
    transport.path = [] ∨ transport.path.head? = some Uri.slash := by
  cases transport with
  | tcp => exact Or.inl rfl
  | ssl => exact Or.inl rfl
  | ws => exact Or.inr rfl
  | wss => exact Or.inr rfl

section

variable {n : Nat} {mdnsQueryA : List UInt8 → Option Ip4Addr} {stack : Buf 128 × Buf 128}
  {broker : Buf n} {ip ip' : Buf 128} {host : List UInt8}

/-- `"%.60s"` -/
theorem cstr_take_of_str {k : Nat} (h : ip.str 0 = some host) :
    cstr (ip.bytes.take k) = host.take k := by
  unfold Buf.str at h
  split at h
  · cases h
    exact List.take_takeWhile.symm
  · cases h

theorem zero_not_mem_join (transport : Transport) (port : UInt16) {s : List UInt8} (hs : 0 ∉ s) :
    0 ∉ Uri.join transport.scheme s port.toNat transport.path := by
  have hscheme : 0 ∉ transport.scheme := by cases transport <;> decide
  have hpath : 0 ∉ transport.path := by cases transport <;> decide
  have hdigits : 0 ∉ Uri.digits port.toNat := fun hmem =>
    absurd (Uri.isDigit_of_mem_digits hmem) (by decide)
  have hcolon : (0 : UInt8) ≠ Uri.colon := by decide
  have hslash : (0 : UInt8) ≠ Uri.slash := by decide
  simp only [Uri.join, List.mem_append, List.mem_cons, hscheme, hs, hdigits, hpath, hcolon, hslash,
    or_false, not_false_eq_true]

/-- Eight bytes with the slashes, 60 of the host, a colon, five digits, and five of the path. -/
theorem join_length_le (transport : Transport) (port : UInt16) {s : List UInt8}
    (hs : s.length ≤ 60) :
    (Uri.join transport.scheme s port.toNat transport.path).length ≤ 79 := by
  have hscheme : transport.scheme.length ≤ 5 := by cases transport <;> decide
  have hpath : transport.path.length ≤ 5 := by cases transport <;> decide
  have hdigits := Uri.digits_length_le (Nat.lt_trans port.toNat_lt (by decide))
  simp only [Uri.join, List.length_append, List.length_cons]
  omega

theorem sprintfUri_str (transport : Transport) (uri : Buf 138) (port : UInt16)
    (h : ip.str 0 = some host) :
    ∃ u, sprintfUri transport uri ip port = some u
      ∧ u.str 0 = some (Uri.join transport.scheme (host.take 60) port.toNat transport.path) := by
  have htext : transport.scheme ++ [58, 47, 47] ++ cstr (ip.bytes.take 60) ++ [58]
        ++ Uri.digits port.toNat ++ transport.path
      = Uri.join transport.scheme (host.take 60) port.toNat transport.path := by
    rw [cstr_take_of_str h, Uri.join]
    simp only [List.append_assoc, List.cons_append, List.nil_append]
    rfl
  have hlen := join_length_le transport port (List.length_take_le 60 host)
  have hfit : 0 + (Uri.join transport.scheme (host.take 60) port.toNat transport.path ++ [0]).length
      ≤ 138 := by
    rw [List.length_append, List.length_singleton]
    omega
  have hnul : 0 ∉ host.take 60 := fun hmem => str_not_mem h (List.mem_of_mem_take hmem)
  rw [sprintfUri, htext]
  exact ⟨_, Buf.memcpy_of_le uri hfit,
    Buf.str_write_terminated uri hfit (zero_not_mem_join transport port hnul)⟩

/-- The URI is about the first 60 bytes of the host. -/
theorem preservesHost_iff_take (uri : Buf 138) (transport : Transport) (port : UInt16)
    (hconvert : convertMdnsHost mdnsQueryA stack broker ip = some ip')
    (hhost : ip'.str 0 = some host) :
    PreservesHost (brokerUri mdnsQueryA stack broker ip uri transport port) transport port host
      ↔ host = host.take 60 ∧ Uri.IsHost (host.take 60) := by
  obtain ⟨u, hu, hstr⟩ := sprintfUri_str transport uri port hhost
  have hrun : brokerUri mdnsQueryA stack broker ip uri transport port = some u := by
    rw [brokerUri, hconvert]
    exact hu
  rw [← Uri.split_join_iff (n := port.toNat) (colon_not_mem_scheme transport)
    (path_absolute transport)]
  refine ⟨fun h => ?_, fun hparts => ⟨u, _, hrun, hstr, hparts⟩⟩
  rcases h with ⟨u', text, hrun', hstr', hparts⟩
  obtain rfl : u = u' := Option.some.inj (hrun.symm.trans hrun')
  obtain rfl := Option.some.inj (hstr.symm.trans hstr')
  exact hparts

/--
**The URI preserves the host exactly when it has at most 60 bytes and can be told apart.**

For every broker string, everything mDNS may answer, every transport and every port.
-/
theorem preservesHost_iff (uri : Buf 138) (transport : Transport) (port : UInt16)
    (hconvert : convertMdnsHost mdnsQueryA stack broker ip = some ip')
    (hhost : ip'.str 0 = some host) :
    PreservesHost (brokerUri mdnsQueryA stack broker ip uri transport port) transport port host
      ↔ host.length ≤ 60 ∧ Uri.IsHost host := by
  rw [preservesHost_iff_take uri transport port hconvert hhost, List.take_self_eq_iff]
  refine and_congr_right fun hlen => ?_
  rw [List.take_of_length_le hlen]

end

/-! ## Two brokers -/

/-- "broker.emqx.io", the default. -/
def emqx : Buf 15 := ⟨[98, 114, 111, 107, 101, 114, 46, 101, 109, 113, 120, 46, 105, 111, 0], rfl⟩

/-- A label of 60 letters, and ".io" behind it. -/
def longBroker : Buf 64 := ⟨List.replicate 60 97 ++ [46, 105, 111, 0], rfl⟩

/-- A network where no name is known to mDNS. -/
def unknown : List UInt8 → Option Ip4Addr := fun _ => none

theorem emqx_preserved :
    PreservesHost (brokerUri unknown (Buf.fill 128 7, Buf.fill 128 7) emqx (Buf.fill 128 7)
      (Buf.fill 138 7) .tcp 1883) .tcp 1883 (cstr emqx.bytes) := by
  obtain ⟨ip', hconvert, hhost⟩ := convertMdnsHost_str unknown
    (Buf.fill 128 7, Buf.fill 128 7) (Buf.fill 128 7)
    (show emqx.str 0 = some (cstr emqx.bytes) from rfl) (by decide)
  exact (preservesHost_iff (Buf.fill 138 7) .tcp 1883 hconvert hhost).mpr
    ⟨by decide, Or.inl (List.all_eq_true.mp (by decide))⟩

/-- **The URI of a longer name is that of another host.** -/
theorem longBroker_cut :
    ((brokerUri unknown (Buf.fill 128 7, Buf.fill 128 7) longBroker (Buf.fill 128 7)
        (Buf.fill 138 7) .tcp 1883).bind (·.str 0)).bind (fun text => (Uri.split text).map Uri.host)
      = some (List.replicate 60 97)
    ∧ ¬ PreservesHost (brokerUri unknown (Buf.fill 128 7, Buf.fill 128 7) longBroker
      (Buf.fill 128 7) (Buf.fill 138 7) .tcp 1883) .tcp 1883 (cstr longBroker.bytes) := by
  obtain ⟨ip', hconvert, hhost⟩ := convertMdnsHost_str unknown
    (Buf.fill 128 7, Buf.fill 128 7) (Buf.fill 128 7)
    (show longBroker.str 0 = some (cstr longBroker.bytes) from rfl) (by decide)
  refine ⟨by decide +kernel, fun h => ?_⟩
  have htake := (preservesHost_iff_take (Buf.fill 138 7) .tcp 1883 hconvert hhost).mp h
  exact absurd htake.1 (by decide)

end EspNowGateway.Proof
