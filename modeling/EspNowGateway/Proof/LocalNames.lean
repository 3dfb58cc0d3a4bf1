import EspNowGateway.Esp32.Broker

/-!
# Which broker names are resolved

mDNS answers for names that end in ".local". `convert_mdns_host` looks for the first
".local" instead, wherever it stands, and asks for what is in front of it: a longer
domain name with such a label in it is cut there and may be replaced.
-/

namespace EspNowGateway.Proof

open EspNowGateway CObject

/-- The answer for a name, or else the broker string as it was. -/
def answered (mdnsQueryA : List UInt8 → Option Ip4Addr) (name s : List UInt8) : List UInt8 :=
  match mdnsQueryA name with
  | some ip => ip.dotted
  | none => s

/-- What should become of a broker string: the stem of a ".local" name is looked up, nothing else. -/
def resolved (mdnsQueryA : List UInt8 → Option Ip4Addr) (s : List UInt8) : List UInt8 :=
  if dotLocal <:+ s then answered mdnsQueryA (s.take (s.length - dotLocal.length)) s else s

/-- The conversion leaves in `to` what it should. -/
def ResolvesLocal {n : Nat} (mdnsQueryA : List UInt8 → Option Ip4Addr) (stack : Buf 128 × Buf 128)
    (from' : Buf n) (to' : Buf 128) (s : List UInt8) : Prop :=
  ∃ t, convertMdnsHost mdnsQueryA stack from' to' = some t
    ∧ t.str 0 = some (resolved mdnsQueryA s)

/--
At the first ".local", should there be one: if the string ends in ".local", what is
in front of the first and what is in front of the last get the same answer; if it
does not, what is in front of the first gets none.
-/
def FirstLocalHarmless (mdnsQueryA : List UInt8 → Option Ip4Addr) (s : List UInt8) : Prop :=
  ∀ i, strstr dotLocal s = some i →
    (dotLocal <:+ s → (mdnsQueryA (s.take i)).map Ip4Addr.dotted
      = (mdnsQueryA (s.take (s.length - dotLocal.length))).map Ip4Addr.dotted)
    ∧ (¬ dotLocal <:+ s → mdnsQueryA (s.take i) = none)

/-! ## What the code does -/

section

variable {n : Nat} {mdnsQueryA : List UInt8 → Option Ip4Addr} {stack : Buf 128 × Buf 128}
  {from' : Buf n} {to' : Buf 128} {s : List UInt8}

theorem str_not_mem (h : from'.str 0 = some s) : 0 ∉ s := by
  unfold Buf.str at h
  split at h
  · cases h
    exact zero_not_mem_cstr _
  · cases h

theorem strcpy_str (dst : Buf 128) (h : from'.str 0 = some s) (hlen : s.length < 128) :
    ∃ t, dst.strcpy 0 from' 0 = some t ∧ t.bytes = s ++ 0 :: dst.bytes.drop (s.length + 1)
      ∧ t.str 0 = some s := by
  have hfit : 0 + (s ++ [0]).length ≤ 128 := by
    rw [List.length_append, List.length_singleton]
    omega
  refine ⟨_, Buf.strcpy_of_str h hfit, ?_, Buf.str_write_terminated dst hfit (str_not_mem h)⟩
  rw [Buf.write_bytes, List.take_zero, List.nil_append, List.append_assoc, List.length_append,
    List.length_singleton, Nat.zero_add]
  rfl

/-- `_from[_len] = 0`. -/
theorem cut_str {b : Buf 128} {t : List UInt8} (h : b.bytes = s ++ 0 :: t) (hs : 0 ∉ s) {i : Nat}
    (hi : i ≤ s.length) (hlen : s.length < 128) :
    ∃ c, b.memcpy i [0] = some c ∧ c.str 0 = some (s.take i) := by
  have hfit : i + [(0 : UInt8)].length ≤ 128 := by
    rw [List.length_singleton]
    omega
  refine ⟨_, Buf.memcpy_of_le b hfit, Buf.str_of_bytes (t := b.bytes.drop (i + 1)) ?_ ?_⟩
  · rw [Buf.write_bytes, h, List.take_append_of_le_length hi, List.append_assoc]
    rfl
  · exact fun hmem => hs (List.mem_of_mem_take hmem)

/-- What the code makes of a broker string: it asks for what is in front of the first ".local". -/
def converted (mdnsQueryA : List UInt8 → Option Ip4Addr) (s : List UInt8) : List UInt8 :=
  match strstr dotLocal s with
  | none => s
  | some i => answered mdnsQueryA (s.take i) s

theorem convertMdnsHost_str (mdnsQueryA : List UInt8 → Option Ip4Addr) (stack : Buf 128 × Buf 128)
    (to' : Buf 128) (hs : from'.str 0 = some s) (hlen : s.length < 128) :
    ∃ t, convertMdnsHost mdnsQueryA stack from' to' = some t
      ∧ t.str 0 = some (converted mdnsQueryA s) := by
  obtain ⟨copy, hcopy, _, hcopied⟩ := strcpy_str to' hs hlen
  unfold convertMdnsHost converted
  rw [hcopy, Option.bind_eq_bind, Option.bind_some, hs, Option.bind_eq_bind, Option.bind_some]
  cases hfirst : strstr dotLocal s with
  | none => exact ⟨copy, rfl, hcopied⟩
  | some i =>
      have hi : i ≤ s.length := by
        have := (prefix_of_strstr hfirst).length_le
        rw [List.length_drop, show dotLocal.length = 6 from rfl] at this
        omega
      obtain ⟨name, hname, hbytes, _⟩ := strcpy_str stack.1 hs hlen
      obtain ⟨cut, hcut, hhost⟩ := cut_str hbytes (str_not_mem hs) hi hlen
      dsimp only
      rw [hname, Option.bind_some, hcut, Option.bind_some, hhost, Option.bind_some]
      cases hquery : mdnsQueryA (s.take i) with
      | none =>
          refine ⟨copy, ?_, ?_⟩
          · rw [queryMdnsHost, hquery]
            rfl
          · simp only [answered, hquery]
            exact hcopied
      | some ip =>
          -- the address goes to `_ip`, and from there over the name
          have hshort := dotted_length ip
          have hfit : 0 + (ip.dotted ++ [0]).length ≤ 128 := by
            rw [List.length_append, List.length_singleton]
            omega
          have hip := Buf.str_write_terminated stack.2 hfit (zero_not_mem_dotted ip)
          obtain ⟨t, ht, _, hstr⟩ := strcpy_str copy hip (by omega)
          refine ⟨t, ?_, ?_⟩
          · rw [queryMdnsHost, hquery]
            dsimp only
            rw [Buf.memcpy_of_le _ hfit]
            exact ht
          · simp only [answered, hquery]
            exact hstr

theorem resolvesLocal_iff_converted (hs : from'.str 0 = some s) (hlen : s.length < 128) :
    ResolvesLocal mdnsQueryA stack from' to' s
      ↔ converted mdnsQueryA s = resolved mdnsQueryA s := by
  obtain ⟨t, hrun, hstr⟩ := convertMdnsHost_str mdnsQueryA stack to' hs hlen
  constructor
  · intro h
    obtain ⟨t', hrun', hstr'⟩ := h
    rw [hrun] at hrun'
    cases hrun'
    exact Option.some.inj (hstr.symm.trans hstr')
  · intro h
    exact ⟨t, hrun, hstr.trans (congrArg some h)⟩

/-- Two names give the same result when they get the same answer; no address is the string itself. -/
theorem answered_eq_iff {a b : List UInt8} (h : dotLocal <:+: s) :
    answered mdnsQueryA a s = answered mdnsQueryA b s
      ↔ (mdnsQueryA a).map Ip4Addr.dotted = (mdnsQueryA b).map Ip4Addr.dotted := by
  unfold answered
  cases mdnsQueryA a with
  | none =>
      cases mdnsQueryA b with
      | none => exact iff_of_true rfl rfl
      | some ip => exact iff_of_false (fun he => dotted_ne h he.symm) (by simp)
  | some ip =>
      cases mdnsQueryA b with
      | none => exact iff_of_false (dotted_ne h) (by simp)
      | some ip' => simp

theorem answered_eq_self_iff {a : List UInt8} (h : dotLocal <:+: s) :
    answered mdnsQueryA a s = s ↔ mdnsQueryA a = none := by
  unfold answered
  cases mdnsQueryA a with
  | none => exact iff_of_true rfl rfl
  | some ip => exact iff_of_false (dotted_ne h) (by simp)

theorem infix_of_strstr {i : Nat} (h : strstr dotLocal s = some i) : dotLocal <:+: s :=
  (prefix_of_strstr h).isInfix.trans (List.drop_suffix i s).isInfix

/--
**Which broker names are converted as they should be.**

For every broker string of fewer than 128 bytes and everything mDNS may answer.
-/
theorem resolvesLocal_iff (hs : from'.str 0 = some s) (hlen : s.length < 128) :
    ResolvesLocal mdnsQueryA stack from' to' s ↔ FirstLocalHarmless mdnsQueryA s := by
  rw [resolvesLocal_iff_converted hs hlen, converted, resolved, FirstLocalHarmless]
  cases hfirst : strstr dotLocal s with
  | none =>
      -- no ".local" anywhere, so none at the end
      have hnot : ¬ dotLocal <:+ s := fun hsuf => strstr_ne_none hsuf hfirst
      rw [if_neg hnot]
      refine iff_of_true rfl ?_
      intro i hi
      cases hi
  | some i =>
      have hinfix := infix_of_strstr hfirst
      by_cases hsuf : dotLocal <:+ s
      · rw [if_pos hsuf]
        dsimp only
        rw [answered_eq_iff hinfix]
        constructor
        · intro h j hj
          cases hj
          exact ⟨fun _ => h, fun hnot => absurd hsuf hnot⟩
        · intro h
          exact (h i rfl).1 hsuf
      · rw [if_neg hsuf]
        dsimp only
        rw [answered_eq_self_iff hinfix]
        constructor
        · intro h j hj
          cases hj
          exact ⟨fun hc => absurd hc hsuf, fun _ => h⟩
        · intro h
          exact (h i rfl).2 hsuf

end

/-! ## Three names -/

/-- "mqtt.local", in a configuration string of its own size. -/
def localName : Buf 11 := ⟨[109, 113, 116, 116] ++ dotLocal ++ [0], rfl⟩

/-- "a.local.net". -/
def longerName : Buf 12 := ⟨[97] ++ dotLocal ++ [46, 110, 101, 116, 0], rfl⟩

/-- A network where every name is known. -/
def known : List UInt8 → Option Ip4Addr := fun _ => some ⟨192, 168, 10, 20⟩

/-- **A ".local" name is converted.** -/
theorem localName_resolved :
    ResolvesLocal known (Buf.fill 128 7, Buf.fill 128 7) localName (Buf.fill 128 7)
      ([109, 113, 116, 116] ++ dotLocal) := by
  refine (resolvesLocal_iff rfl (by decide)).mpr ?_
  intro i _
  exact ⟨fun _ => rfl, fun hnot => absurd (List.suffix_append _ _) hnot⟩

/-- **A longer domain name is cut at its label "local" and replaced.** -/
theorem longerName_replaced :
    longerName.str 0 = some ([97] ++ dotLocal ++ [46, 110, 101, 116])
      ∧ ¬ ResolvesLocal known (Buf.fill 128 7, Buf.fill 128 7) longerName (Buf.fill 128 7)
        ([97] ++ dotLocal ++ [46, 110, 101, 116]) := by
  refine ⟨rfl, fun h => ?_⟩
  have hsame := (resolvesLocal_iff_converted rfl (by decide)).mp h
  exact absurd hsame (by decide)

end EspNowGateway.Proof
