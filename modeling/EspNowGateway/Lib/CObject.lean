import Mathlib.Data.List.TakeWhile
import Mathlib.Data.List.Basic

/-!
# C objects as checked byte arrays

A C object of `n` bytes (an array, a struct, a whole local variable) is a list of
exactly `n` bytes. Every access is checked against the object: an operation that
would read or write outside it has no result. Inside the object nothing is
checked, so a string copy that runs over the end of one field and into the next
field of the same struct does what the bytes do.

The string functions follow the C library. `cstr` is the content of the
NUL-terminated string at the front of a byte list, `str` is the string at an
offset of an object, and it exists only when the object holds a NUL at or after
that offset.
-/

namespace CObject

/-- The bytes before the first NUL. -/
def cstr (m : List UInt8) : List UInt8 := m.takeWhile (· != 0)

/-- `strstr(s, needle) - s`: where `needle` first occurs; none when `strstr` returns NULL. -/
def strstr (needle : List UInt8) : List UInt8 → Option Nat
  | [] => if needle = [] then some 0 else none
  | x :: s => if needle.isPrefixOf (x :: s) then some 0 else (strstr needle s).map (· + 1)

/-- A little-endian `int` of four bytes. -/
def le32 (v : Nat) : List UInt8 :=
  [UInt8.ofNat v, UInt8.ofNat (v / 256), UInt8.ofNat (v / 65536), UInt8.ofNat (v / 16777216)]

/-- The value of a little-endian byte string. -/
def ofLe (m : List UInt8) : Nat := m.foldr (fun b acc => b.toNat + 256 * acc) 0

/-- An object of `n` bytes. -/
structure Buf (n : Nat) where
  /-- The bytes, lowest address first. -/
  bytes : List UInt8
  /-- The object is exactly as long as its type says. -/
  size_eq : bytes.length = n
  deriving DecidableEq, Repr

namespace Buf

variable {n k : Nat}

/-- An object filled with one byte value. -/
def fill (n : Nat) (v : UInt8) : Buf n := ⟨List.replicate n v, List.length_replicate ..⟩

/-- `len` bytes of the object from offset `off` on. -/
def slice (b : Buf n) (off len : Nat) : List UInt8 := (b.bytes.drop off).take len

/-- Read `len` bytes from offset `off` on; no result when they are not all in the object. -/
def read (b : Buf n) (off len : Nat) : Option (List UInt8) :=
  if off + len ≤ n then some (b.slice off len) else none

/-- Overwrite the bytes from `off` on with `src`, which fits. -/
def write (b : Buf n) (off : Nat) (src : List UInt8) (h : off + src.length ≤ n) : Buf n where
  bytes := b.bytes.take off ++ src ++ b.bytes.drop (off + src.length)
  size_eq := by
    have := b.size_eq
    simp only [List.length_append, List.length_take, List.length_drop]
    omega

/-- `memcpy(&b[off], src, sizeof src)`; no result when it would leave the object. -/
def memcpy (b : Buf n) (off : Nat) (src : List UInt8) : Option (Buf n) :=
  if h : off + src.length ≤ n then some (b.write off src h) else none

/-- The string that starts at `off`; none when no NUL follows inside the object. -/
def str (b : Buf n) (off : Nat) : Option (List UInt8) :=
  if 0 ∈ b.bytes.drop off then some (cstr (b.bytes.drop off)) else none

/-- `strlen(&b[off])`. -/
def strlen (b : Buf n) (off : Nat) : Option Nat := (b.str off).map List.length

/-- `strcpy(&dst[doff], &src[soff])`, the terminator included. -/
def strcpy (dst : Buf n) (doff : Nat) (src : Buf k) (soff : Nat) : Option (Buf n) :=
  (src.str soff).bind fun s => dst.memcpy doff (s ++ [0])

/-- A datagram received into the object: what fits is stored at the front, the rest is lost. -/
def recvInto (b : Buf n) (p : List UInt8) : Buf n :=
  b.write 0 (p.take n) (by rw [Nat.zero_add]; exact List.length_take_le n p)

end Buf

/-! ## Strings -/

theorem cstr_append_of_mem {a b : List UInt8} (h : 0 ∈ a) : cstr (a ++ b) = cstr a := by
  induction a with
  | nil => exact absurd h (List.not_mem_nil)
  | cons x xs ih =>
      unfold cstr at ih ⊢
      rw [List.cons_append, List.takeWhile_cons, List.takeWhile_cons]
      by_cases hx : x = 0
      · simp [hx]
      · have hmem : 0 ∈ xs := (List.mem_cons.mp h).resolve_left (fun he => hx he.symm)
        simp [hx, ih hmem]

theorem cstr_append_of_not_mem {a b : List UInt8} (h : 0 ∉ a) : cstr (a ++ b) = a ++ cstr b := by
  refine List.takeWhile_append_of_pos ?_
  intro x hx
  have hne : x ≠ 0 := fun he => h (he ▸ hx)
  simpa using hne

theorem cstr_eq_self {a : List UInt8} (h : 0 ∉ a) : cstr a = a := by
  have := cstr_append_of_not_mem (b := []) h
  simpa [cstr] using this

theorem zero_not_mem_cstr (a : List UInt8) : 0 ∉ cstr a := by
  intro h
  have := List.mem_takeWhile_imp h
  simp at this

/-- A string followed by its terminator reads back as the string. -/
theorem cstr_terminated {s t : List UInt8} (h : 0 ∉ s) : cstr (s ++ 0 :: t) = s := by
  rw [cstr_append_of_not_mem h]; simp [cstr]

theorem cstr_length_le (a : List UInt8) : (cstr a).length ≤ a.length :=
  (List.takeWhile_prefix _).length_le

theorem cstr_length_lt {a : List UInt8} (h : 0 ∈ a) : (cstr a).length < a.length := by
  refine Nat.lt_of_le_of_ne (cstr_length_le a) ?_
  intro he
  have heq : cstr a = a := (List.takeWhile_prefix _).eq_of_length he
  exact zero_not_mem_cstr a (heq.symm ▸ h)

theorem take_cstr_length (a : List UInt8) : a.take (cstr a).length = cstr a :=
  (List.prefix_iff_eq_take.mp (List.takeWhile_prefix _)).symm

/-- A NUL in the list, cut at the first one. -/
theorem exists_cstr_append {a : List UInt8} (h : 0 ∈ a) : ∃ t, a = cstr a ++ 0 :: t := by
  induction a with
  | nil => exact absurd h (List.not_mem_nil)
  | cons x xs ih =>
      by_cases hx : x = 0
      · subst hx; exact ⟨xs, by simp [cstr]⟩
      · have hmem : 0 ∈ xs := (List.mem_cons.mp h).resolve_left (fun he => hx he.symm)
        obtain ⟨t, ht⟩ := ih hmem
        have hc : cstr (x :: xs) = x :: cstr xs := by simp [cstr, hx]
        exact ⟨t, by rw [hc, List.cons_append, ← ht]⟩

/-- What `strstr` points to begins with what it was asked for. -/
theorem prefix_of_strstr {needle s : List UInt8} {i : Nat} (h : strstr needle s = some i) :
    needle <+: s.drop i := by
  induction s generalizing i with
  | nil =>
      rw [strstr] at h
      split at h
      · rename_i he
        rw [he]
        exact List.nil_prefix
      · cases h
  | cons x s ih =>
      rw [strstr] at h
      split at h
      · rename_i hpre
        cases h
        exact List.isPrefixOf_iff_prefix.mp hpre
      · obtain ⟨j, hj, rfl⟩ := Option.map_eq_some_iff.mp h
        exact ih hj

/-- `strstr` finds whatever there is. -/
theorem strstr_ne_none {needle s : List UInt8} (h : needle <:+ s) : strstr needle s ≠ none := by
  induction s with
  | nil =>
      rw [List.suffix_nil.mp h]
      simp [strstr]
  | cons x s ih =>
      rw [strstr]
      split
      · simp
      · rename_i hpre
        rcases List.suffix_cons_iff.mp h with heq | hs
        · exact absurd (List.isPrefixOf_iff_prefix.mpr (heq ▸ List.prefix_refl _)) hpre
        · simpa using ih hs

@[simp] theorem le32_length (v : Nat) : (le32 v).length = 4 := rfl

theorem zero_mem_le32 {v : Nat} (h : v < 256) : 0 ∈ le32 v := by
  have h1 : v / 256 = 0 := Nat.div_eq_of_lt h
  simp [le32, h1]

/-! ## Reading back what was written -/

namespace Buf

variable {n k : Nat}

theorem ext_bytes {b b' : Buf n} (h : b.bytes = b'.bytes) : b = b' := by
  cases b; cases b'; cases h; rfl

theorem read_bounds {b : Buf n} {off len : Nat} {m : List UInt8} (h : b.read off len = some m) :
    off + len ≤ n := by
  unfold read at h
  split at h
  · assumption
  · cases h

theorem write_bytes (b : Buf n) (off : Nat) (src : List UInt8) (h : off + src.length ≤ n) :
    (b.write off src h).bytes = b.bytes.take off ++ src ++ b.bytes.drop (off + src.length) := rfl

theorem write_getElem? (b : Buf n) (off : Nat) (src : List UInt8) (h : off + src.length ≤ n)
    (i : Nat) :
    (b.write off src h).bytes[i]?
      = if off ≤ i ∧ i < off + src.length then src[i - off]? else b.bytes[i]? := by
  have hsize := b.size_eq
  have hlen : (b.bytes.take off).length = off := by rw [List.length_take]; omega
  rw [write_bytes, List.append_assoc]
  by_cases h1 : i < off
  · rw [if_neg (by omega), List.getElem?_append_left (by omega), List.getElem?_take_of_lt h1]
  · rw [List.getElem?_append_right (by omega), hlen]
    by_cases h2 : i < off + src.length
    · rw [if_pos ⟨by omega, h2⟩, List.getElem?_append_left (by omega)]
    · rw [if_neg (by omega), List.getElem?_append_right (by omega), List.getElem?_drop]
      congr 1; omega

theorem slice_getElem? (b : Buf n) (off len i : Nat) :
    (b.slice off len)[i]? = if i < len then b.bytes[off + i]? else none := by
  unfold slice
  by_cases h : i < len
  · rw [if_pos h, List.getElem?_take_of_lt h, List.getElem?_drop]
  · rw [if_neg h, List.getElem?_take_eq_none (by omega)]

theorem slice_length (b : Buf n) {off len : Nat} (h : off + len ≤ n) :
    (b.slice off len).length = len := by
  have := b.size_eq
  simp only [slice, List.length_take, List.length_drop]
  omega

theorem slice_take (b : Buf n) {off len k : Nat} (h : k ≤ len) :
    (b.slice off len).take k = b.slice off k := by
  rw [slice, List.take_take, Nat.min_eq_left h, slice]

/-- A slice, cut at a byte of the object. -/
theorem slice_split (b : Buf n) {lo k hi : Nat} (hlo : lo ≤ k) (hhi : k ≤ hi) :
    b.slice lo (hi - lo) = (b.bytes.take k).drop lo ++ b.slice k (hi - k) := by
  have hlen : hi - lo = (k - lo) + (hi - k) := by omega
  have hdrop : (b.bytes.drop lo).drop (k - lo) = b.bytes.drop k := by
    rw [List.drop_drop]; congr 1; omega
  rw [slice, hlen, List.take_add, hdrop, List.drop_take, slice]

/-- Objects that agree up to byte `k` have the same slices up to there. -/
theorem slice_congr {b b' : Buf n} {off len k : Nat} (h : off + len ≤ k)
    (heq : b.bytes.take k = b'.bytes.take k) : b.slice off len = b'.slice off len := by
  have hcut (b : Buf n) : b.slice off len = ((b.bytes.take k).drop off).take len := by
    rw [slice, List.drop_take, List.take_take, Nat.min_eq_left (by omega)]
  rw [hcut b, hcut b', heq]

theorem lt_of_zero_mem {m : List UInt8} {lo k : Nat} (h : 0 ∈ (m.take k).drop lo) : lo < k := by
  by_contra hle
  rw [List.drop_eq_nil_of_le (by rw [List.length_take]; omega)] at h
  exact List.not_mem_nil h

/-- Objects that agree up to a NUL have the same string in front of it. -/
theorem cstr_slice_congr {b b' : Buf n} {lo k hi : Nat} (hk : k ≤ hi)
    (hz : 0 ∈ (b.bytes.take k).drop lo) (heq : b.bytes.take k = b'.bytes.take k) :
    0 ∈ b.slice lo (hi - lo) ∧ 0 ∈ b'.slice lo (hi - lo)
      ∧ cstr (b.slice lo (hi - lo)) = cstr (b'.slice lo (hi - lo)) := by
  have hlo : lo ≤ k := Nat.le_of_lt (lt_of_zero_mem hz)
  have hz' : 0 ∈ (b'.bytes.take k).drop lo := by rw [← heq]; exact hz
  rw [slice_split b hlo hk, slice_split b' hlo hk]
  refine ⟨List.mem_append_left _ hz, List.mem_append_left _ hz', ?_⟩
  rw [cstr_append_of_mem hz, cstr_append_of_mem hz', heq]

/-- The front of what was written reads back. -/
theorem slice_write_take (b : Buf n) (off : Nat) (src : List UInt8) (h : off + src.length ≤ n)
    {len : Nat} (hlen : len ≤ src.length) :
    (b.write off src h).slice off len = src.take len := by
  apply List.ext_getElem?
  intro i
  rw [slice_getElem?, write_getElem?]
  by_cases hi : i < len
  · rw [if_pos hi, if_pos ⟨by omega, by omega⟩, List.getElem?_take_of_lt hi]
    congr 1; omega
  · rw [if_neg hi, List.getElem?_take_eq_none (by omega)]

theorem slice_write_self (b : Buf n) (off : Nat) (src : List UInt8) (h : off + src.length ≤ n) :
    (b.write off src h).slice off src.length = src := by
  rw [slice_write_take b off src h (Nat.le_refl _), List.take_length]

/-- **Frame**: a write leaves every slice it does not overlap alone. -/
theorem slice_write_disjoint (b : Buf n) {off : Nat} {src : List UInt8} (h : off + src.length ≤ n)
    {a len : Nat} (hd : a + len ≤ off ∨ off + src.length ≤ a) :
    (b.write off src h).slice a len = b.slice a len := by
  apply List.ext_getElem?
  intro i
  rw [slice_getElem?, slice_getElem?]
  by_cases hi : i < len
  · rw [if_pos hi, if_pos hi, write_getElem?, if_neg (by omega)]
  · rw [if_neg hi, if_neg hi]

/-- The rest of the object is one slice. -/
theorem drop_eq_slice (b : Buf n) (off : Nat) : b.bytes.drop off = b.slice off (n - off) := by
  have := b.size_eq
  unfold slice
  rw [List.take_of_length_le (by rw [List.length_drop]; omega)]

theorem memcpy_of_le (b : Buf n) {off : Nat} {src : List UInt8} (h : off + src.length ≤ n) :
    b.memcpy off src = some (b.write off src h) := dif_pos h

theorem memcpy_eq_none_iff {b : Buf n} {off : Nat} {src : List UInt8} :
    b.memcpy off src = none ↔ n < off + src.length := by
  unfold memcpy
  split
  · exact iff_of_false (by simp) (by omega)
  · exact iff_of_true rfl (by omega)

theorem str_of_mem {b : Buf n} {off : Nat} (h : 0 ∈ b.bytes.drop off) :
    b.str off = some (cstr (b.bytes.drop off)) := if_pos h

theorem str_eq_none_iff {b : Buf n} {off : Nat} : b.str off = none ↔ 0 ∉ b.bytes.drop off := by
  unfold str
  split <;> simp_all

/-- The string at the front of an object whose bytes are known up to its terminator. -/
theorem str_of_bytes {b : Buf n} {s t : List UInt8} (h : b.bytes = s ++ 0 :: t) (hs : 0 ∉ s) :
    b.str 0 = some s := by
  rw [str, List.drop_zero, h, if_pos (by simp), cstr_terminated hs]

/-- A NUL inside the next `len` bytes ends the string there, whatever follows them. -/
theorem str_of_mem_slice {b : Buf n} {off len : Nat} (h : 0 ∈ b.slice off len) :
    b.str off = some (cstr (b.slice off len)) := by
  have hsplit : b.bytes.drop off = b.slice off len ++ (b.bytes.drop off).drop len :=
    (List.take_append_drop len _).symm
  have hmem : 0 ∈ b.bytes.drop off := by rw [hsplit]; exact List.mem_append_left _ h
  rw [str_of_mem hmem, hsplit, cstr_append_of_mem h]

/-- Without a NUL in the next `len` bytes the string runs on behind them. -/
theorem str_of_not_mem_slice {b : Buf n} {off len : Nat} (h : 0 ∉ b.slice off len) :
    b.str off = (b.str (off + len)).map (b.slice off len ++ ·) := by
  have hsplit : b.bytes.drop off = b.slice off len ++ b.bytes.drop (off + len) := by
    unfold slice
    rw [← List.drop_drop]; exact (List.take_append_drop len _).symm
  by_cases hm : 0 ∈ b.bytes.drop (off + len)
  · have hmem : 0 ∈ b.bytes.drop off := by rw [hsplit]; exact List.mem_append_right _ hm
    rw [str_of_mem hmem, str_of_mem hm, Option.map_some, hsplit, cstr_append_of_not_mem h]
  · have hnone : 0 ∉ b.bytes.drop off := by
      rw [hsplit, List.mem_append]; exact fun hc => hc.elim h hm
    rw [str_eq_none_iff.mpr hnone, str_eq_none_iff.mpr hm, Option.map_none]

/-- The string at a field that another field follows, in which there is a NUL. -/
theorem str_adjacent {b : Buf n} (off len : Nat) {next : Nat} (h : 0 ∈ b.slice (off + len) next) :
    b.str off = some (if 0 ∈ b.slice off len then cstr (b.slice off len)
      else b.slice off len ++ cstr (b.slice (off + len) next)) := by
  by_cases hf : 0 ∈ b.slice off len
  · rw [if_pos hf]; exact str_of_mem_slice hf
  · rw [if_neg hf, str_of_not_mem_slice hf, str_of_mem_slice h]; rfl

/-- A string and its terminator lie within the next `len` bytes exactly when these hold a NUL. -/
theorem str_within_iff {b : Buf n} {off len : Nat} (h : off + len ≤ n) :
    (∃ s, b.str off = some s ∧ (s ++ [0]).length ≤ len) ↔ 0 ∈ b.slice off len := by
  simp only [List.length_append, List.length_singleton]
  constructor
  · intro hstr
    rcases hstr with ⟨s, hs, hlen⟩
    by_contra hz
    rw [str_of_not_mem_slice hz] at hs
    obtain ⟨t, _, rfl⟩ := Option.map_eq_some_iff.mp hs
    rw [List.length_append, slice_length b h] at hlen
    omega
  · intro hz
    have hlt := cstr_length_lt hz
    rw [slice_length b h] at hlt
    exact ⟨_, str_of_mem_slice hz, hlt⟩

/-- Copying a string whose terminator fits. -/
theorem strcpy_of_str {dst : Buf n} {doff : Nat} {src : Buf k} {soff : Nat} {s : List UInt8}
    (hs : src.str soff = some s) (hfit : doff + (s ++ [0]).length ≤ n) :
    dst.strcpy doff src soff = some (dst.write doff (s ++ [0]) hfit) := by
  rw [strcpy, hs, Option.bind_some, memcpy_of_le _ hfit]

/-- What `strcpy` stored reads back as the string it copied. -/
theorem str_write_terminated (b : Buf n) {off : Nat} {s : List UInt8}
    (h : off + (s ++ [0]).length ≤ n) (hs : 0 ∉ s) :
    (b.write off (s ++ [0]) h).str off = some s := by
  have hslice : (b.write off (s ++ [0]) h).slice off (s ++ [0]).length = s ++ [0] :=
    slice_write_self b off (s ++ [0]) h
  have hmem : 0 ∈ (b.write off (s ++ [0]) h).slice off (s ++ [0]).length := by
    rw [hslice]; simp
  rw [str_of_mem_slice hmem, hslice, cstr_terminated hs]

/-- **Frame for strings**: a write wholly outside the string and its terminator leaves it alone. -/
theorem str_write_disjoint (b : Buf n) {off : Nat} {src : List UInt8} (h : off + src.length ≤ n)
    {a : Nat} {s : List UInt8} (hs : b.str a = some s)
    (hd : a + s.length + 1 ≤ off ∨ off + src.length ≤ a) :
    (b.write off src h).str a = some s := by
  have hmem : 0 ∈ b.bytes.drop a := by
    by_contra hc
    rw [str_eq_none_iff.mpr hc] at hs; cases hs
  rw [str_of_mem hmem] at hs
  have hs' : cstr (b.bytes.drop a) = s := Option.some.inj hs
  obtain ⟨t, ht⟩ := exists_cstr_append hmem
  have hslice : b.slice a (s.length + 1) = s ++ [0] := by
    unfold slice
    rw [ht, hs', List.take_append, List.take_of_length_le (by omega)]
    simp
  have hkeep : (b.write off src h).slice a (s.length + 1) = s ++ [0] := by
    rw [slice_write_disjoint b h (by omega), hslice]
  have hnz : 0 ∉ s := hs' ▸ zero_not_mem_cstr _
  rw [str_of_mem_slice (by rw [hkeep]; simp), hkeep, cstr_terminated hnz]

/-! ## Receiving -/

theorem recvInto_getElem? (b : Buf n) (p : List UInt8) (i : Nat) :
    (b.recvInto p).bytes[i]? = if i < min p.length n then p[i]? else b.bytes[i]? := by
  rw [recvInto, write_getElem?]
  simp only [Nat.zero_add, Nat.zero_le, true_and, Nat.sub_zero, List.length_take]
  rw [Nat.min_comm]
  by_cases h : i < min p.length n
  · rw [if_pos h, if_pos h, List.getElem?_take_of_lt (by omega)]
  · rw [if_neg h, if_neg h]

theorem recvInto_bytes (b : Buf n) {p : List UInt8} (h : p.length ≤ n) :
    (b.recvInto p).bytes = p ++ b.bytes.drop p.length := by
  rw [recvInto, write_bytes, List.take_zero, List.nil_append, Nat.zero_add,
    List.take_of_length_le h]

/-- The front of the object is what was received, as far as that goes. -/
theorem take_recvInto (b : Buf n) {p : List UInt8} {k : Nat} (hp : k ≤ p.length) (hn : k ≤ n) :
    (b.recvInto p).bytes.take k = p.take k := by
  apply List.ext_getElem?
  intro i
  by_cases hi : i < k
  · rw [List.getElem?_take_of_lt hi, List.getElem?_take_of_lt hi, recvInto_getElem?,
      if_pos (by omega)]
  · rw [List.getElem?_take_eq_none (by omega), List.getElem?_take_eq_none (by omega)]

/-- A slice that was wholly received holds the received bytes. -/
theorem slice_recvInto (b : Buf n) (p : List UInt8) {off len : Nat}
    (hp : off + len ≤ p.length) (hn : off + len ≤ n) :
    (b.recvInto p).slice off len = (p.drop off).take len := by
  apply List.ext_getElem?
  intro i
  rw [slice_getElem?]
  by_cases hi : i < len
  · rw [if_pos hi, recvInto_getElem?, if_pos (by omega), List.getElem?_take_of_lt hi,
      List.getElem?_drop]
  · rw [if_neg hi, List.getElem?_take_eq_none (by omega)]

/-- Reading what was wholly received. -/
theorem read_recvInto (b : Buf n) {p : List UInt8} {off len : Nat} (hp : off + len ≤ p.length)
    (hn : off + len ≤ n) : (b.recvInto p).read off len = some ((p.drop off).take len) := by
  rw [read, if_pos hn, slice_recvInto b p hp hn]

end Buf

end CObject
