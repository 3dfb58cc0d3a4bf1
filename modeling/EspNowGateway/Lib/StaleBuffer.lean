import EspNowGateway.Lib.CObject

/-!
# Buffers that keep what they held

A buffer that is received into again and again, and never cleared, holds behind a
short record what earlier records left there. A consumer that looks for a string
in a fixed window of the buffer then sees the past, unless the record brings its
own terminator inside that window.

`Reader` says what such a consumer may depend on. `determined_iff` is the exact
condition under which what it reads is a function of the record alone. It is a
statement about two runs, because the two buffers are any two that can have been
left behind.
-/

namespace StaleBuffer

open CObject

variable {n : Nat} {α : Type}

/-- A consumer that reads a buffer of `n` bytes up to the first NUL in a window. -/
structure Reader (n : Nat) (α : Type) where
  /-- The window's first byte. -/
  lo : Nat
  /-- The end of the window. -/
  hi : Nat
  lo_lt : lo < hi
  hi_le : hi ≤ n
  /-- What is read; none when the reader would run past the window. -/
  read : Buf n → Option α
  /-- The part of the result that comes from the window. -/
  text : α → List UInt8
  /-- A result is read exactly when the window holds a NUL, and holds the string before it. -/
  text_read : ∀ b, (read b).map text
    = if 0 ∈ b.slice lo (hi - lo) then some (cstr (b.slice lo (hi - lo))) else none
  /-- Nothing behind the terminator is looked at. -/
  read_congr : ∀ b b' k, k ≤ hi → 0 ∈ (b.bytes.take k).drop lo →
    b.bytes.take k = b'.bytes.take k → read b = read b'

/-- What is read of record `p` is the same, whatever reachable buffer it is received into. -/
def Determined (r : Reader n α) (Reach : Buf n → Prop) (p : List UInt8) : Prop :=
  ∀ b b', Reach b → Reach b' →
    ∃ a, r.read (b.recvInto p) = some a ∧ r.read (b'.recvInto p) = some a

/-- Every byte of the window may have been left zero and may have been left nonzero. -/
def Rich (r : Reader n α) (Reach : Buf n → Prop) : Prop :=
  ∀ k, r.lo ≤ k → k < r.hi → ∀ v ∈ [0, 1], ∃ b, Reach b ∧ b.bytes[k]? = some v

namespace Reader

variable (r : Reader n α)

theorem read_isSome_iff {b : Buf n} :
    (∃ a, r.read b = some a) ↔ 0 ∈ b.slice r.lo (r.hi - r.lo) := by
  have htext := r.text_read b
  constructor
  · intro h
    rcases h with ⟨a, ha⟩
    by_contra hz
    rw [ha, if_neg hz] at htext
    cases htext
  · intro hz
    rw [if_pos hz] at htext
    obtain ⟨a, ha, _⟩ := Option.map_eq_some_iff.mp htext
    exact ⟨a, ha⟩

theorem text_of_read {b : Buf n} {a : α} (h : r.read b = some a) :
    r.text a = cstr (b.slice r.lo (r.hi - r.lo)) := by
  have htext := r.text_read b
  rw [if_pos (r.read_isSome_iff.mp ⟨a, h⟩), h] at htext
  exact Option.some.inj htext

end Reader

/-- Two fields of `len` bytes each, the second one a string that must end inside its field. -/
def Reader.twoFields {n : Nat} (off len : Nat) (hlen : 0 < len) (hn : off + 2 * len ≤ n)
    (first : List UInt8 → List UInt8 → List UInt8) : Reader n (List UInt8 × List UInt8) where
  lo := off + len
  hi := off + 2 * len
  lo_lt := by omega
  hi_le := hn
  read b :=
    if 0 ∈ b.slice (off + len) len then
      some (first (b.slice off len) (cstr (b.slice (off + len) len)),
        cstr (b.slice (off + len) len))
    else none
  text := Prod.snd
  text_read := by
    intro b
    rw [show off + 2 * len - (off + len) = len by omega]
    by_cases h : 0 ∈ b.slice (off + len) len
    · rw [if_pos h, if_pos h]; rfl
    · rw [if_neg h, if_neg h]; rfl
  read_congr := by
    intro b b' k hk hz heq
    obtain ⟨h, h', hcstr⟩ := Buf.cstr_slice_congr hk hz heq
    have hfirst : b.slice off len = b'.slice off len :=
      Buf.slice_congr (Nat.le_of_lt (Buf.lt_of_zero_mem hz)) heq
    rw [show off + 2 * len - (off + len) = len by omega] at h h' hcstr
    rw [if_pos h, if_pos h', hfirst, hcstr]

/-- Behind a record that ends inside the window, the window shows the old byte. -/
theorem slice_behind_record (b : Buf n) {p : List UInt8} {lo hi : Nat} {v : UInt8}
    (hp : p.length < hi) (hlo : lo < hi) (hn : hi ≤ n)
    (hv : b.bytes[max lo p.length]? = some v) :
    ∃ t, (b.recvInto p).slice lo (hi - lo) = p.drop lo ++ v :: t := by
  have hold : (b.bytes.drop p.length).drop (lo - p.length) = b.bytes.drop (max lo p.length) := by
    rw [List.drop_drop]
    congr 1
    omega
  obtain ⟨hlt, hget⟩ := List.getElem?_eq_some_iff.mp hv
  refine ⟨(b.bytes.drop (max lo p.length + 1)).take (hi - lo - (p.length - lo) - 1), ?_⟩
  rw [Buf.slice, Buf.recvInto_bytes b (by omega), List.drop_append, hold,
    List.drop_eq_getElem_cons hlt, hget, List.take_append,
    List.take_of_length_le (by rw [List.length_drop]; omega), List.length_drop]
  congr 1
  exact List.take_cons (by omega)

/-- **A record with its own terminator hides the past.** -/
theorem determined_of_nul (r : Reader n α) (Reach : Buf n → Prop) {p : List UInt8}
    (h : 0 ∈ (p.take r.hi).drop r.lo) : Determined r Reach p := by
  have hk : p.take r.hi = p.take (min r.hi p.length) := List.take_eq_take_min
  have hfront (b : Buf n) : (b.recvInto p).bytes.take (min r.hi p.length) = p.take r.hi := by
    rw [Buf.take_recvInto b (Nat.min_le_right ..) (Nat.le_trans (Nat.min_le_left ..) r.hi_le), hk]
  intro b b' _ _
  have hmem : 0 ∈ ((b.recvInto p).bytes.take (min r.hi p.length)).drop r.lo := by
    rw [hfront]; exact h
  have hsame := r.read_congr _ (b'.recvInto p) _ (Nat.min_le_left ..) hmem
    ((hfront b).trans (hfront b').symm)
  have hwindow : 0 ∈ (b.recvInto p).slice r.lo (r.hi - r.lo) := by
    have hcut : ((b.recvInto p).bytes.take (min r.hi p.length)).drop r.lo
        = ((b.recvInto p).slice r.lo (r.hi - r.lo)).take (min r.hi p.length - r.lo) := by
      rw [Buf.slice, ← List.drop_take, ← List.drop_take, List.take_take, Nat.min_assoc,
        Nat.min_comm p.length, ← Nat.min_assoc, Nat.min_self]
    rw [hcut] at hmem
    exact List.mem_of_mem_take hmem
  obtain ⟨a, ha⟩ := r.read_isSome_iff.mpr hwindow
  exact ⟨a, ha, by rw [← hsame]; exact ha⟩

/--
**When what is read is a function of the record.**

Over buffers in which every byte of the window may have been left either way, the
reader's result is the same for all of them exactly when the record reaches into
the window and brings a NUL there.
-/
theorem determined_iff (r : Reader n α) {Reach : Buf n → Prop} (hrich : Rich r Reach)
    {p : List UInt8} : Determined r Reach p ↔ 0 ∈ (p.take r.hi).drop r.lo := by
  refine ⟨fun hdet => ?_, determined_of_nul r Reach⟩
  by_contra hz
  by_cases hp : p.length < r.hi
  · -- the first byte of the window that the record does not reach decides what is read
    have hz' : 0 ∉ p.drop r.lo := by rwa [List.take_of_length_le (by omega)] at hz
    have hlt := r.lo_lt
    obtain ⟨b, hb, hb0⟩ := hrich (max r.lo p.length) (by omega) (by omega) 0 (by simp)
    obtain ⟨b', hb', hb1⟩ := hrich (max r.lo p.length) (by omega) (by omega) 1 (by simp)
    obtain ⟨a, ha, ha'⟩ := hdet b b' hb hb'
    obtain ⟨t, ht⟩ := slice_behind_record b hp r.lo_lt r.hi_le hb0
    obtain ⟨t', ht'⟩ := slice_behind_record b' hp r.lo_lt r.hi_le hb1
    have htext := r.text_of_read ha
    rw [ht, cstr_terminated hz'] at htext
    have htext' := r.text_of_read ha'
    rw [ht', cstr_append_of_not_mem hz', htext] at htext'
    simp [cstr] at htext'
  · -- the record covers the window and has no NUL there
    obtain ⟨b, hb, _⟩ := hrich r.lo (Nat.le_refl _) r.lo_lt 0 (by simp)
    obtain ⟨a, ha, _⟩ := hdet b b hb hb
    have hmem := r.read_isSome_iff.mp ⟨a, ha⟩
    rw [Buf.slice, ← List.drop_take, Buf.take_recvInto b (by omega) r.hi_le] at hmem
    exact hz hmem

end StaleBuffer
