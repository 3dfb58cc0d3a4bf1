import Mathlib.Data.List.Basic
import Mathlib.Logic.Function.Basic

/-!
# A heap of byte blocks

The allocator's state as the C library documents it: which blocks are live, and
what each holds. An address may be handed out again after it was freed, so a
pointer is only as good as its block's membership in `live`, and freeing a
pointer that is not live is the error a double free commits.
-/

namespace CHeap

/-- The address of a block. -/
abbrev Ptr := Nat

/-- The live blocks and their contents. -/
structure Heap where
  /-- The live blocks. -/
  live : List Ptr
  /-- The contents of each block; meaningless for one that is not live. -/
  bytes : Ptr → List UInt8
  /-- No block is live twice. -/
  nodup : live.Nodup

namespace Heap

/-- No block is live. -/
def empty : Heap := ⟨[], fun _ => [], List.nodup_nil⟩

/-- The contents of a live block. -/
def get (h : Heap) (p : Ptr) : Option (List UInt8) := if p ∈ h.live then some (h.bytes p) else none

/-- A new block at a fresh address, with the contents the allocator left in it. -/
def malloc (h : Heap) (p : Ptr) (junk : List UInt8) (fresh : p ∉ h.live) : Heap where
  live := p :: h.live
  bytes := Function.update h.bytes p junk
  nodup := List.nodup_cons.mpr ⟨fresh, h.nodup⟩

/-- `free(p)`. Of a block that is not live it leaves the live ones alone. -/
def free (h : Heap) (p : Ptr) : Heap := ⟨h.live.erase p, h.bytes, h.nodup.erase p⟩

/-- `memcpy(&p[off], src, sizeof src)`: the block must be live and long enough. -/
def memcpy (h : Heap) (p : Ptr) (off : Nat) (src : List UInt8) : Option Heap :=
  if p ∈ h.live ∧ off + src.length ≤ (h.bytes p).length then
    some { h with
      bytes := Function.update h.bytes p
        ((h.bytes p).take off ++ src ++ (h.bytes p).drop (off + src.length)) }
  else none

/-- What the allocator makes of one `realloc`; bytes beyond the old ones are whatever it finds. -/
inductive Realloc where
  | inPlace (junk : Nat → UInt8)
  | moved (q : Ptr) (junk : Nat → UInt8)
  | fail

/-- The block is not moved: it is extended where it is, or left as it was. -/
def Realloc.Stays : Realloc → Prop
  | .moved .. => False
  | _ => True

/-- A block's contents after its size has changed. -/
def resize (m : List UInt8) (size : Nat) (junk : Nat → UInt8) : List UInt8 :=
  m.take size ++ (List.range (size - m.length)).map junk

/--
`realloc(p, size)`: the heap it leaves and the pointer it returns. No result when
`p` is not live. A size of zero frees the block and returns NULL; a size beyond
`PTRDIFF_MAX` is never served, and neither is an address that is in use.
-/
def realloc (h : Heap) (p : Ptr) (size : Nat) (o : Realloc) : Option (Heap × Option Ptr) :=
  if p ∈ h.live then
    if size = 0 then some (h.free p, none)
    else if 0x8000000000000000 ≤ size then some (h, none)
    else match o with
      | .inPlace junk =>
          some ({ h with bytes := Function.update h.bytes p (resize (h.bytes p) size junk) }, some p)
      | .moved q junk =>
          if fresh : q ∉ h.live then
            some ((h.malloc q (resize (h.bytes p) size junk) fresh).free p, some q)
          else some (h, none)
      | .fail => some (h, none)
  else none

variable {h h' : Heap} {p q : Ptr} {src junk : List UInt8}

theorem get_of_mem (hp : p ∈ h.live) : h.get p = some (h.bytes p) := if_pos hp

theorem mem_of_get {m : List UInt8} (hg : h.get p = some m) : p ∈ h.live := by
  unfold get at hg
  split at hg
  · assumption
  · cases hg

theorem get_malloc_self (fresh : p ∉ h.live) : (h.malloc p junk fresh).get p = some junk := by
  rw [get_of_mem (List.mem_cons_self ..)]
  simp [malloc]

/-- Allocating leaves every live block alone. -/
theorem get_malloc_of_mem (fresh : p ∉ h.live) (hq : q ∈ h.live) :
    (h.malloc p junk fresh).get q = h.get q := by
  have hne : q ≠ p := fun he => fresh (he ▸ hq)
  rw [get_of_mem (List.mem_cons_of_mem p hq), get_of_mem hq]
  simp [malloc, Function.update_of_ne hne]

/-- Freeing a block leaves every other one alone. -/
theorem get_free_ne (hne : q ≠ p) : (h.free p).get q = h.get q := by
  have hiff : q ∈ (h.free p).live ↔ q ∈ h.live := List.mem_erase_of_ne hne
  by_cases hq : q ∈ h.live
  · rw [get_of_mem (hiff.mpr hq), get_of_mem hq]; rfl
  · rw [get, get, if_neg hq, if_neg (fun hc => hq (hiff.mp hc))]

theorem memcpy_of_get {m : List UInt8} {off : Nat} (hg : h.get p = some m)
    (hlen : off + src.length ≤ m.length) :
    ∃ h', h.memcpy p off src = some h'
      ∧ h'.get p = some (m.take off ++ src ++ m.drop (off + src.length)) := by
  have hp := mem_of_get hg
  rw [get_of_mem hp] at hg
  cases hg
  refine ⟨_, if_pos ⟨hp, hlen⟩, ?_⟩
  show (if p ∈ h.live then some (Function.update h.bytes p _ p) else none) = _
  rw [if_pos hp, Function.update_self]

theorem memcpy_live {off : Nat} (hc : h.memcpy p off src = some h') : h'.live = h.live := by
  unfold memcpy at hc
  split at hc
  · cases hc; rfl
  · cases hc

/-- A block overwritten from its first byte to its last. -/
theorem get_memcpy_whole {m : List UInt8} (hc : h.memcpy p 0 src = some h')
    (hg : h.get p = some m) (hlen : m.length = src.length) : h'.get p = some src := by
  have hfit : 0 + src.length ≤ m.length := by omega
  obtain ⟨h'', hc', hget⟩ := memcpy_of_get hg hfit
  rw [hc] at hc'
  cases hc'
  rw [hget, List.take_zero, List.nil_append, Nat.zero_add, List.drop_of_length_le (by omega),
    List.append_nil]

theorem get_memcpy_ne {off : Nat} (hc : h.memcpy p off src = some h') (hne : q ≠ p) :
    h'.get q = h.get q := by
  unfold memcpy at hc
  split at hc
  · cases hc
    unfold get
    simp only [Function.update_of_ne hne]
  · cases hc

/-! ### Resizing -/

theorem resize_length (m : List UInt8) (size : Nat) (junk : Nat → UInt8) :
    (resize m size junk).length = size := by
  simp only [resize, List.length_append, List.length_take, List.length_map, List.length_range]
  omega

/-- Growing a block keeps what it held. -/
theorem resize_take (m : List UInt8) {size k : Nat} (junk : Nat → UInt8) (hk : k ≤ m.length)
    (hsize : k ≤ size) : (resize m size junk).take k = m.take k := by
  rw [resize, List.take_append_of_le_length (by rw [List.length_take]; omega), List.take_take,
    Nat.min_eq_left hsize]

theorem realloc_inPlace {m : List UInt8} {size : Nat} (hg : h.get p = some m) (hpos : size ≠ 0)
    (hmax : size < 0x8000000000000000) (junk : Nat → UInt8) :
    ∃ h', h.realloc p size (.inPlace junk) = some (h', some p)
      ∧ h'.get p = some (resize m size junk) := by
  have hp := mem_of_get hg
  rw [get_of_mem hp] at hg
  cases hg
  refine ⟨{ h with bytes := Function.update h.bytes p (resize (h.bytes p) size junk) }, ?_, ?_⟩
  · rw [realloc, if_pos hp, if_neg hpos, if_neg (by omega)]
  · show (if p ∈ h.live then some (Function.update h.bytes p _ p) else none) = _
    rw [if_pos hp, Function.update_self]

theorem mem_of_realloc {size : Nat} {o : Realloc} {r : Heap × Option Ptr}
    (hr : h.realloc p size o = some r) : p ∈ h.live := by
  unfold realloc at hr
  split at hr
  · assumption
  · cases hr

/-- A size beyond `PTRDIFF_MAX`, such as a negative one makes. -/
theorem realloc_refused {size : Nat} (hp : p ∈ h.live) (hsize : 0x8000000000000000 ≤ size)
    (o : Realloc) : h.realloc p size o = some (h, none) := by
  unfold realloc
  rw [if_pos hp, if_neg (by omega), if_pos hsize]

theorem realloc_inPlace_live {size : Nat} {k : Nat → UInt8}
    (hr : h.realloc p size (.inPlace k) = some (h', some q)) : h'.live = h.live := by
  unfold realloc at hr
  split at hr
  · split at hr
    · cases hr
    · split at hr <;> cases hr
      rfl
  · cases hr

/-- A block that is moved is not live any more at its old address. -/
theorem realloc_moved {size : Nat} (hp : p ∈ h.live) (fresh : q ∉ h.live) (hpos : size ≠ 0)
    (hmax : size < 0x8000000000000000) (k : Nat → UInt8) :
    ∃ h', h.realloc p size (.moved q k) = some (h', some q) ∧ p ∉ h'.live := by
  refine ⟨(h.malloc q (resize (h.bytes p) size k) fresh).free p, ?_, List.Nodup.not_mem_erase ?_⟩
  · rw [realloc, if_pos hp, if_neg hpos, if_neg (by omega), dif_pos fresh]
  · exact (h.malloc q (resize (h.bytes p) size k) fresh).nodup

/-- No allocator hands out an address that is in use. -/
theorem realloc_taken {size : Nat} (hp : p ∈ h.live) (taken : q ∈ h.live) (hpos : size ≠ 0)
    (k : Nat → UInt8) : h.realloc p size (.moved q k) = some (h, none) := by
  unfold realloc
  rw [if_pos hp, if_neg hpos]
  split
  · rfl
  · exact dif_neg (not_not_intro taken)

theorem memcpy_dead {off : Nat} (hp : p ∉ h.live) : h.memcpy p off src = none :=
  if_neg fun hc => hp hc.1

/-- An allocator that has nothing to give. -/
theorem realloc_fail {size : Nat} (hp : p ∈ h.live) (hpos : size ≠ 0) :
    h.realloc p size .fail = some (h, none) := by
  unfold realloc
  rw [if_pos hp, if_neg hpos]
  split <;> rfl

/-- A size of zero. -/
theorem realloc_zero (hp : p ∈ h.live) (o : Realloc) : h.realloc p 0 o = some (h.free p, none) := by
  unfold realloc
  rw [if_pos hp, if_pos rfl]

end Heap

end CHeap
