import EspNowGateway.Lib.CHeap
import EspNowGateway.Lib.CObject
import Mathlib.Data.Int.Lemmas
import Mathlib.Logic.Relation

/-!
# The Receiver's element loop

`main` receives each packet into `recv_data` and hands it to `print_packet`. Behind
the fixed headers that function walks a chain of vendor elements at a stride of
257 bytes, grows a heap block to take each element's body, and stops at the first
element whose flag says that no more follow.

The buffer is a C array, so a read behind its end has no result, and the block is
on a heap, where `realloc` may refuse, move or extend it. `walked` is ghost: the
offset and the body length of every element the loop has come to.
-/

namespace EspNowGateway.Receiver

open CObject CHeap

/-- `MAX_PACKET_LEN`: 1470 + 6*7. -/
def maxPacketLen : Nat := 1512

/-- The locals of `print_packet` that the loop carries along, and the heap. -/
structure LoopState where
  offset : Nat
  totalBodyLength : Int
  totalBody : Ptr
  heap : Heap
  walked : List (Nat × Int)

/-- On entry, with the block that `malloc(1)` has returned. -/
def LoopState.start (heap : Heap) (totalBody : Ptr) : LoopState where
  offset := 56
  totalBodyLength := 0
  totalBody := totalBody
  heap := heap
  walked := []

/-- An `int` passed where a `size_t` is expected. -/
def sizeT (n : Int) : Nat := (n % 0x10000000000000000).toNat

/-- `*totalBody = *_totalBody`: an `int` is read, and its low byte is stored. -/
def copyFirst (heap : Heap) (totalBody newBody : Ptr) : Option Heap := do
  let m ← heap.get newBody
  if 4 ≤ m.length then heap.memcpy totalBody 0 (m.take 1) else none

/-- How the walk ends. -/
inductive Outcome where
  | finished (s : LoopState)
  | reallocFail (s : LoopState)
  | fault (s : LoopState)

/-- The locals when the walk ends. -/
def Outcome.state : Outcome → LoopState
  | .finished s => s
  | .reallocFail s => s
  | .fault s => s

/-- The walk did not come to its end. -/
def Outcome.Broken : Outcome → Prop
  | .finished _ => False
  | .reallocFail _ => True
  | .fault _ => True

/-- What one pass through the loop comes to. -/
inductive Iteration where
  | more (s : LoopState)
  | ended (o : Outcome)

/-- The tail of the loop's body, from `realloc` on: the state it leaves, or how the walk ends. -/
def store (s : LoopState) (bodyLength : Int) (body : List UInt8) (o : Heap.Realloc) :
    LoopState ⊕ Outcome :=
  let total := s.totalBodyLength + bodyLength
  match s.heap.realloc s.totalBody (sizeT total) o with
  | none => .inr (.fault s)
  | some (heap, none) =>
      -- "realloc fail": `free` of a block that is no longer live is an error of its own
      if s.totalBody ∈ heap.live then
        .inr (.reallocFail { s with totalBodyLength := total, heap := heap.free s.totalBody })
      else .inr (.fault s)
  | some (heap, some newBody) =>
      match copyFirst heap s.totalBody newBody with
      | none => .inr (.fault s)
      | some heap =>
          -- a negative length reaches `memcpy` as a huge one
          if 0 ≤ bodyLength then
            match heap.memcpy s.totalBody s.totalBodyLength.toNat body with
            | some heap => .inl { s with totalBodyLength := total, heap := heap }
            | none => .inr (.fault s)
          else .inr (.fault s)

/-- `data[offset+1] - 5`, from the seven bytes in front of a body. -/
def bodyLength (element : List UInt8) : Int := (element.getD 1 0).toNat - 5

/-- `data[offset+6] & 0x10`. -/
def moreData (element : List UInt8) : UInt8 := element.getD 6 0 &&& 0x10

/-- One pass through the loop. -/
def iteration (data : Buf maxPacketLen) (o : Heap.Realloc) (s : LoopState) : Iteration :=
  match data.read s.offset 7 with
  | none => .ended (.fault s)
  | some element =>
      let s := { s with walked := s.walked ++ [(s.offset, bodyLength element)] }
      match data.read (s.offset + 7) (bodyLength element).toNat with
      | none => .ended (.fault s)
      | some body =>
          match store s (bodyLength element) body o with
          | .inr ended => .ended ended
          | .inl s =>
              if moreData element = 0 then .ended (.finished s)
              else .more { s with offset := s.offset + 257 }

/-- The loop, for at most `fuel` elements; `oracle i` is what the `i`-th `realloc` does. -/
def loop (data : Buf maxPacketLen) (oracle : Nat → Heap.Realloc) : Nat → LoopState → Option Outcome
  | 0, _ => none
  | fuel + 1, s =>
      match iteration data (oracle s.walked.length) s with
      | .more s => loop data oracle fuel s
      | .ended o => some o

/-- The element loop of `print_packet`. No more than six elements fit the buffer. -/
def elementLoop (data : Buf maxPacketLen) (oracle : Nat → Heap.Realloc) (heap : Heap)
    (totalBody : Ptr) : Option Outcome :=
  loop data oracle 7 (LoopState.start heap totalBody)

/-! ## What a run comes by -/

/-- From `s` the loop comes to the pass that begins in `t`. -/
def Reaches (data : Buf maxPacketLen) (oracle : Nat → Heap.Realloc) :
    LoopState → LoopState → Prop :=
  Relation.ReflTransGen fun s t => iteration data (oracle s.walked.length) s = .more t

/-- The pass that begins in `s` reads `data[i]`: the seven bytes in front of a body, and the body. -/
def Reads (data : Buf maxPacketLen) (s : LoopState) (i : Nat) : Prop :=
  s.offset ≤ i ∧ i < s.offset + 7 + (bodyLength (data.slice s.offset 7)).toNat

/-- The pass that begins in `s` comes to its `memcpy`, and `n` is the length it copies. -/
def Copies (data : Buf maxPacketLen) (o : Heap.Realloc) (s : LoopState) (n : Int) : Prop :=
  ∃ element body heap newBody heap', data.read s.offset 7 = some element
    ∧ n = bodyLength element
    ∧ data.read (s.offset + 7) n.toNat = some body
    ∧ s.heap.realloc s.totalBody (sizeT (s.totalBodyLength + n)) o = some (heap, some newBody)
    ∧ copyFirst heap s.totalBody newBody = some heap'

/-! ## What a pass does -/

theorem bodyLength_bounds (element : List UInt8) :
    -5 ≤ bodyLength element ∧ bodyLength element ≤ 250 := by
  have := (element.getD 1 0).toNat_lt
  unfold bodyLength
  omega

/-- A pass that has stored an element's body: what it read was inside the buffer. -/
def Pass (data : Buf maxPacketLen) (s s' : LoopState) (stride : Nat) : Prop :=
  ∃ element, data.read s.offset 7 = some element
    ∧ 0 ≤ bodyLength element ∧ bodyLength element ≤ 250
    ∧ s.offset + 7 + (bodyLength element).toNat ≤ maxPacketLen
    ∧ s'.offset = s.offset + stride
    ∧ s'.walked = s.walked ++ [(s.offset, bodyLength element)]
    ∧ s'.totalBodyLength = s.totalBodyLength + bodyLength element

/-- The body is stored and nothing but the total and the heap has changed, or the walk breaks off. -/
theorem store_cases (s : LoopState) (bodyLength : Int) (body : List UInt8) (o : Heap.Realloc) :
    (∃ heap, 0 ≤ bodyLength ∧ store s bodyLength body o
        = .inl { s with totalBodyLength := s.totalBodyLength + bodyLength, heap := heap })
      ∨ ∃ e, store s bodyLength body o = .inr e ∧ e.Broken ∧ e.state.walked = s.walked := by
  simp only [store]
  split
  · exact Or.inr ⟨_, rfl, trivial, rfl⟩
  · split
    · exact Or.inr ⟨_, rfl, trivial, rfl⟩
    · exact Or.inr ⟨_, rfl, trivial, rfl⟩
  · split
    · exact Or.inr ⟨_, rfl, trivial, rfl⟩
    · split
      · rename_i hpos
        split
        · exact Or.inl ⟨_, hpos, rfl⟩
        · exact Or.inr ⟨_, rfl, trivial, rfl⟩
      · exact Or.inr ⟨_, rfl, trivial, rfl⟩

/--
A pass goes on by one stride, or is the last one, or breaks the walk off. Once the
front of an element has been read, it is on record however the pass ends.
-/
theorem iteration_cases (data : Buf maxPacketLen) (o : Heap.Realloc) (s : LoopState) :
    (∃ s', iteration data o s = .more s' ∧ Pass data s s' 257)
      ∨ (∃ s', iteration data o s = .ended (.finished s') ∧ Pass data s s' 0)
      ∨ ∃ e, iteration data o s = .ended e ∧ e.Broken
        ∧ ((data.read s.offset 7 = none ∧ e.state.walked = s.walked)
          ∨ ∃ element, data.read s.offset 7 = some element
            ∧ e.state.walked = s.walked ++ [(s.offset, bodyLength element)]) := by
  rw [iteration]
  cases hel : data.read s.offset 7 with
  | none => exact Or.inr (Or.inr ⟨_, rfl, trivial, Or.inl ⟨rfl, rfl⟩⟩)
  | some element =>
      dsimp only
      cases hbody : data.read (s.offset + 7) (bodyLength element).toNat with
      | none => exact Or.inr (Or.inr ⟨_, rfl, trivial, Or.inr ⟨element, rfl, rfl⟩⟩)
      | some body =>
          have hmax := (bodyLength_bounds element).2
          have hin := Buf.read_bounds hbody
          dsimp only
          rcases store_cases { s with walked := s.walked ++ [(s.offset, bodyLength element)] }
            (bodyLength element) body o with ⟨heap, hpos, hst⟩ | ⟨e, hst, hbroken, hwalked⟩
          · rw [hst]
            by_cases hmore : moreData element = 0
            · refine Or.inr (Or.inl ⟨_, if_pos hmore, element, hel, hpos, hmax, hin, ?_⟩)
              exact ⟨rfl, rfl, rfl⟩
            · refine Or.inl ⟨_, if_neg hmore, element, hel, hpos, hmax, hin, ?_⟩
              exact ⟨rfl, rfl, rfl⟩
          · rw [hst]
            exact Or.inr (Or.inr ⟨e, rfl, hbroken, Or.inr ⟨element, rfl, hwalked⟩⟩)

/-- A pass over an element whose front and body can both be read. -/
theorem iteration_of_reads {data : Buf maxPacketLen} {s : LoopState} {element body : List UInt8}
    (o : Heap.Realloc) (hel : data.read s.offset 7 = some element)
    (hbody : data.read (s.offset + 7) (bodyLength element).toNat = some body) :
    iteration data o s
      = match store { s with walked := s.walked ++ [(s.offset, bodyLength element)] }
          (bodyLength element) body o with
        | .inr e => .ended e
        | .inl s => if moreData element = 0 then .ended (.finished s)
            else .more { s with offset := s.offset + 257 } := by
  simp only [iteration, hel, hbody]

theorem pass_of_more {data : Buf maxPacketLen} {o : Heap.Realloc} {s t : LoopState}
    (h : iteration data o s = .more t) : Pass data s t 257 := by
  rcases iteration_cases data o s with ⟨t', hit, hpass⟩ | ⟨t', hit, _⟩ | ⟨e, hit, _⟩
  · rw [hit] at h
    cases h
    exact hpass
  · rw [hit] at h
    cases h
  · rw [hit] at h
    cases h

/-- A negative `int` is a size beyond what any object can have. -/
theorem sizeT_of_neg {n : Int} (hneg : n < 0) (hmin : -0x8000000000000000 ≤ n) :
    0x8000000000000000 ≤ sizeT n := by
  unfold sizeT
  omega

/-- A total below zero is a size that is never served: the walk stops as if memory had run out. -/
theorem store_refused {s : LoopState} {bodyLength : Int} (body : List UInt8) (o : Heap.Realloc)
    (hlive : s.totalBody ∈ s.heap.live) (hneg : s.totalBodyLength + bodyLength < 0)
    (hmin : -0x8000000000000000 ≤ s.totalBodyLength + bodyLength) :
    ∃ t, store s bodyLength body o = .inr (.reallocFail t) := by
  have hre := Heap.realloc_refused hlive (sizeT_of_neg hneg hmin) o
  refine ⟨{ s with
    totalBodyLength := s.totalBodyLength + bodyLength
    heap := s.heap.free s.totalBody }, ?_⟩
  simp only [store, hre, if_pos hlive]

/-! ## The walk ends -/

/-- A walk that starts so far in that the fuel outlasts the buffer comes to an end. -/
theorem loop_total (data : Buf maxPacketLen) (oracle : Nat → Heap.Realloc) {fuel : Nat}
    {s : LoopState} (h : maxPacketLen < s.offset + 7 + 257 * fuel) :
    ∃ o, loop data oracle (fuel + 1) s = some o := by
  induction fuel generalizing s with
  | zero =>
      -- this far in, no element's front fits any more
      rw [loop]
      rcases iteration_cases data (oracle s.walked.length) s with
        ⟨s', hit, _, _, _, _, hin, _⟩ | ⟨s', hit, _⟩ | ⟨e, hit, _⟩ <;> rw [hit]
      · omega
      · exact ⟨_, rfl⟩
      · exact ⟨_, rfl⟩
  | succ fuel ih =>
      rw [loop]
      rcases iteration_cases data (oracle s.walked.length) s with
        ⟨s', hit, _, _, _, _, _, hoff, _⟩ | ⟨s', hit, _⟩ | ⟨e, hit, _⟩ <;> rw [hit]
      · exact ih (by omega)
      · exact ⟨_, rfl⟩
      · exact ⟨_, rfl⟩

/-- **The element loop ends on every packet**, whatever the allocator does. -/
theorem elementLoop_total (data : Buf maxPacketLen) (oracle : Nat → Heap.Realloc) (heap : Heap)
    (totalBody : Ptr) : ∃ o, elementLoop data oracle heap totalBody = some o :=
  loop_total data oracle (show 1512 < 56 + 7 + 257 * 6 by decide)

/-- A walk that has ended does not notice how much further it could have gone. -/
theorem loop_succ {data : Buf maxPacketLen} {oracle : Nat → Heap.Realloc} {fuel : Nat}
    {s : LoopState} {o : Outcome} (hrun : loop data oracle fuel s = some o) :
    loop data oracle (fuel + 1) s = some o := by
  induction fuel generalizing s with
  | zero => cases hrun
  | succ fuel ih =>
      rw [loop] at hrun ⊢
      cases hit : iteration data (oracle s.walked.length) s with
      | ended e =>
          rw [hit] at hrun
          exact hrun
      | more t =>
          rw [hit] at hrun
          exact ih hrun

/-- So far the walk has moved in strides, and stored at most 250 bytes in each. -/
def Strided (s : LoopState) : Prop :=
  s.offset = 56 + 257 * s.walked.length ∧ s.totalBodyLength ≤ 250 * s.walked.length

theorem strided_more {data : Buf maxPacketLen} {s s' : LoopState} (h : Strided s)
    (hpass : Pass data s s' 257) : Strided s' := by
  obtain ⟨hoff, htotal⟩ := h
  obtain ⟨element, _, _, hmax, _, hoff', hwalked, htotal'⟩ := hpass
  have hlen : s'.walked.length = s.walked.length + 1 := by
    rw [hwalked, List.length_append, List.length_singleton]
  exact ⟨by omega, by omega⟩

/-- What a walk can bring together: six elements, of which the last is cut by the buffer's end. -/
theorem loop_finished_le {data : Buf maxPacketLen} {oracle : Nat → Heap.Realloc} {fuel : Nat}
    {s s' : LoopState} (h : Strided s) (hrun : loop data oracle fuel s = some (.finished s')) :
    s'.totalBodyLength ≤ 1414 := by
  induction fuel generalizing s with
  | zero => cases hrun
  | succ fuel ih =>
      rw [loop] at hrun
      rcases iteration_cases data (oracle s.walked.length) s with
        ⟨t, hit, hpass⟩ | ⟨t, hit, hpass⟩ | ⟨e, hit, hbroken, _⟩ <;> rw [hit] at hrun
      · exact ih (strided_more h hpass) hrun
      · cases hrun
        -- the stride leaves the sixth element 164 bytes, and the seventh none
        obtain ⟨hoff, htotal⟩ := h
        obtain ⟨element, _, _, hmax, hin, _, _, htotal'⟩ := hpass
        have hsize : maxPacketLen = 1512 := rfl
        omega
      · cases hrun
        exact hbroken.elim

theorem strided_start (heap : Heap) (totalBody : Ptr) : Strided (LoopState.start heap totalBody) :=
  ⟨rfl, Int.le_refl 0⟩

/-! ## Where the walk begins -/

theorem loop_walked {data : Buf maxPacketLen} {oracle : Nat → Heap.Realloc} {fuel : Nat}
    {s : LoopState} {o : Outcome} (hrun : loop data oracle fuel s = some o) :
    s.walked <+: o.state.walked := by
  induction fuel generalizing s with
  | zero => cases hrun
  | succ fuel ih =>
      rw [loop] at hrun
      rcases iteration_cases data (oracle s.walked.length) s with
        ⟨t, hit, _, _, _, _, _, _, hwalked, _⟩ | ⟨t, hit, _, _, _, _, _, _, hwalked, _⟩
          | ⟨e, hit, _, ⟨_, hwalked⟩ | ⟨_, _, hwalked⟩⟩ <;> rw [hit] at hrun
      · exact (List.prefix_append ..).trans (hwalked ▸ ih hrun)
      all_goals
        cases hrun
        show s.walked <+: _
      · exact hwalked ▸ List.prefix_append ..
      · exact hwalked ▸ List.prefix_refl _
      · exact hwalked ▸ List.prefix_append ..

/-- Whatever becomes of the walk, the element it begins with is on record. -/
theorem loop_first {data : Buf maxPacketLen} {oracle : Nat → Heap.Realloc} {fuel : Nat}
    {s : LoopState} {o : Outcome} {element : List UInt8} (hel : data.read s.offset 7 = some element)
    (hrun : loop data oracle (fuel + 1) s = some o) :
    s.walked ++ [(s.offset, bodyLength element)] <+: o.state.walked := by
  rw [loop] at hrun
  rcases iteration_cases data (oracle s.walked.length) s with
    ⟨t, hit, element', hel', _, _, _, _, hwalked, _⟩
      | ⟨t, hit, element', hel', _, _, _, _, hwalked, _⟩
      | ⟨e, hit, _, ⟨hnone, _⟩ | ⟨element', hel', hwalked⟩⟩ <;> rw [hit] at hrun
  · rw [hel] at hel'
    cases hel'
    exact hwalked ▸ loop_walked hrun
  · rw [hel] at hel'
    cases hel'
    cases hrun
    exact hwalked ▸ List.prefix_refl _
  · rw [hel] at hnone
    cases hnone
  · rw [hel] at hel'
    cases hel'
    cases hrun
    exact hwalked ▸ List.prefix_refl _

/-- **The first element decoded is the one at byte 56.** -/
theorem elementLoop_first {data : Buf maxPacketLen} {oracle : Nat → Heap.Realloc} {heap : Heap}
    {totalBody : Ptr} {o : Outcome} (hrun : elementLoop data oracle heap totalBody = some o) :
    ∃ rest, o.state.walked = (56, bodyLength (data.slice 56 7)) :: rest := by
  have hel : data.read 56 7 = some (data.slice 56 7) := if_pos (by decide)
  obtain ⟨rest, hrest⟩ := loop_first (s := LoopState.start heap totalBody) hel hrun
  exact ⟨rest, hrest.symm⟩

end EspNowGateway.Receiver
