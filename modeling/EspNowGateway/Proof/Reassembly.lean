import EspNowGateway.Linux.Filter
import EspNowGateway.Linux.Receiver

/-!
# Fragments and their reassembly

A sender cuts a body into elements of 250 bytes, and a last one for what is left.
The Receiver's walk puts them together again. `recv_data` is as long as the
largest body and the seven bytes in front of each of its six fragments; the 56
bytes in front of the first element were forgotten, so the last 56 lengths of
body do not come through.
-/

namespace EspNowGateway.Proof

open EspNowGateway CObject CHeap ClassicBpf Receiver

/-! ## The frame -/

/-- A vendor element: seven bytes, then a piece of the body. -/
def vendorElement (flags : UInt8) (chunk : List UInt8) : List UInt8 :=
  [0xdd, UInt8.ofNat (chunk.length + 5), 0x18, 0xfe, 0x34, 4, flags] ++ chunk

/-- The elements that carry a body: all but the last are full and announce another one. -/
inductive Elements : List UInt8 → List UInt8 → Prop where
  | last (flags : UInt8) (chunk : List UInt8) (hne : chunk ≠ []) (hlen : chunk.length ≤ 250)
      (hflag : flags &&& 0x10 = 0) : Elements chunk (vendorElement flags chunk)
  | more (flags : UInt8) (chunk : List UInt8) (hlen : chunk.length = 250)
      (hflag : flags &&& 0x10 ≠ 0) {body bytes : List UInt8} (h : Elements body bytes) :
      Elements (chunk ++ body) (vendorElement flags chunk ++ bytes)

/-- An ESP-NOW frame that carries a body, behind a radiotap header of 24 bytes. -/
structure IsFrame (body p : List UInt8) : Prop where
  /-- The radiotap header, the MAC header, and category, organization and random values. -/
  headers : 24 + 24 + 8 ≤ p.length
  elements : Elements body (p.drop (24 + 24 + 8))

/-- The number of elements that carry `n` bytes. -/
def elementCount (n : Nat) : Nat := (n + 249) / 250

theorem elementCount_last {n : Nat} (hpos : 0 < n) (h : n ≤ 250) : elementCount n = 1 := by
  unfold elementCount
  omega

theorem elementCount_more (n : Nat) : elementCount (250 + n) = elementCount n + 1 := by
  unfold elementCount
  omega

theorem vendorElement_length (flags : UInt8) (chunk : List UInt8) :
    (vendorElement flags chunk).length = 7 + chunk.length := by
  rw [vendorElement, List.length_append]; rfl

theorem Elements.length_eq {body bytes : List UInt8} (h : Elements body bytes) :
    bytes.length = body.length + 7 * elementCount body.length := by
  induction h with
  | last flags chunk hne hlen hflag =>
      rw [vendorElement_length, elementCount_last (List.length_pos_iff.mpr hne) hlen]
      omega
  | more flags chunk hlen hflag h ih =>
      rw [List.length_append, vendorElement_length, ih, List.length_append, hlen,
        elementCount_more]
      omega

/-- The bytes of a frame: 56 of headers, seven for each element, and the body. -/
theorem IsFrame.length_eq {body p : List UInt8} (h : IsFrame body p) :
    p.length = 56 + body.length + 7 * elementCount body.length := by
  have hlen := h.elements.length_eq
  have := h.headers
  rw [List.length_drop] at hlen
  omega

/-- Up to 1414 bytes of body, the frame fits `recv_data`. -/
theorem IsFrame.fits {body p : List UInt8} (h : IsFrame body p) (hmax : body.length ≤ 1414) :
    p.length ≤ maxPacketLen := by
  rw [h.length_eq, elementCount, maxPacketLen]
  omega

/-! ## One element -/

/-- The walk has brought `acc` together so far. -/
structure Holds (s : LoopState) (acc : List UInt8) : Prop where
  total : s.totalBodyLength = acc.length
  block : ∃ m, s.heap.get s.totalBody = some m ∧ acc <+: m

theorem holds_start {heap : Heap} {totalBody : Ptr} (fresh : totalBody ∉ heap.live)
    (first : UInt8) :
    Holds (LoopState.start (heap.malloc totalBody [first] fresh) totalBody) [] :=
  ⟨rfl, [first], Heap.get_malloc_self fresh, List.nil_prefix⟩

/-- Storing a chunk behind what the block holds, when the block is extended in place. -/
theorem store_holds {s : LoopState} {acc chunk : List UInt8} (h : Holds s acc)
    (hmin : 4 ≤ acc.length + chunk.length) (hmax : acc.length + chunk.length < 0x8000000000000000)
    (junk : Nat → UInt8) :
    ∃ heap, store s chunk.length chunk (.inPlace junk)
        = .inl { s with totalBodyLength := s.totalBodyLength + chunk.length, heap := heap }
      ∧ heap.get s.totalBody = some (acc ++ chunk) := by
  obtain ⟨m, hget, hpre⟩ := h.block
  have hsize : sizeT (s.totalBodyLength + chunk.length) = acc.length + chunk.length := by
    rw [h.total, sizeT]
    omega
  -- `realloc` extends the block, and what it held stays
  obtain ⟨grown, hre, hgrown⟩ := Heap.realloc_inPlace hget
    (show acc.length + chunk.length ≠ 0 by omega) hmax junk
  have hlen := Heap.resize_length m (acc.length + chunk.length) junk
  have hkeep : (Heap.resize m (acc.length + chunk.length) junk).take acc.length = acc := by
    rw [Heap.resize_take m junk hpre.length_le (Nat.le_add_right ..)]
    exact (List.prefix_iff_eq_take.mp hpre).symm
  generalize Heap.resize m (acc.length + chunk.length) junk = r at hgrown hlen hkeep
  -- the first byte is copied onto itself
  have hfirst : 0 + (r.take 1).length ≤ r.length := by rw [List.length_take]; omega
  obtain ⟨copied, hcopy, hcopied⟩ := Heap.memcpy_of_get hgrown hfirst
  have hself : r.take 0 ++ r.take 1 ++ r.drop (0 + (r.take 1).length) = r := by
    rw [List.take_zero, List.nil_append, Nat.zero_add, List.length_take, Nat.min_eq_left (by omega)]
    exact List.take_append_drop 1 r
  rw [hself] at hcopied
  -- the body goes behind what is there, up to the end
  obtain ⟨heap, hput, hheap⟩ := Heap.memcpy_of_get hcopied (Nat.le_of_eq hlen.symm)
  rw [hkeep, List.drop_of_length_le (Nat.le_of_eq hlen), List.append_nil] at hheap
  refine ⟨heap, ?_, hheap⟩
  have hat : s.totalBodyLength.toNat = acc.length := by rw [h.total]; exact Int.toNat_natCast _
  have hnonneg : (0 : Int) ≤ chunk.length := Int.natCast_nonneg _
  have hfour : 4 ≤ r.length := by omega
  simp only [store, hsize, hre, copyFirst, hgrown, bind, Option.bind, if_pos hfour, hcopy,
    if_pos hnonneg, hat, hput]

/-- The state a walk is in behind an element whose body it has stored. -/
def behind (s : LoopState) (chunk : List UInt8) (heap : Heap) : LoopState :=
  { s with
    totalBodyLength := s.totalBodyLength + chunk.length
    heap := heap
    walked := s.walked ++ [(s.offset, (chunk.length : Int))] }

theorem element_room {p chunk rest : List UInt8} {off : Nat} {flags : UInt8}
    (hat : p.drop off = vendorElement flags chunk ++ rest) :
    off + 7 + chunk.length ≤ p.length := by
  have := congrArg List.length hat
  rw [List.length_drop, List.length_append, vendorElement_length] at this
  omega

/-- A pass over an element that was wholly received. -/
theorem iteration_vendorElement {data : Buf maxPacketLen} {p : List UInt8} {s : LoopState}
    {chunk rest : List UInt8} {flags : UInt8} (o : Heap.Realloc) (hp : p.length ≤ maxPacketLen)
    (hat : p.drop s.offset = vendorElement flags chunk ++ rest) (hlen : chunk.length ≤ 250) :
    iteration (data.recvInto p) o s
      = match store { s with walked := s.walked ++ [(s.offset, (chunk.length : Int))] }
          chunk.length chunk o with
        | .inr e => .ended e
        | .inl s => if flags &&& 0x10 = 0 then .ended (.finished s)
            else .more { s with offset := s.offset + 257 } := by
  have hroom := element_room hat
  have hheader : (data.recvInto p).read s.offset 7
      = some [0xdd, UInt8.ofNat (chunk.length + 5), 0x18, 0xfe, 0x34, 4, flags] := by
    rw [Buf.read_recvInto data (by omega) (by omega), hat]; rfl
  have hcount : bodyLength [0xdd, UInt8.ofNat (chunk.length + 5), 0x18, 0xfe, 0x34, 4, flags]
      = chunk.length := by
    show ((UInt8.ofNat (chunk.length + 5)).toNat : Int) - 5 = chunk.length
    rw [UInt8.toNat_ofNat', Nat.mod_eq_of_lt (by omega)]
    omega
  have hbody : (data.recvInto p).read (s.offset + 7) chunk.length = some chunk := by
    rw [Buf.read_recvInto data hroom (by omega), ← List.drop_drop, hat]
    exact congrArg some (List.take_left' rfl)
  have hnat : (chunk.length : Int).toNat = chunk.length := Int.toNat_natCast _
  rw [iteration_of_reads o hheader (by rw [hcount, hnat]; exact hbody), hcount]
  rfl

/-- Such a pass, when the block is extended in place. -/
theorem iteration_element (data : Buf maxPacketLen) {p : List UInt8} {s : LoopState}
    {acc chunk rest : List UInt8} {flags : UInt8} (hp : p.length ≤ maxPacketLen)
    (hat : p.drop s.offset = vendorElement flags chunk ++ rest) (hlen : chunk.length ≤ 250)
    (h : Holds s acc) (hmin : 4 ≤ acc.length + chunk.length)
    (hmax : acc.length + chunk.length < 0x8000000000000000) (junk : Nat → UInt8) :
    ∃ heap, heap.get s.totalBody = some (acc ++ chunk)
      ∧ iteration (data.recvInto p) (.inPlace junk) s
        = if flags &&& 0x10 = 0 then .ended (.finished (behind s chunk heap))
          else .more { behind s chunk heap with offset := s.offset + 257 } := by
  obtain ⟨heap, hstore, hheap⟩ := store_holds
    (s := { s with walked := s.walked ++ [(s.offset, (chunk.length : Int))] })
    ⟨h.total, h.block⟩ hmin hmax junk
  refine ⟨heap, hheap, ?_⟩
  rw [iteration_vendorElement (.inPlace junk) hp hat hlen, hstore]
  rfl

/-- What a pass adds to the walk was received. -/
theorem behind_walked {p : List UInt8} {s : LoopState} {flags : UInt8} {chunk rest : List UInt8}
    (heap : Heap) (hat : p.drop s.offset = vendorElement flags chunk ++ rest) :
    ∀ e ∈ (behind s chunk heap).walked, e ∈ s.walked ∨ e.1 + 7 + e.2.toNat ≤ p.length := by
  intro e hmem
  rcases List.mem_append.mp hmem with hold | hnew
  · exact Or.inl hold
  · cases List.mem_singleton.mp hnew
    exact Or.inr (element_room hat)

/-- A pass over a full element that announces the rest of the chain, behind which the walk then is. -/
theorem iteration_announced (data : Buf maxPacketLen) {p : List UInt8} {s : LoopState}
    {acc chunk rest : List UInt8} {flags : UInt8} (hp : p.length ≤ maxPacketLen)
    (hat : p.drop s.offset = vendorElement flags chunk ++ rest) (hlen : chunk.length = 250)
    (hflag : flags &&& 0x10 ≠ 0) (h : Holds s acc)
    (hmax : acc.length + chunk.length < 0x8000000000000000) (junk : Nat → UInt8) :
    ∃ t, iteration (data.recvInto p) (.inPlace junk) s = .more t
      ∧ p.drop t.offset = rest
      ∧ Holds t (acc ++ chunk)
      ∧ t.totalBody = s.totalBody
      ∧ t.walked.length = s.walked.length + 1
      ∧ ∀ e ∈ t.walked, e ∈ s.walked ∨ e.1 + 7 + e.2.toNat ≤ p.length := by
  obtain ⟨heap, hheap, hit⟩ := iteration_element data hp hat (Nat.le_of_eq hlen) h (by omega) hmax
    junk
  rw [if_neg hflag] at hit
  refine ⟨_, hit, ?_, ⟨?_, _, hheap, List.prefix_refl _⟩, rfl, ?_, behind_walked heap hat⟩
  · show p.drop (s.offset + 257) = rest
    rw [← List.drop_drop, hat]
    exact List.drop_left' (by rw [vendorElement_length, hlen])
  · show s.totalBodyLength + (chunk.length : Int) = _
    rw [h.total, List.length_append, Int.natCast_add]
  · exact List.length_append

/-! ## The whole walk -/

/--
The walk over a well-formed chain of elements, from anywhere in it: it ends behind
the last one, with one pass for each, the body complete in the block, and nothing
read that was not received.
-/
theorem loop_elements {data : Buf maxPacketLen} {p : List UInt8} (hp : p.length ≤ maxPacketLen)
    (junk : Nat → Nat → UInt8) {body bytes : List UInt8} (he : Elements body bytes) {fuel : Nat}
    {s : LoopState} {acc : List UInt8} (hat : p.drop s.offset = bytes) (h : Holds s acc)
    (hfuel : elementCount body.length ≤ fuel) (hmin : 4 ≤ acc.length + body.length)
    (hmax : acc.length + body.length < 0x8000000000000000) :
    ∃ s', loop (data.recvInto p) (fun i => .inPlace (junk i)) fuel s = some (.finished s')
      ∧ s'.totalBodyLength = acc.length + body.length
      ∧ s'.heap.get s'.totalBody = some (acc ++ body)
      ∧ s'.walked.length = s.walked.length + elementCount body.length
      ∧ ∀ e ∈ s'.walked, e ∈ s.walked ∨ e.1 + 7 + e.2.toNat ≤ p.length := by
  induction he generalizing fuel s acc with
  | last flags chunk hne hlen hflag =>
      have hone := elementCount_last (List.length_pos_iff.mpr hne) hlen
      obtain ⟨fuel, rfl⟩ := Nat.exists_eq_add_one_of_ne_zero (show fuel ≠ 0 by omega)
      -- the walk stops at the flag, and nothing of what may follow is read
      rw [← List.append_nil (vendorElement flags chunk)] at hat
      obtain ⟨heap, hheap, hit⟩ := iteration_element data hp hat hlen h hmin hmax
        (junk s.walked.length)
      rw [if_pos hflag] at hit
      refine ⟨behind s chunk heap, by rw [loop, hit], ?_, hheap, ?_, behind_walked heap hat⟩
      · exact congrArg (· + (chunk.length : Int)) h.total
      · rw [hone]
        exact List.length_append
  | more flags chunk hlen hflag he ih =>
      rename_i body bytes
      have hsucc := elementCount_more body.length
      rw [List.length_append, hlen] at hfuel
      rw [List.length_append] at hmin hmax
      rw [hsucc] at hfuel
      obtain ⟨fuel, rfl⟩ := Nat.exists_eq_add_one_of_ne_zero (show fuel ≠ 0 by omega)
      obtain ⟨t, hit, hnext, hholds, _, hlength, hreceived⟩ := iteration_announced data hp hat hlen
        hflag h (by omega) (junk s.walked.length)
      obtain ⟨s', hrun, htotal, hblock, hwalked, hreads⟩ := ih hnext hholds
        (Nat.le_of_succ_le_succ hfuel)
        (by rw [List.length_append]; omega) (by rw [List.length_append]; omega)
      refine ⟨s', ?_, ?_, ?_, ?_, ?_⟩
      · rw [loop, hit]
        exact hrun
      · rw [htotal, List.length_append, List.length_append]
        push_cast
        omega
      · rw [hblock, List.append_assoc]
      · rw [hwalked, List.length_append, hlen, hsucc, hlength]
        omega
      · intro e hmem
        rcases hreads e hmem with hold | hnew
        · exact hreceived e hold
        · exact Or.inr hnew

/--
A frame comes through: whatever `recv_data` and the allocator's bytes held before,
and with every `realloc` in place, the walk takes one pass for each element, ends
with the body in the block, and reads nothing that was not received.
-/
def RoundTrips (body p : List UInt8) : Prop :=
  ∀ (recvData : Buf maxPacketLen) (heap : Heap) (totalBody : Ptr) (fresh : totalBody ∉ heap.live)
    (first : UInt8) (junk : Nat → Nat → UInt8),
    ∃ s, elementLoop (recvData.recvInto p) (fun i => .inPlace (junk i))
        (heap.malloc totalBody [first] fresh) totalBody = some (.finished s)
      ∧ s.walked.length = elementCount body.length
      ∧ s.totalBodyLength = body.length
      ∧ s.heap.get s.totalBody = some body
      ∧ ∀ e ∈ s.walked, e.1 + 7 + e.2.toNat ≤ min p.length maxPacketLen

theorem roundTrips_of_le {body p : List UInt8} (hframe : IsFrame body p) (hmin : 4 ≤ body.length)
    (hmax : body.length ≤ 1414) : RoundTrips body p := by
  intro recvData heap totalBody fresh first junk
  have hcount : elementCount body.length ≤ 6 := by unfold elementCount; omega
  have hp := hframe.fits hmax
  obtain ⟨s, hrun, htotal, hblock, hwalked, hreads⟩ := loop_elements hp junk
    hframe.elements rfl (holds_start fresh first) (show elementCount body.length ≤ 7 by omega) (by rw [List.length_nil]; omega)
    (by rw [List.length_nil]; omega)
  refine ⟨s, hrun, ?_, ?_, hblock, ?_⟩
  · rw [hwalked]; exact Nat.zero_add _
  · rw [htotal]; exact Int.zero_add _
  · intro e hmem
    rw [Nat.min_eq_left hp]
    exact (hreads e hmem).resolve_left List.not_mem_nil

/-- No walk brings together more than 1414 bytes. -/
theorem RoundTrips.length_le {body p : List UInt8} (h : RoundTrips body p) :
    body.length ≤ 1414 := by
  obtain ⟨s, hrun, _, htotal, _⟩ := h (Buf.fill maxPacketLen 0) Heap.empty 0 List.not_mem_nil 0
    fun _ _ => 0
  have := loop_finished_le (strided_start _ _) hrun
  omega

/--
**Which bodies come through.**

A frame of a body of at least four bytes, laid out as the sender does, comes
through the Receiver exactly when the body has at most 1414 bytes: the length at
which the frame fills `recv_data`.
-/
theorem reassembly_iff {body p : List UInt8} (hframe : IsFrame body p)
    (hmin : 4 ≤ body.length) : RoundTrips body p ↔ body.length ≤ 1414 :=
  ⟨RoundTrips.length_le, roundTrips_of_le hframe hmin⟩

/-! ## Frames on the air -/

/-- A sender's elements for a body: so many full ones, and a last one. -/
def fragment : Nat → List UInt8 → List UInt8
  | 0, body => vendorElement 0x02 body
  | k + 1, body => vendorElement 0x12 (body.take 250) ++ fragment k (body.drop 250)

/-- The elements behind the headers of a captured frame. -/
def frameOf (k : Nat) (body : List UInt8) : List UInt8 := frameHead.take 56 ++ fragment k body

theorem fragment_elements {k : Nat} {body : List UInt8} (hlo : 250 * k < body.length)
    (hhi : body.length ≤ 250 * (k + 1)) : Elements body (fragment k body) := by
  induction k generalizing body with
  | zero => exact .last 0x02 body (List.length_pos_iff.mp (by omega)) (by omega) (by decide)
  | succ k ih =>
      have hrest : Elements (body.drop 250) (fragment k (body.drop 250)) :=
        ih (by rw [List.length_drop]; omega) (by rw [List.length_drop]; omega)
      have h := Elements.more 0x12 (body.take 250) (by rw [List.length_take]; omega) (by decide)
        hrest
      rwa [List.take_append_drop] at h

theorem frameOf_isFrame {k : Nat} {body : List UInt8} (hlo : 250 * k < body.length)
    (hhi : body.length ≤ 250 * (k + 1)) : IsFrame body (frameOf k body) := by
  have hhead : (frameHead.take 56).length = 24 + 24 + 8 := rfl
  refine ⟨?_, ?_⟩
  · rw [frameOf, List.length_append, hhead]
    exact Nat.le_add_right ..
  · rw [frameOf, List.drop_left' hhead]
    exact fragment_elements hlo hhi

/-- Such a frame passes the filter. -/
theorem frameOf_accepts (k : Nat) (body : List UInt8) : Accepts bpfcode (frameOf k body) := by
  have head (len : UInt8) : EspNowAction (frameHead.take 56 ++ [0xdd, len, 0x18, 0xfe, 0x34, 4]) :=
    ⟨(show 4 ≤ 62 by decide), Nat.le_refl 62, (show (0xd0 : UInt8) &&& 0xfc = 0xd0 by decide),
      rfl, rfl, rfl, rfl⟩
  have hcut : ∃ len t, fragment k body = [0xdd, len, 0x18, 0xfe, 0x34, 4] ++ t := by
    cases k with
    | zero => exact ⟨_, _ :: body, rfl⟩
    | succ k => exact ⟨_, _ :: _, rfl⟩
  obtain ⟨len, t, ht⟩ := hcut
  rw [accepts_iff, frameOf, ht, ← List.append_assoc]
  exact (head len).append t

/-- **The largest body that comes through.** -/
theorem largest_body_roundTrips :
    RoundTrips (List.replicate 1414 65) (frameOf 5 (List.replicate 1414 65)) :=
  (reassembly_iff (frameOf_isFrame (by rw [List.length_replicate]; decide)
    (by rw [List.length_replicate]; decide)) (by rw [List.length_replicate]; decide)).mpr
    (by rw [List.length_replicate])

/-- **A body of the largest size the protocol allows does not come through.** -/
theorem full_body_is_cut :
    Accepts bpfcode (frameOf 5 (List.replicate 1470 65))
      ∧ IsFrame (List.replicate 1470 65) (frameOf 5 (List.replicate 1470 65))
      ∧ ¬ RoundTrips (List.replicate 1470 65) (frameOf 5 (List.replicate 1470 65)) := by
  have hlen : (List.replicate 1470 (65 : UInt8)).length = 1470 := List.length_replicate ..
  refine ⟨frameOf_accepts 5 _, frameOf_isFrame (by omega) (by omega), fun h => ?_⟩
  have := h.length_le
  omega

end EspNowGateway.Proof
