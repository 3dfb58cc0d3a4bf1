import EspNowGateway.Proof.Reassembly

/-!
# Packets that are not what they say

`print_packet` is told how long the packet is and never asks: its walk is led by the
length byte and the flag of each element alone. A packet that passed the filter may
announce a body that was cut off, or another element where there is none, and the
walk goes on into whatever an earlier packet left in `recv_data`.
-/

namespace EspNowGateway.Proof

open EspNowGateway CObject CHeap ClassicBpf Receiver

/-! ## Safe walks -/

/-- What a walk that begins in `s` must keep to when `recv_len` bytes of `p` were received. -/
structure SafeWalk (p : List UInt8) (data : Buf maxPacketLen) (oracle : Nat → Heap.Realloc)
    (s : LoopState) : Prop where
  /-- Every byte of `data` that is read was received. -/
  reads : ∀ t, Reaches data oracle s t → ∀ i, Reads data t i → i < p.length
  /-- What `memcpy` is told to copy is the size of a body. -/
  copies : ∀ t, Reaches data oracle s t → ∀ n, Copies data (oracle t.walked.length) t n →
    0 ≤ n ∧ n ≤ 250
  /-- The walk ends. -/
  ends : ∃ o, loop data oracle 7 s = some o
  /--
  As long as no block is moved away, it does not end at an access outside a heap block,
  after which C defines nothing.
  -/
  owned : (∀ i, (oracle i).Stays) → ∀ t, loop data oracle 7 s ≠ some (.fault t)

/-- A packet that is walked safely, whatever `recv_data` held before and whatever `realloc` does. -/
def WalkSafe (p : List UInt8) : Prop :=
  ∀ (recvData : Buf maxPacketLen) (heap : Heap) (totalBody : Ptr) (fresh : totalBody ∉ heap.live)
    (first : UInt8) (oracle : Nat → Heap.Realloc),
    SafeWalk p (recvData.recvInto p) oracle
      (LoopState.start (heap.malloc totalBody [first] fresh) totalBody)

/-! ## Contained packets -/

/-- The length of the body of an element at `off`, as its length byte has it. -/
def lengthAt (p : List UInt8) (off : Nat) : Int := (p.getD (off + 1) 0).toNat - 5

/-- The flag of an element at `off` that announces another one. -/
def moreAt (p : List UInt8) (off : Nat) : UInt8 := p.getD (off + 6) 0 &&& 0x10

/--
The chain of elements that begins at `off`, behind bodies of `total` bytes, lies
within the packet. Such a chain may be refused for a length byte below five, so
early that the total is negative; otherwise no length byte is below five, and no
total below the four bytes of the `int` that is read from the block.
-/
inductive Contained (p : List UInt8) : Nat → Int → Prop where
  | refused {off : Nat} {total : Int} (hfront : off + 7 ≤ p.length)
      (hneg : total + lengthAt p off < 0) : Contained p off total
  | last {off : Nat} {total : Int} (hpos : 0 ≤ lengthAt p off)
      (hroom : off + 7 + (lengthAt p off).toNat ≤ p.length) (hmin : 4 ≤ total + lengthAt p off)
      (hflag : moreAt p off = 0) : Contained p off total
  | more {off : Nat} {total : Int} (hpos : 0 ≤ lengthAt p off)
      (hroom : off + 7 + (lengthAt p off).toNat ≤ p.length) (hmin : 4 ≤ total + lengthAt p off)
      (hflag : moreAt p off ≠ 0) (rest : Contained p (off + 257) (total + lengthAt p off)) :
      Contained p off total

theorem Contained.front {p : List UInt8} {off : Nat} {total : Int} (h : Contained p off total) :
    off + 7 ≤ p.length := by
  cases h with
  | refused hfront => exact hfront
  | last _ hroom => omega
  | more _ hroom => omega

theorem getD_take_drop (p : List UInt8) {off len i : Nat} (h : i < len) :
    ((p.drop off).take len).getD i 0 = p.getD (off + i) 0 := by
  rw [List.getD_eq_getElem?_getD, List.getElem?_take_of_lt h, List.getElem?_drop,
    List.getD_eq_getElem?_getD]

/-- The front of an element that was received. -/
theorem front_recvInto {p : List UInt8} (data : Buf maxPacketLen) (hp : p.length ≤ maxPacketLen)
    {off : Nat} (h : off + 7 ≤ p.length) :
    ∃ element, (data.recvInto p).read off 7 = some element
      ∧ (data.recvInto p).slice off 7 = element
      ∧ bodyLength element = lengthAt p off ∧ moreData element = moreAt p off := by
  refine ⟨(p.drop off).take 7, Buf.read_recvInto data h (by omega),
    Buf.slice_recvInto data p h (by omega), ?_, ?_⟩
  · rw [bodyLength, getD_take_drop p (by decide), lengthAt]
  · rw [moreData, getD_take_drop p (by decide), moreAt]

/-! ## A contained packet is walked safely -/

/-- What a walk over a contained packet keeps to from pass to pass. -/
structure Within (p : List UInt8) (s : LoopState) : Prop where
  contained : Contained p s.offset s.totalBodyLength
  nonneg : 0 ≤ s.totalBodyLength
  strided : Strided s

/-- A pass that goes on has met an announced element, and the next one is contained too. -/
theorem within_more {data : Buf maxPacketLen} {p : List UInt8} (hp : p.length ≤ maxPacketLen)
    {o : Heap.Realloc} {s t : LoopState} (h : Within p s)
    (hit : iteration (data.recvInto p) o s = .more t) : Within p t := by
  have hpass := pass_of_more hit
  have hstrided := strided_more h.strided hpass
  obtain ⟨element, hel, hpos, _, hin, hoff, _, htotal⟩ := hpass
  obtain ⟨element', hel', _, hlength, hmore⟩ := front_recvInto data hp h.contained.front
  have heq : element' = element := by
    rw [hel] at hel'
    exact (Option.some.inj hel').symm
  subst heq
  have hnonneg := h.nonneg
  rw [hlength] at hpos htotal
  cases h.contained with
  | refused hfront hneg => omega
  | last _ _ _ hflag =>
      -- without the flag the walk would have ended here
      exfalso
      rw [iteration_of_reads o hel (if_pos hin)] at hit
      split at hit
      · cases hit
      · rw [if_pos (hmore.trans hflag)] at hit
        cases hit
  | more _ _ hmin _ rest =>
      refine ⟨?_, by omega, hstrided⟩
      rw [hoff, htotal]
      exact rest

theorem within_reaches {data : Buf maxPacketLen} {p : List UInt8} (hp : p.length ≤ maxPacketLen)
    {oracle : Nat → Heap.Realloc} {s t : LoopState} (h : Within p s)
    (hreach : Reaches (data.recvInto p) oracle s t) : Within p t := by
  induction hreach with
  | refl => exact h
  | tail _ hstep ih => exact within_more hp ih hstep

/-- The passes of such a walk read what was received. -/
theorem Within.reads {data : Buf maxPacketLen} {p : List UInt8} (hp : p.length ≤ maxPacketLen)
    {s : LoopState} (h : Within p s) {i : Nat} (hi : Reads (data.recvInto p) s i) :
    i < p.length := by
  obtain ⟨element, _, hslice, hlength, _⟩ := front_recvInto data hp h.contained.front
  obtain ⟨_, hlt⟩ := hi
  rw [hslice, hlength] at hlt
  have hnonneg := h.nonneg
  cases h.contained with
  | refused hfront hneg => omega
  | last _ hroom => omega
  | more _ hroom => omega

/-- They copy bodies; where the length byte is below five, nothing is copied. -/
theorem Within.copies {data : Buf maxPacketLen} {p : List UInt8} (hp : p.length ≤ maxPacketLen)
    {o : Heap.Realloc} {s : LoopState} (h : Within p s) {n : Int}
    (hn : Copies (data.recvInto p) o s n) : 0 ≤ n ∧ n ≤ 250 := by
  obtain ⟨element, body, heap, newBody, heap', hel, rfl, _, hre, _⟩ := hn
  obtain ⟨element', hel', _, hlength, _⟩ := front_recvInto data hp h.contained.front
  rw [hel] at hel'
  cases hel'
  obtain ⟨hmin, hmax⟩ := bodyLength_bounds element
  have hnonneg := h.nonneg
  cases h.contained with
  | refused _ hneg =>
      rw [← hlength] at hneg
      rw [Heap.realloc_refused (Heap.mem_of_realloc hre) (sizeT_of_neg hneg (by omega)) o] at hre
      cases hre
  | last hpos => exact ⟨hlength ▸ hpos, hmax⟩
  | more hpos => exact ⟨hlength ▸ hpos, hmax⟩

/-- Storing a chunk when the allocator does not move the block: stored, or refused in good order. -/
theorem store_stays {s : LoopState} {acc : List UInt8} (h : Holds s acc) (chunk : List UInt8)
    (hmin : 4 ≤ acc.length + chunk.length) (hmax : acc.length + chunk.length < 0x8000000000000000)
    {o : Heap.Realloc} (hstay : o.Stays) :
    (o = .fail ∧ ∃ t, store s chunk.length chunk o = .inr (.reallocFail t))
      ∨ ∃ heap, store s chunk.length chunk o
          = .inl { s with totalBodyLength := s.totalBodyLength + chunk.length, heap := heap }
        ∧ heap.get s.totalBody = some (acc ++ chunk) := by
  cases o with
  | moved q junk => exact hstay.elim
  | inPlace junk => exact Or.inr (store_holds h hmin hmax junk)
  | fail =>
      obtain ⟨m, hget, _⟩ := h.block
      have hlive := Heap.mem_of_get hget
      have hsize : sizeT (s.totalBodyLength + chunk.length) ≠ 0 := by
        rw [h.total, sizeT]
        omega
      refine Or.inl ⟨rfl, { s with
        totalBodyLength := s.totalBodyLength + chunk.length
        heap := s.heap.free s.totalBody }, ?_⟩
      simp only [store, Heap.realloc_fail hlive hsize, if_pos hlive]

/-- A pass over an element that was wholly received, when the allocator does not move the block. -/
theorem iteration_stays (data : Buf maxPacketLen) {p : List UInt8} (hp : p.length ≤ maxPacketLen)
    {o : Heap.Realloc} (hstay : o.Stays) {s : LoopState} {acc : List UInt8} (hholds : Holds s acc)
    (hpos : 0 ≤ lengthAt p s.offset)
    (hroom : s.offset + 7 + (lengthAt p s.offset).toNat ≤ p.length)
    (hmin : 4 ≤ s.totalBodyLength + lengthAt p s.offset) (hmax : s.totalBodyLength ≤ 1500) :
    (o = .fail ∧ ∃ t, iteration (data.recvInto p) o s = .ended (.reallocFail t))
      ∨ ∃ t acc, Holds t acc ∧ t.totalBodyLength = s.totalBodyLength + lengthAt p s.offset
        ∧ iteration (data.recvInto p) o s
          = if moreAt p s.offset = 0 then .ended (.finished t)
            else .more { t with offset := s.offset + 257 } := by
  have hfront : s.offset + 7 ≤ p.length := by omega
  obtain ⟨element, hel, _, hlength, hmore⟩ := front_recvInto data hp hfront
  have hin : s.offset + 7 + (lengthAt p s.offset).toNat ≤ maxPacketLen := by omega
  have hbody : (data.recvInto p).read (s.offset + 7) (bodyLength element).toNat
      = some ((data.recvInto p).slice (s.offset + 7) (lengthAt p s.offset).toNat) := by
    rw [hlength]
    exact if_pos hin
  have hsize := Buf.slice_length (data.recvInto p) hin
  have hlen : bodyLength element
      = (((data.recvInto p).slice (s.offset + 7) (lengthAt p s.offset).toNat).length : Int) := by
    rw [hsize, hlength]
    omega
  have htotal := hholds.total
  have hbound := (bodyLength_bounds element).2
  rw [iteration_of_reads o hel hbody, hmore]
  generalize (data.recvInto p).slice (s.offset + 7) (lengthAt p s.offset).toNat = chunk at *
  rw [← hlength, hlen] at hmin ⊢
  have hrecorded : Holds { s with walked := s.walked ++ [(s.offset, (chunk.length : Int))] } acc :=
    ⟨hholds.total, hholds.block⟩
  rcases store_stays hrecorded chunk (by omega) (by omega) hstay with
    ⟨hfail, t, hst⟩ | ⟨heap, hst, hheap⟩
  · exact Or.inl ⟨hfail, t, by rw [hst]⟩
  · refine Or.inr ⟨behind s chunk heap, acc ++ chunk, ⟨?_, _, hheap, List.prefix_refl _⟩, rfl, ?_⟩
    · show s.totalBodyLength + (chunk.length : Int) = _
      rw [htotal, List.length_append, Int.natCast_add]
    · rw [hst]
      rfl

/-- Over a contained packet no access leaves its object, as long as no block is moved away. -/
theorem loop_contained {data : Buf maxPacketLen} {p : List UInt8} (hp : p.length ≤ maxPacketLen)
    {oracle : Nat → Heap.Realloc} (hstay : ∀ i, (oracle i).Stays) {fuel : Nat} {s : LoopState}
    {acc : List UInt8} (h : Within p s) (hholds : Holds s acc) {o : Outcome}
    (hrun : loop (data.recvInto p) oracle fuel s = some o) : ∀ t, o ≠ .fault t := by
  induction fuel generalizing s acc with
  | zero => cases hrun
  | succ fuel ih =>
      rw [loop] at hrun
      have hfront := h.contained.front
      obtain ⟨hoff, htotal⟩ := h.strided
      have hsize : maxPacketLen = 1512 := rfl
      have hmax : s.totalBodyLength ≤ 1500 := by omega
      have hnonneg := h.nonneg
      cases h.contained with
      | refused _ hneg =>
          obtain ⟨element, hel, _, hlength, _⟩ := front_recvInto data hp hfront
          have hnone : (bodyLength element).toNat = 0 := by omega
          have hbody : (data.recvInto p).read (s.offset + 7) (bodyLength element).toNat
              = some ((data.recvInto p).slice (s.offset + 7) 0) := by
            rw [hnone]
            exact if_pos (by omega)
          have hmin := (bodyLength_bounds element).1
          rw [← hlength] at hneg
          obtain ⟨m, hget, _⟩ := hholds.block
          obtain ⟨t, hst⟩ := store_refused
            (s := { s with walked := s.walked ++ [(s.offset, bodyLength element)] })
            ((data.recvInto p).slice (s.offset + 7) 0) (oracle s.walked.length)
            (Heap.mem_of_get hget) hneg (show _ ≤ s.totalBodyLength + _ by omega)
          rw [iteration_of_reads _ hel hbody, hst] at hrun
          cases hrun
          intro t he
          cases he
      | last hpos hroom hmin hflag =>
          rcases iteration_stays data hp (hstay s.walked.length) hholds hpos hroom hmin hmax with
            ⟨_, t, hit⟩ | ⟨t, _, _, _, hit⟩
          · rw [hit] at hrun
            cases hrun
            intro t he
            cases he
          · rw [hit, if_pos hflag] at hrun
            cases hrun
            intro t he
            cases he
      | more hpos hroom hmin hflag _ =>
          rcases iteration_stays data hp (hstay s.walked.length) hholds hpos hroom hmin hmax with
            ⟨_, t, hit⟩ | ⟨t, acc', hholds', _, hit⟩
          · rw [hit] at hrun
            cases hrun
            intro t he
            cases he
          · rw [if_neg hflag] at hit
            have hnext := within_more hp h hit
            rw [hit] at hrun
            exact ih hnext ⟨hholds'.total, hholds'.block⟩ hrun

/-! ## A packet that is walked safely is contained -/

theorem SafeWalk.next {p : List UInt8} {data : Buf maxPacketLen} {oracle : Nat → Heap.Realloc}
    {s t : LoopState} (h : SafeWalk p data oracle s)
    (hit : iteration data (oracle s.walked.length) s = .more t) : SafeWalk p data oracle t where
  reads := fun u hreach => h.reads u (.head hit hreach)
  copies := fun u hreach => h.copies u (.head hit hreach)
  ends := by
    obtain ⟨o, hrun⟩ := h.ends
    rw [loop, hit] at hrun
    exact ⟨o, loop_succ hrun⟩
  owned := by
    intro hstay u hu
    obtain ⟨o, hrun⟩ := h.ends
    have hrest := hrun
    rw [loop, hit] at hrest
    rw [loop_succ hrest] at hu
    exact h.owned hstay u (hrun.trans hu)

/-- No pass of a safe walk ends in a fault, unless a block was moved away. -/
theorem SafeWalk.ended {p : List UInt8} {data : Buf maxPacketLen} {oracle : Nat → Heap.Realloc}
    {s : LoopState} (h : SafeWalk p data oracle s) (hstay : ∀ i, (oracle i).Stays) {e : Outcome}
    (hit : iteration data (oracle s.walked.length) s = .ended e) : ∀ t, e ≠ .fault t := by
  intro t he
  refine h.owned hstay t ?_
  rw [loop, hit, he]

/-- A block of fewer than four bytes: none at all, or too few for the `int` that is read. -/
theorem store_small {s : LoopState} {m : List UInt8} (hget : s.heap.get s.totalBody = some m)
    {bodyLength : Int} (hlo : 0 ≤ s.totalBodyLength + bodyLength)
    (hhi : s.totalBodyLength + bodyLength < 4) (body : List UInt8) (junk : Nat → UInt8) :
    ∃ t, store s bodyLength body (.inPlace junk) = .inr (.fault t) := by
  have hlive := Heap.mem_of_get hget
  by_cases hzero : s.totalBodyLength + bodyLength = 0
  · -- `realloc` to nothing has freed the block, and it is freed again
    have hsize : sizeT (s.totalBodyLength + bodyLength) = 0 := by rw [hzero]; rfl
    have hgone : s.totalBody ∉ (s.heap.free s.totalBody).live := s.heap.nodup.not_mem_erase
    refine ⟨s, ?_⟩
    simp only [store, hsize, Heap.realloc_zero hlive, if_neg hgone]
  · have hsize : sizeT (s.totalBodyLength + bodyLength) < 4
        ∧ sizeT (s.totalBodyLength + bodyLength) ≠ 0 := by
      unfold sizeT
      omega
    obtain ⟨grown, hre, hgrown⟩ := Heap.realloc_inPlace hget hsize.2 (by omega) junk
    have hshort : ¬ 4 ≤ (Heap.resize m (sizeT (s.totalBodyLength + bodyLength)) junk).length := by
      rw [Heap.resize_length]
      omega
    refine ⟨s, ?_⟩
    simp only [store, hre, copyFirst, hgrown, bind, Option.bind, if_neg hshort]

/-- With four bytes or more the walk comes to its `memcpy`, whatever the length byte says. -/
theorem copies_inPlace {data : Buf maxPacketLen} {s : LoopState} {m element body : List UInt8}
    (hget : s.heap.get s.totalBody = some m) (hel : data.read s.offset 7 = some element)
    (hbody : data.read (s.offset + 7) (bodyLength element).toNat = some body)
    (hmin : 4 ≤ s.totalBodyLength + bodyLength element) (hmax : s.totalBodyLength ≤ 1500)
    (junk : Nat → UInt8) : Copies data (.inPlace junk) s (bodyLength element) := by
  have hbound := (bodyLength_bounds element).2
  have hsize : sizeT (s.totalBodyLength + bodyLength element)
      = (s.totalBodyLength + bodyLength element).toNat := by
    unfold sizeT
    omega
  obtain ⟨grown, hre, hgrown⟩ := Heap.realloc_inPlace hget
    (show sizeT (s.totalBodyLength + bodyLength element) ≠ 0 by omega) (by omega) junk
  have hlen := Heap.resize_length m (sizeT (s.totalBodyLength + bodyLength element)) junk
  generalize Heap.resize m (sizeT (s.totalBodyLength + bodyLength element)) junk = r at hgrown hlen
  have hfour : 4 ≤ r.length := by omega
  obtain ⟨copied, hcopy, _⟩ := Heap.memcpy_of_get hgrown
    (show 0 + (r.take 1).length ≤ r.length by rw [List.length_take]; omega)
  refine ⟨element, body, grown, s.totalBody, copied, hel, rfl, hbody, hre, ?_⟩
  simp only [copyFirst, hgrown, bind, Option.bind, if_pos hfour, hcopy]

/-- An allocator that can always extend the block where it is. -/
def grows : Nat → Heap.Realloc := fun _ => .inPlace fun _ => 0

theorem contained_of_safeWalk {data : Buf maxPacketLen} {p : List UInt8}
    (hp : p.length ≤ maxPacketLen) {n : Nat} {s : LoopState} {acc : List UInt8}
    (hn : maxPacketLen < s.offset + 7 + 257 * n) (h : SafeWalk p (data.recvInto p) grows s)
    (hholds : Holds s acc) (hstrided : Strided s) :
    Contained p s.offset s.totalBodyLength := by
  induction n generalizing s acc with
  | zero =>
      -- no element's front fits behind this offset
      have := h.reads s .refl (s.offset + 6) ⟨by omega, by omega⟩
      omega
  | succ n ih =>
      have hsize : maxPacketLen = 1512 := rfl
      have hlast := h.reads s .refl (s.offset + 6) ⟨by omega, by omega⟩
      have hfront : s.offset + 7 ≤ p.length := hlast
      obtain ⟨element, hel, hslice, hlength, hmore⟩ := front_recvInto data hp hfront
      have hroom : s.offset + 7 + (lengthAt p s.offset).toNat ≤ p.length := by
        have := h.reads s .refl (s.offset + 6 + (lengthAt p s.offset).toNat)
          ⟨by omega, by rw [hslice, hlength]; omega⟩
        omega
      have hbody : (data.recvInto p).read (s.offset + 7) (bodyLength element).toNat
          = some ((data.recvInto p).slice (s.offset + 7) (bodyLength element).toNat) := by
        rw [hlength]
        exact if_pos (by omega)
      obtain ⟨hoff, htotal⟩ := hstrided
      have hmax : s.totalBodyLength ≤ 1500 := by omega
      obtain ⟨m, hget, _⟩ := hholds.block
      by_cases hneg : s.totalBodyLength + lengthAt p s.offset < 0
      · exact .refused hfront hneg
      · have hmin : 4 ≤ s.totalBodyLength + lengthAt p s.offset := by
          -- fewer bytes, and the heap would be misused
          by_contra hsmall
          rw [← hlength] at hneg hsmall
          obtain ⟨t, hst⟩ := store_small
            (s := { s with walked := s.walked ++ [(s.offset, bodyLength element)] }) hget
            (Int.not_lt.mp hneg) (Int.not_le.mp hsmall)
            ((data.recvInto p).slice (s.offset + 7) (bodyLength element).toNat) fun _ => 0
          have hit : iteration (data.recvInto p) (grows s.walked.length) s = .ended (.fault t) := by
            rw [iteration_of_reads _ hel hbody, grows, hst]
          exact h.ended (fun _ => trivial) hit t rfl
        have hpos : 0 ≤ lengthAt p s.offset := by
          rw [← hlength] at hmin ⊢
          exact (h.copies s .refl _ (copies_inPlace hget hel hbody hmin hmax fun _ => 0)).1
        by_cases hflag : moreAt p s.offset = 0
        · exact .last hpos hroom hmin hflag
        · rcases iteration_stays data hp (o := grows s.walked.length) trivial hholds hpos hroom
            hmin hmax with ⟨hfail, _⟩ | ⟨t, acc', hholds', htotal', hit⟩
          · cases hfail
          · rw [if_neg hflag] at hit
            have hpass := pass_of_more hit
            have hrest := ih (by dsimp only; omega) (h.next hit) ⟨hholds'.total, hholds'.block⟩
              (strided_more ⟨hoff, htotal⟩ hpass)
            dsimp only at hrest
            rw [htotal'] at hrest
            exact .more hpos hroom hmin hflag hrest

/--
**Which packets are walked safely.**

Of the packets that fit `recv_data`, exactly those whose chain of elements lies
within the packet.
-/
theorem walkSafe_iff_contained {p : List UInt8} (hp : p.length ≤ maxPacketLen) :
    WalkSafe p ↔ Contained p 56 0 := by
  refine ⟨fun h => ?_, fun h recvData heap totalBody fresh first oracle => ?_⟩
  · have hsafe := h (Buf.fill maxPacketLen 0) Heap.empty 0 List.not_mem_nil 0 grows
    exact contained_of_safeWalk hp (show maxPacketLen < 56 + 7 + 257 * 6 by decide) hsafe
      (holds_start List.not_mem_nil 0) (strided_start _ _)
  · have hstart : Within p (LoopState.start (heap.malloc totalBody [first] fresh) totalBody) :=
      ⟨h, Int.le_refl 0, strided_start _ _⟩
    refine ⟨?_, ?_, ?_, ?_⟩
    · intro t hreach i hi
      exact (within_reaches hp hstart hreach).reads hp hi
    · intro t hreach n hn
      exact (within_reaches hp hstart hreach).copies hp hn
    · exact elementLoop_total (recvData.recvInto p) oracle (heap.malloc totalBody [first] fresh)
        totalBody
    · intro hstay t hrun
      exact loop_contained hp hstay hstart (holds_start fresh first) hrun t rfl

/-- **A packet that is what it says**, such as a frame of four bytes of body. -/
theorem short_frame_walkSafe : WalkSafe (frameOf 0 [65, 66, 67, 68]) := by
  refine (walkSafe_iff_contained (by decide)).mpr (.last ?_ ?_ ?_ ?_) <;> decide

/-- **An accepted packet that announces 128 bytes of body and carries none.** -/
theorem cut_packet_is_overread :
    Accepts bpfcode frameHead ∧ frameHead.length ≤ maxPacketLen ∧ ¬ WalkSafe frameHead := by
  refine ⟨(List.append_nil frameHead).symm ▸ (frameHead_accepts []).1, by decide, fun h => ?_⟩
  have hsafe := h (Buf.fill maxPacketLen 0) Heap.empty 0 List.not_mem_nil 0 grows
  have hslice : ((Buf.fill maxPacketLen 0).recvInto frameHead).slice 56 7
      = (frameHead.drop 56).take 7 := Buf.slice_recvInto _ _ (by decide) (by decide)
  -- the first byte of the body that never came
  have hread : Reads ((Buf.fill maxPacketLen 0).recvInto frameHead)
      (LoopState.start (Heap.empty.malloc 0 [0] List.not_mem_nil) 0) 63 := by
    refine ⟨(show 56 ≤ 63 by decide), ?_⟩
    show 63 < 56 + 7 + (bodyLength (((Buf.fill maxPacketLen 0).recvInto frameHead).slice 56 7)).toNat
    rw [hslice]
    decide
  have hlt := hsafe.reads _ .refl 63 hread
  exact absurd hlt (by decide)

end EspNowGateway.Proof
