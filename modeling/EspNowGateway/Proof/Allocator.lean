import EspNowGateway.Linux.Checksum
import EspNowGateway.Proof.Reassembly

/-!
# The block and its allocator

`realloc` returns the block's new address in `_totalBody`, and `print_packet` means
to go on with it; but it writes `*totalBody = *_totalBody`, which copies a byte and
leaves the pointer as it was. All is well as long as the two are the same. Once the
allocator moves the block, the walk writes into the one that was freed.
-/

namespace EspNowGateway.Proof

open EspNowGateway CObject CHeap Receiver

/-! ## What the allocator does -/

/--
Up to the last of `count` elements, or to a refusal before it, every `realloc`
extends the block where it is. An address in use is one that cannot be returned.
-/
def Unmoved (live : List Ptr) (oracle : Nat → Heap.Realloc) : Nat → Nat → Prop
  | 0, _ => True
  | count + 1, i =>
      match oracle i with
      | .inPlace _ => Unmoved live oracle count (i + 1)
      | .moved q _ => q ∈ live
      | .fail => True

/-- `totalBody` names a live block of at least `totalBodyLength` bytes. -/
def Named (s : LoopState) : Prop :=
  ∃ m, s.heap.get s.totalBody = some m ∧ s.totalBodyLength ≤ m.length

/--
How `print_packet` should leave: having handed the body to the CRC, its `crc` field
cleared, or having been refused memory; in both cases `live` are the live blocks.
-/
def Shown.Clean (body : List UInt8) (live : List Ptr) : Shown → Prop
  | .report r => r.covered = clearCrc body ∧ r.heap.live = live
  | .reallocFail heap => heap.live = live
  | .fault => False

/-- The block is what the walk takes it for, in every pass, at the CRC and when it is freed. -/
structure SoundBlock (body : List UInt8) (data : Buf maxPacketLen) (oracle : Nat → Heap.Realloc)
    (live : List Ptr) (heap : Heap) (totalBody : Ptr) : Prop where
  passes : ∀ t, Reaches data oracle (LoopState.start heap totalBody) t → Named t
  leaves : ∃ shown, printPacket data oracle heap totalBody = some shown
    ∧ Shown.Clean body live shown

/-! ## One `realloc` -/

theorem Holds.named {s : LoopState} {acc : List UInt8} (h : Holds s acc) : Named s := by
  obtain ⟨m, hget, hpre⟩ := h.block
  have hle := hpre.length_le
  refine ⟨m, hget, ?_⟩
  rw [h.total]
  omega

theorem copyFirst_live {heap heap' : Heap} {totalBody newBody : Ptr}
    (h : copyFirst heap totalBody newBody = some heap') : heap'.live = heap.live := by
  unfold copyFirst at h
  obtain ⟨m, _, h⟩ := Option.bind_eq_some_iff.mp h
  split at h
  · exact Heap.memcpy_live h
  · cases h

/-- Extending the block and storing a body leaves the live blocks alone. -/
theorem store_inPlace_live {s t : LoopState} {bodyLength : Int} {body : List UInt8}
    {junk : Nat → UInt8} (h : store s bodyLength body (.inPlace junk) = .inl t) :
    t.heap.live = s.heap.live := by
  simp only [store] at h
  split at h
  · cases h
  · split at h <;> cases h
  · rename_i heap newBody hre
    split at h
    · cases h
    · rename_i copied hcopy
      split at h
      · split at h
        · rename_i stored hput
          cases h
          show stored.live = _
          rw [Heap.memcpy_live hput, copyFirst_live hcopy, Heap.realloc_inPlace_live hre]
        · cases h
      · cases h

theorem iteration_inPlace_live {data : Buf maxPacketLen} {s t : LoopState} {junk : Nat → UInt8}
    (h : iteration data (.inPlace junk) s = .more t
      ∨ iteration data (.inPlace junk) s = .ended (.finished t)) : t.heap.live = s.heap.live := by
  rw [iteration] at h
  cases hel : data.read s.offset 7 with
  | none => simp [hel] at h
  | some element =>
      cases hbody : data.read (s.offset + 7) (bodyLength element).toNat with
      | none => simp [hel, hbody] at h
      | some body =>
          simp only [hel, hbody] at h
          rcases store_cases { s with walked := s.walked ++ [(s.offset, bodyLength element)] }
            (bodyLength element) body (.inPlace junk) with ⟨heap, _, hst⟩ | ⟨e, hst, hbroken, _⟩
          · have hlive := store_inPlace_live hst
            rw [hst] at h
            dsimp only at h
            split at h
            · rcases h with h | h <;> cases h
              exact hlive
            · rcases h with h | h <;> cases h
              exact hlive
          · rw [hst] at h
            rcases h with h | h <;> cases h
            exact hbroken.elim

/-- The block goes elsewhere, and the first byte is written where it was. -/
theorem store_moved {s : LoopState} {bodyLength : Int} (body : List UInt8) {q : Ptr}
    (junk : Nat → UInt8) (hlive : s.totalBody ∈ s.heap.live) (fresh : q ∉ s.heap.live)
    (hpos : sizeT (s.totalBodyLength + bodyLength) ≠ 0)
    (hmax : sizeT (s.totalBodyLength + bodyLength) < 0x8000000000000000) :
    ∃ t, store s bodyLength body (.moved q junk) = .inr (.fault t) := by
  obtain ⟨heap, hre, hdead⟩ := Heap.realloc_moved hlive fresh hpos hmax junk
  have hcopy : copyFirst heap s.totalBody q = none := by
    unfold copyFirst
    cases heap.get q with
    | none => rfl
    | some m =>
        show (if 4 ≤ m.length then heap.memcpy s.totalBody 0 (m.take 1) else none) = none
        rw [Heap.memcpy_dead hdead, ite_self]
  refine ⟨s, ?_⟩
  simp only [store, hre, hcopy]

/-- A refusal: the block is freed, and the walk is over. -/
theorem store_noMemory {s : LoopState} {bodyLength : Int} (body : List UInt8) {o : Heap.Realloc}
    (hlive : s.totalBody ∈ s.heap.live) (hpos : sizeT (s.totalBodyLength + bodyLength) ≠ 0)
    (ho : o = .fail ∨ ∃ q junk, o = .moved q junk ∧ q ∈ s.heap.live) :
    ∃ t, store s bodyLength body o = .inr (.reallocFail t)
      ∧ t.heap.live = s.heap.live.erase s.totalBody := by
  have hre : s.heap.realloc s.totalBody (sizeT (s.totalBodyLength + bodyLength)) o
      = some (s.heap, none) := by
    rcases ho with rfl | ⟨q, junk, rfl, taken⟩
    · exact Heap.realloc_fail hlive hpos
    · exact Heap.realloc_taken hlive taken hpos junk
  refine ⟨{ s with
    totalBodyLength := s.totalBodyLength + bodyLength
    heap := s.heap.free s.totalBody }, ?_, rfl⟩
  simp only [store, hre, if_pos hlive]

/-! ## The whole walk -/

/-- What a walk that has `count` elements to go from the `i`-th one on may come to. -/
inductive Accounted (oracle : Nat → Heap.Realloc) (live : List Ptr) (totalBody : Ptr)
    (count i : Nat) (body : List UInt8) : Outcome → Prop where
  | finished {s : LoopState} (h : Unmoved live oracle count i) (hptr : s.totalBody = totalBody)
      (hlive : s.heap.live = live) (htotal : s.totalBodyLength = body.length)
      (hblock : s.heap.get s.totalBody = some body) :
      Accounted oracle live totalBody count i body (.finished s)
  | refused {s : LoopState} (h : Unmoved live oracle count i)
      (hrefusal : ∃ k, i ≤ k ∧ k < i + count ∧ ∀ junk, oracle k ≠ .inPlace junk)
      (hlive : s.heap.live = live.erase totalBody) :
      Accounted oracle live totalBody count i body (.reallocFail s)
  | lost {s : LoopState} (h : ¬ Unmoved live oracle count i) :
      Accounted oracle live totalBody count i body (.fault s)

/-- An element at which the block was extended in place does not decide. -/
theorem Accounted.inPlace {oracle : Nat → Heap.Realloc} {live : List Ptr} {totalBody : Ptr}
    {count i : Nat} {body : List UInt8} {o : Outcome} {junk : Nat → UInt8}
    (ho : oracle i = .inPlace junk) (h : Accounted oracle live totalBody count (i + 1) body o) :
    Accounted oracle live totalBody (count + 1) i body o := by
  have hcount : Unmoved live oracle (count + 1) i ↔ Unmoved live oracle count (i + 1) := by
    rw [Unmoved, ho]
  cases h with
  | finished hun hptr hlive htotal hblock =>
      exact .finished (hcount.mpr hun) hptr hlive htotal hblock
  | refused hun hrefusal hlive =>
      obtain ⟨k, hik, hlt, hne⟩ := hrefusal
      exact .refused (hcount.mpr hun) ⟨k, by omega, by omega, hne⟩ hlive
  | lost hmoved => exact .lost fun hun => hmoved (hcount.mp hun)

/-- An element at which the block is not extended in place is the last one the walk comes to. -/
theorem iteration_stops (data : Buf maxPacketLen) {p : List UInt8} {s : LoopState}
    {acc chunk rest : List UInt8} {flags : UInt8} (hp : p.length ≤ maxPacketLen)
    (hat : p.drop s.offset = vendorElement flags chunk ++ rest) (hlen : chunk.length ≤ 250)
    (h : Holds s acc) (hpos : 0 < acc.length + chunk.length)
    (hmax : acc.length + chunk.length < 0x8000000000000000) {oracle : Nat → Heap.Realloc}
    (ho : ∀ junk, oracle s.walked.length ≠ .inPlace junk) (count : Nat) (body : List UInt8) :
    ∃ o, iteration (data.recvInto p) (oracle s.walked.length) s = .ended o
      ∧ Accounted oracle s.heap.live s.totalBody (count + 1) s.walked.length body o := by
  obtain ⟨m, hget, _⟩ := h.block
  have hlive := Heap.mem_of_get hget
  have hsize : sizeT (s.totalBodyLength + chunk.length) = acc.length + chunk.length := by
    rw [h.total, sizeT]
    omega
  have hstop (hun : Unmoved s.heap.live oracle (count + 1) s.walked.length)
      (href : oracle s.walked.length = .fail
        ∨ ∃ q junk, oracle s.walked.length = .moved q junk ∧ q ∈ s.heap.live) :
      ∃ o, iteration (data.recvInto p) (oracle s.walked.length) s = .ended o
        ∧ Accounted oracle s.heap.live s.totalBody (count + 1) s.walked.length body o := by
    obtain ⟨t, hst, hfreed⟩ := store_noMemory
      (s := { s with walked := s.walked ++ [(s.offset, (chunk.length : Int))] }) chunk hlive
      (show sizeT (s.totalBodyLength + chunk.length) ≠ 0 by omega) href
    refine ⟨.reallocFail t, ?_, .refused hun ⟨_, Nat.le_refl _, by omega, ho⟩ hfreed⟩
    rw [iteration_vendorElement _ hp hat hlen, hst]
  cases hcase : oracle s.walked.length with
  | inPlace junk => exact absurd hcase (ho junk)
  | fail =>
      rw [← hcase]
      exact hstop (by rw [Unmoved, hcase]; trivial) (Or.inl hcase)
  | moved q junk =>
      by_cases hq : q ∈ s.heap.live
      · rw [← hcase]
        exact hstop (by rw [Unmoved, hcase]; exact hq) (Or.inr ⟨q, junk, hcase, hq⟩)
      · obtain ⟨t, hst⟩ := store_moved
          (s := { s with walked := s.walked ++ [(s.offset, (chunk.length : Int))] }) chunk junk
          hlive hq (show sizeT (s.totalBodyLength + chunk.length) ≠ 0 by omega)
          (show sizeT (s.totalBodyLength + chunk.length) < _ by omega)
        refine ⟨.fault t, ?_, .lost (by rw [Unmoved, hcase]; exact hq)⟩
        rw [iteration_vendorElement _ hp hat hlen, hst]

theorem reaches_of_ended {data : Buf maxPacketLen} {oracle : Nat → Heap.Realloc} {s t : LoopState}
    {o : Outcome} (hit : iteration data (oracle s.walked.length) s = .ended o)
    (h : Reaches data oracle s t) : t = s := by
  rcases Relation.ReflTransGen.cases_head h with heq | ⟨u, hstep, _⟩
  · exact heq.symm
  · rw [hit] at hstep
    cases hstep

theorem reaches_of_more {data : Buf maxPacketLen} {oracle : Nat → Heap.Realloc} {s t u : LoopState}
    (hit : iteration data (oracle s.walked.length) s = .more u) (h : Reaches data oracle s t) :
    t = s ∨ Reaches data oracle u t := by
  rcases Relation.ReflTransGen.cases_head h with heq | ⟨v, hstep, hrest⟩
  · exact Or.inl heq.symm
  · rw [hit] at hstep
    cases hstep
    exact Or.inr hrest

/-- The walk over a chain of elements, whatever the allocator does. -/
theorem loop_accounted (data : Buf maxPacketLen) {p : List UInt8} (hp : p.length ≤ maxPacketLen)
    (oracle : Nat → Heap.Realloc) {body bytes : List UInt8} (he : Elements body bytes) {fuel : Nat}
    {s : LoopState} {acc : List UInt8} (hat : p.drop s.offset = bytes) (h : Holds s acc)
    (hfuel : elementCount body.length ≤ fuel) (hmin : 4 ≤ acc.length + body.length)
    (hmax : acc.length + body.length < 0x8000000000000000) :
    (∀ t, Reaches (data.recvInto p) oracle s t → Named t)
      ∧ ∃ o, loop (data.recvInto p) oracle fuel s = some o
        ∧ Accounted oracle s.heap.live s.totalBody (elementCount body.length) s.walked.length
          (acc ++ body) o := by
  induction he generalizing fuel s acc with
  | last flags chunk hne hlen hflag =>
      have hpos := List.length_pos_iff.mpr hne
      have hone := elementCount_last hpos hlen
      obtain ⟨fuel, rfl⟩ := Nat.exists_eq_add_one_of_ne_zero (show fuel ≠ 0 by omega)
      rw [← List.append_nil (vendorElement flags chunk)] at hat
      have hends : ∃ o, iteration (data.recvInto p) (oracle s.walked.length) s = .ended o
          ∧ Accounted oracle s.heap.live s.totalBody 1 s.walked.length (acc ++ chunk) o := by
        by_cases ho : ∃ junk, oracle s.walked.length = .inPlace junk
        · obtain ⟨junk, ho⟩ := ho
          obtain ⟨heap, hheap, hit⟩ := iteration_element data hp hat hlen h hmin hmax junk
          rw [if_pos hflag] at hit
          have hlive := iteration_inPlace_live (Or.inr hit)
          have htotal : s.totalBodyLength + (chunk.length : Int) = (acc ++ chunk).length := by
            rw [h.total, List.length_append, Int.natCast_add]
          refine ⟨.finished (behind s chunk heap), by rw [ho]; exact hit,
            .finished ?_ rfl hlive htotal hheap⟩
          rw [Unmoved, ho]
          trivial
        · exact iteration_stops data hp hat hlen h (by omega) hmax (fun junk hc => ho ⟨junk, hc⟩) 0 _
      obtain ⟨o, hit, hacc⟩ := hends
      refine ⟨?_, o, by rw [loop, hit], by rw [hone]; exact hacc⟩
      intro t hreach
      rw [reaches_of_ended hit hreach]
      exact h.named
  | more flags chunk hlen hflag he ih =>
      rename_i body bytes
      have hsucc := elementCount_more body.length
      rw [List.length_append, hlen] at hfuel ⊢
      rw [List.length_append] at hmin hmax
      rw [hsucc] at hfuel ⊢
      obtain ⟨fuel, rfl⟩ := Nat.exists_eq_add_one_of_ne_zero (show fuel ≠ 0 by omega)
      by_cases ho : ∃ junk, oracle s.walked.length = .inPlace junk
      · obtain ⟨junk, ho⟩ := ho
        obtain ⟨t, hit, hnext, hholds, hptr, hwalked, _⟩ := iteration_announced data hp hat hlen
          hflag h (by omega) junk
        have hlive := iteration_inPlace_live (Or.inl hit)
        obtain ⟨hnamed, o, hrun, hacc⟩ := ih hnext hholds (Nat.le_of_succ_le_succ hfuel)
          (by rw [List.length_append]; omega) (by rw [List.length_append]; omega)
        rw [hlive, hptr, hwalked, List.append_assoc] at hacc
        rw [← ho] at hit
        refine ⟨?_, o, by rw [loop, hit]; exact hrun, hacc.inPlace ho⟩
        intro u hreach
        rcases reaches_of_more hit hreach with rfl | hrest
        · exact h.named
        · exact hnamed u hrest
      · obtain ⟨o, hit, hacc⟩ := iteration_stops data hp hat (Nat.le_of_eq hlen) h
          (by omega) (by omega) (fun junk hc => ho ⟨junk, hc⟩) (elementCount body.length)
          (acc ++ (chunk ++ body))
        refine ⟨?_, o, by rw [loop, hit], hacc⟩
        intro t hreach
        rw [reaches_of_ended hit hreach]
        exact h.named

/-! ## The law -/

/-- The first ten bytes of a body stand at byte 63 of its frame. -/
theorem IsFrame.front {body p : List UInt8} (h : IsFrame body p) (hmin : 10 ≤ body.length) :
    (p.drop 63).take 10 = body.take 10 ∧ 63 + 10 ≤ p.length := by
  have hlen := h.length_eq
  have hcount : 1 ≤ elementCount body.length := by unfold elementCount; omega
  have hcut : p.drop 63 = (p.drop (24 + 24 + 8)).drop 7 := by rw [List.drop_drop]
  have he := h.elements
  refine ⟨?_, by omega⟩
  rw [hcut]
  generalize p.drop (24 + 24 + 8) = bytes at he ⊢
  cases he with
  | last flags chunk hne hle hflag => rfl
  | more flags chunk hfull hflag he =>
      rename_i body bytes
      have hten : 10 ≤ chunk.length := by omega
      show (chunk ++ bytes).take 10 = _
      rw [List.take_append_of_le_length hten, List.take_append_of_le_length hten]

/-- A walk that accounts for the body of a frame has brought it together. -/
theorem IsFrame.brought {body p : List UInt8} (h : IsFrame body p) (hmin : 10 ≤ body.length)
    (hp : p.length ≤ maxPacketLen) (recvData : Buf maxPacketLen) {s : LoopState}
    (htotal : s.totalBodyLength = body.length) (hblock : s.heap.get s.totalBody = some body) :
    Brought body (recvData.recvInto p) s := by
  obtain ⟨hfront, hroom⟩ := h.front hmin
  refine ⟨?_, htotal, hblock⟩
  rw [Buf.read_recvInto recvData hroom (Nat.le_trans hroom hp), hfront]

section

variable {body p : List UInt8} (hframe : IsFrame body p) (hmin : 10 ≤ body.length)
  (hp : p.length ≤ maxPacketLen) (recvData : Buf maxPacketLen) (oracle : Nat → Heap.Realloc)
  (heap : Heap) (totalBody : Ptr) (fresh : totalBody ∉ heap.live) (first : UInt8)

include hframe hmin hp

theorem elementLoop_accounted :
    (∀ t, Reaches (recvData.recvInto p) oracle
        (LoopState.start (heap.malloc totalBody [first] fresh) totalBody) t → Named t)
      ∧ ∃ o, elementLoop (recvData.recvInto p) oracle (heap.malloc totalBody [first] fresh)
          totalBody = some o
        ∧ Accounted oracle (totalBody :: heap.live) totalBody (elementCount body.length) 0 body o := by
  have hlen := hframe.length_eq
  have hsize : maxPacketLen = 1512 := rfl
  have hcount : elementCount body.length ≤ 7 := by unfold elementCount; omega
  exact loop_accounted recvData hp oracle hframe.elements rfl (holds_start fresh first) hcount
    (by rw [List.length_nil]; omega) (by rw [List.length_nil]; omega)

/-- A block that has been moved away is not the one the walk goes on with. -/
theorem unmoved_of_soundBlock
    (h : SoundBlock body (recvData.recvInto p) oracle heap.live
      (heap.malloc totalBody [first] fresh) totalBody) :
    Unmoved (totalBody :: heap.live) oracle (elementCount body.length) 0 := by
  obtain ⟨_, o, hrun, hacc⟩ := elementLoop_accounted hframe hmin hp recvData oracle heap totalBody fresh
    first
  obtain ⟨shown, hshown, hclean⟩ := h.leaves
  cases hacc with
  | finished hun => exact hun
  | refused hun => exact hun
  | lost hmoved =>
      rw [printPacket, hrun] at hshown
      cases hshown
      exact hclean.elim

theorem soundBlock_of_unmoved
    (h : Unmoved (totalBody :: heap.live) oracle (elementCount body.length) 0) :
    SoundBlock body (recvData.recvInto p) oracle heap.live
      (heap.malloc totalBody [first] fresh) totalBody := by
  obtain ⟨hnamed, o, hrun, hacc⟩ := elementLoop_accounted hframe hmin hp recvData oracle heap totalBody fresh
    first
  have herase : (totalBody :: heap.live).erase totalBody = heap.live := List.erase_cons_head ..
  refine ⟨hnamed, ?_⟩
  cases hacc with
  | finished hun hptr hlive htotal hblock =>
      have hsize : maxPacketLen = 1512 := rfl
      have hlen := hframe.length_eq
      obtain ⟨r, hr, _, hcovered, hfreed⟩ :=
        checksum_body hmin (by omega) (hframe.brought hmin hp recvData htotal hblock)
      refine ⟨.report r, printPacket_finished hrun hr, hcovered, ?_⟩
      rw [hfreed, hlive, hptr]
      exact herase
  | @refused s hun _ hlive =>
      exact ⟨.reallocFail s.heap, by rw [printPacket, hrun]; rfl, hlive.trans herase⟩
  | lost hmoved => exact absurd h hmoved

end

/--
**The block is sound exactly as long as it is not moved.**

For every frame that carries a body of at least ten bytes and fits `recv_data`, and
for everything the allocator may do.
-/
theorem soundBlock_iff_unmoved {body p : List UInt8} (hframe : IsFrame body p)
    (hmin : 10 ≤ body.length) (hp : p.length ≤ maxPacketLen) (recvData : Buf maxPacketLen)
    (oracle : Nat → Heap.Realloc) (heap : Heap) (totalBody : Ptr) (fresh : totalBody ∉ heap.live)
    (first : UInt8) :
    SoundBlock body (recvData.recvInto p) oracle heap.live (heap.malloc totalBody [first] fresh)
        totalBody
      ↔ Unmoved (totalBody :: heap.live) oracle (elementCount body.length) 0 :=
  ⟨unmoved_of_soundBlock hframe hmin hp recvData oracle heap totalBody fresh first,
    soundBlock_of_unmoved hframe hmin hp recvData oracle heap totalBody fresh first⟩

/-- **Two elements, and a block that grows in place.** -/
theorem growing_block_sound :
    SoundBlock (List.replicate 300 65)
      ((Buf.fill maxPacketLen 0).recvInto (frameOf 1 (List.replicate 300 65)))
      (fun _ => .inPlace fun _ => 0) [] (Heap.empty.malloc 0 [0] List.not_mem_nil) 0 := by
  have hlen : (List.replicate 300 (65 : UInt8)).length = 300 := List.length_replicate ..
  have hframe : IsFrame (List.replicate 300 65) (frameOf 1 (List.replicate 300 65)) :=
    frameOf_isFrame (by omega) (by omega)
  have hcount : elementCount 300 = 2 := by decide
  have hp : (frameOf 1 (List.replicate 300 65)).length ≤ maxPacketLen := by
    rw [hframe.length_eq, hlen, hcount]
    decide
  generalize List.replicate 300 (65 : UInt8) = body at *
  have hun : Unmoved [0] (fun _ => .inPlace fun _ => 0) (elementCount body.length) 0 := by
    rw [hlen, hcount]
    trivial
  exact (soundBlock_iff_unmoved hframe (by omega) hp (Buf.fill maxPacketLen 0)
    (fun _ => .inPlace fun _ => 0) Heap.empty 0 List.not_mem_nil 0).mpr hun

/-- **One element, and a block that the first `realloc` moves.** -/
theorem moved_block_not_sound :
    IsFrame (List.replicate 10 65) (frameOf 0 (List.replicate 10 65))
      ∧ (frameOf 0 (List.replicate 10 65)).length ≤ maxPacketLen
      ∧ ¬ SoundBlock (List.replicate 10 65)
        ((Buf.fill maxPacketLen 0).recvInto (frameOf 0 (List.replicate 10 65)))
        (fun _ => .moved 1 fun _ => 0) [] (Heap.empty.malloc 0 [0] List.not_mem_nil) 0 := by
  have hframe : IsFrame (List.replicate 10 65) (frameOf 0 (List.replicate 10 65)) :=
    frameOf_isFrame (by decide) (by decide)
  have hp : (frameOf 0 (List.replicate 10 65)).length ≤ maxPacketLen := by decide
  refine ⟨hframe, hp, fun h => ?_⟩
  have hun := unmoved_of_soundBlock hframe (by decide) hp (Buf.fill maxPacketLen 0)
    (fun _ => .moved 1 fun _ => 0) Heap.empty 0 List.not_mem_nil 0 h
  exact absurd hun (show (1 : Ptr) ∉ [0] by decide)

end EspNowGateway.Proof
