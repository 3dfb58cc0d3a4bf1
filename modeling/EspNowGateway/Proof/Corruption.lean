import Mathlib.Algebra.BigOperators.Intervals
import EspNowGateway.Lib.ShiftRegister
import EspNowGateway.Proof.Allocator

/-!
# What the checksum sees

The CRC stands in the middle of what it protects, and is cleared before it is
computed. A corruption may strike the data, the field or both. To treat them alike,
the field is taken for sixteen more bits of message: shifted sixteen times, the sum
of the two values `print_packet` shows is one sum over the bits of the body, each bit
at a place of its own (`syndrome_eq`).

What is left is the polynomial: its feedback flips an odd number of bits, and no body
is as long as its period.
-/

namespace EspNowGateway.Proof

open EspNowGateway CObject CHeap Receiver ShiftRegister

/-! ## The table is a register -/

/-- The terms of the polynomial below the sixteenth, the constant one on top. -/
def crc16Poly : BitVec 16 := 0x8408#16

/-- A CRC as a vector. -/
def word (crc : UInt16) : Word 16 := ⟨crc.toBitVec⟩

theorem word_xor (a b : UInt16) : word (a ^^^ b) = word a + word b := rfl

theorem word_not (a : UInt16) : word (~~~ a) = word 0xffff + word a :=
  Word.ext BitVec.allOnes_xor.symm

/-- The table holds what eight shifts make of each byte. -/
theorem crc16LeTable_eq :
    crc16LeTable.map UInt16.toNat = (List.range 256).map (shiftNat 0x8408)^[8] := by
  decide +kernel

theorem word_crc16LeTable (v : Word 16) :
    word (crc16LeTable.getD (low 8 v).bits.toNat 0) = (shift crc16Poly ^ 8) (low 8 v) := by
  have hlt : (low 8 v).bits.toNat < (List.range 256).length := by
    rw [List.length_range, low, BitVec.toNat_setWidth, BitVec.toNat_setWidth]
    omega
  have hentry := congrArg (fun l => l.getD (low 8 v).bits.toNat 0) crc16LeTable_eq
  refine Word.ext (BitVec.eq_of_toNat_eq ?_)
  rw [toNat_shift_pow]
  calc (crc16LeTable.getD (low 8 v).bits.toNat 0).toNat
      = (crc16LeTable.map UInt16.toNat).getD (low 8 v).bits.toNat 0 :=
        (List.getD_map _ 0 _).symm
    _ = ((List.range 256).map (shiftNat 0x8408)^[8]).getD (low 8 v).bits.toNat 0 := hentry
    _ = (shiftNat 0x8408)^[8] ((List.range 256).getD (low 8 v).bits.toNat 0) :=
        List.getD_map _ 0 _
    _ = (shiftNat 0x8408)^[8] (low 8 v).bits.toNat := by
        rw [List.getD_eq_getElem _ _ hlt, List.getElem_range]

/-- A turn of the loop shifts eight times. -/
theorem word_crc16LeStep (crc : UInt16) (b : UInt8) :
    word (crc16LeStep crc b) = feed crc16Poly (word crc) b := by
  have hbyte : b.toBitVec.setWidth 16 >>> (8 : Nat) = 0#16 := by
    refine BitVec.eq_of_getLsbD_eq fun i _ => ?_
    rw [BitVec.getLsbD_ushiftRight, BitVec.getLsbD_setWidth,
      BitVec.getLsbD_of_ge _ _ (Nat.le_add_right 8 i), Bool.and_false, BitVec.getLsbD_zero]
  have hindex : ((crc ^^^ b.toUInt16) &&& 0xff).toNat
      = (low 8 (word crc + ofByte b)).bits.toNat := by
    show _ = (((crc.toBitVec ^^^ b.toUInt16.toBitVec).setWidth 8).setWidth 16).toNat
    rw [UInt16.toNat_and, show (0xff : UInt16).toNat = 2 ^ 8 - 1 from rfl,
      Nat.and_two_pow_sub_one_eq_mod, BitVec.toNat_setWidth, BitVec.toNat_setWidth]
    exact (Nat.mod_eq_of_lt (by omega)).symm
  have hhigh : word (crc >>> 8) = ⟨(word crc + (ofByte b : Word 16)).bits >>> 8⟩ := by
    refine Word.ext ?_
    show crc.toBitVec >>> (8 : Nat) = (crc.toBitVec ^^^ b.toBitVec.setWidth 16) >>> (8 : Nat)
    rw [BitVec.ushiftRight_xor_distrib, hbyte, BitVec.xor_zero]
  rw [crc16LeStep, word_xor, hindex, word_crc16LeTable, hhigh, feed, ← shift_pow_split]

/-- The CRC of a message, bit by bit. -/
theorem word_espRomCrc16Le (m : List UInt8) :
    word (espRomCrc16Le 0xffff m) = word 0xffff
      + ∑ k ∈ Finset.range (8 * m.length),
          if bitAt m k then (shift crc16Poly ^ (8 * m.length - k)) (Word.unit 0) else 0 := by
  have hzero : word (~~~ 0xffff) = 0 := rfl
  rw [espRomCrc16Le, word_not, ← List.foldl_hom word fun crc b => (word_crc16LeStep crc b).symm, hzero,
    foldl_feed crc16Poly (show 8 ≤ 16 by decide), map_zero, zero_add]

/-- A set bit does not come back to where it was within two to the fourteen shifts. -/
theorem away_home : (away (shiftNat crc16Poly.toNat) 1 14 1).isSome = true := by
  decide +kernel

/-- The polynomial sees small errors as long as they are not two to the fourteen places apart. -/
theorem crc16_sees : Sees (shift crc16Poly) Word.parity (Word.unit 0) 0x4000 where
  add_self := Word.add_self
  injective := shift_injective rfl
  keeps := parity_shift (by decide +kernel)
  odd := by decide +kernel
  away d hpos hle := shift_pow_unit_ne away_home hpos hle

/-! ## The field is message too -/

theorem getLsbD_crcField (m : List UInt8) {j : Nat} (h : j < 16) :
    (crcField m).toBitVec.getLsbD j = bitAt m (32 + j) := by
  show ((m.getD 4 0).toBitVec.setWidth 16 ||| (m.getD 5 0).toBitVec.setWidth 16 <<< (8 : Nat)).getLsbD j
    = (m.getD ((32 + j) / 8) 0).toBitVec.getLsbD ((32 + j) % 8)
  rw [BitVec.getLsbD_or, BitVec.getLsbD_shiftLeft, BitVec.getLsbD_setWidth, BitVec.getLsbD_setWidth,
    decide_eq_true h, Bool.true_and, Bool.true_and]
  rcases Nat.lt_or_ge j 8 with hlow | hhigh
  · rw [decide_eq_true hlow, show (32 + j) / 8 = 4 by omega, show (32 + j) % 8 = j by omega]
    exact Bool.or_false _
  · rw [decide_eq_false (Nat.not_lt.mpr hhigh), decide_eq_true (show j - 8 < 16 by omega),
      BitVec.getLsbD_of_ge _ j hhigh, show (32 + j) / 8 = 5 by omega,
      show (32 + j) % 8 = j - 8 by omega]
    rfl

theorem getD_clearCrc {m : List UInt8} (h : 6 ≤ m.length) (i : Nat) :
    (clearCrc m).getD i 0 = if i = 4 ∨ i = 5 then 0 else m.getD i 0 := by
  obtain ⟨a, b, c, d, e, f, rest, rfl⟩ : ∃ a b c d e f rest, m = a :: b :: c :: d :: e :: f :: rest := by
    rcases m with _ | ⟨a, _ | ⟨b, _ | ⟨c, _ | ⟨d, _ | ⟨e, _ | ⟨f, rest⟩⟩⟩⟩⟩⟩
    all_goals first
      | exact ⟨a, b, c, d, e, f, rest, rfl⟩
      | exact absurd h (by simp only [List.length_cons, List.length_nil]; omega)
  match i with
  | 0 | 1 | 2 | 3 | 4 | 5 => rfl
  | i + 6 =>
      rw [if_neg (by omega)]
      rfl

/-- The bits of the `crc` field. -/
def InField (k : Nat) : Prop := 32 ≤ k ∧ k < 48

instance (k : Nat) : Decidable (InField k) := inferInstanceAs (Decidable (_ ∧ _))

theorem bitAt_clearCrc {m : List UInt8} (h : 6 ≤ m.length) (k : Nat) :
    bitAt (clearCrc m) k = if InField k then false else bitAt m k := by
  rw [bitAt, getD_clearCrc h]
  have hbyte : k / 8 = 4 ∨ k / 8 = 5 ↔ InField k := by
    unfold InField
    omega
  by_cases hk : InField k
  · rw [if_pos (hbyte.mpr hk), if_pos hk]
    exact BitVec.getLsbD_zero
  · rw [if_neg (fun h => hk (hbyte.mp h)), if_neg hk, bitAt]

/-- How often bit `k` of a body of `n` bytes is shifted, all in all. -/
def place (n k : Nat) : Nat := if InField k then 48 - k else 8 * n + 16 - k

/-- What bit `k` adds. -/
def share (m : List UInt8) (k : Nat) : Word 16 :=
  if bitAt m k then (shift crc16Poly ^ place m.length k) (Word.unit 0) else 0

theorem share_data {m : List UInt8} {k : Nat} (hk : ¬ InField k) (hlt : k < 8 * m.length) :
    (shift crc16Poly ^ 16)
        (if bitAt m k then (shift crc16Poly ^ (8 * m.length - k)) (Word.unit 0) else 0)
      = share m k := by
  rw [share, place, if_neg hk, apply_ite ⇑(shift crc16Poly ^ 16), map_zero, ← pow_add_apply,
    show 16 + (8 * m.length - k) = 8 * m.length + 16 - k by omega]

/-- The field, shifted until it has fallen out. -/
theorem shift_crcField (m : List UInt8) :
    (shift crc16Poly ^ 16) (word (crcField m)) = ∑ k ∈ Finset.Ico 32 48, share m k := by
  rw [shift_pow_eq_sum crc16Poly (Nat.le_refl 16) fun i hi => BitVec.getLsbD_of_ge _ _ hi,
    Finset.sum_Ico_eq_sum_range]
  refine Finset.sum_congr rfl fun j hj => ?_
  have hj : j < 16 := Finset.mem_range.mp hj
  have hin : InField (32 + j) := ⟨by omega, by omega⟩
  show (if (crcField m).toBitVec.getLsbD j then _ else _) = _
  rw [getLsbD_crcField m hj, share, place, if_pos hin, show 48 - (32 + j) = 16 - j by omega]

/-- The two values shown, added and shifted sixteen times: a constant, and a share for every bit. -/
theorem syndrome_eq {m : List UInt8} (h : 6 ≤ m.length) :
    (shift crc16Poly ^ 16) (word (espRomCrc16Le 0xffff (clearCrc m)) + word (crcField m))
      = (shift crc16Poly ^ 16) (word 0xffff) + ∑ k ∈ Finset.range (8 * m.length), share m k := by
  have hdata : ∀ k ∈ Finset.range (8 * m.length), (shift crc16Poly ^ 16)
        (if bitAt (clearCrc m) k then (shift crc16Poly ^ (8 * m.length - k)) (Word.unit 0) else 0)
      = if InField k then 0 else share m k := by
    intro k hk
    rw [bitAt_clearCrc h]
    by_cases hin : InField k
    · rw [if_pos hin, if_pos hin]
      exact map_zero _
    · rw [if_neg hin, if_neg hin, share_data hin (Finset.mem_range.mp hk)]
  have hfield : ∑ k ∈ Finset.Ico 32 48, share m k
      = ∑ k ∈ Finset.range (8 * m.length), if InField k then share m k else 0 := by
    rw [← Finset.sum_filter]
    refine Finset.sum_congr (Finset.ext fun k => ?_) fun _ _ => rfl
    rw [Finset.mem_Ico, Finset.mem_filter, Finset.mem_range]
    exact ⟨fun hk => ⟨by omega, hk⟩, fun hk => hk.2⟩
  have hboth : ∀ k ∈ Finset.range (8 * m.length),
      (if InField k then 0 else share m k) + (if InField k then share m k else 0) = share m k := by
    intro k _
    by_cases hin : InField k
    · rw [if_pos hin, if_pos hin, zero_add]
    · rw [if_neg hin, if_neg hin, add_zero]
  rw [map_add, word_espRomCrc16Le, clearCrc_length h, map_add, map_sum, Finset.sum_congr rfl hdata,
    shift_crcField, hfield, add_assoc, ← Finset.sum_add_distrib, Finset.sum_congr rfl hboth]

/-! ## Two bodies -/

/-- The bits in which `b'` differs from `b`. -/
def differing (b b' : List UInt8) : Finset Nat :=
  (Finset.range (8 * b.length)).filter fun k => bitAt b k ≠ bitAt b' k

/-- What they have in common cancels. -/
theorem sum_share_add {b b' : List UInt8} (hlen : b'.length = b.length) :
    ∑ k ∈ Finset.range (8 * b.length), share b k + ∑ k ∈ Finset.range (8 * b.length), share b' k
      = ∑ k ∈ differing b b', (shift crc16Poly ^ place b.length k) (Word.unit 0) := by
  rw [← Finset.sum_add_distrib, differing, Finset.sum_filter]
  refine Finset.sum_congr rfl fun k _ => ?_
  rw [share, share, hlen]
  rcases hb : bitAt b k with _ | _ <;> rcases hb' : bitAt b' k with _ | _
  · exact add_zero _
  · exact zero_add _
  · exact add_zero _
  · exact Word.add_self _

theorem place_le (n k : Nat) : place n k ≤ 8 * n + 16 := by
  rw [place]
  by_cases hk : InField k
  · rw [if_pos hk]
    have := hk.1
    omega
  · rw [if_neg hk]
    omega

/-- The last sixteen places are the field's. -/
theorem place_le_iff {n k : Nat} (h : k < 8 * n) : place n k ≤ 16 ↔ InField k := by
  rw [place]
  by_cases hk : InField k
  · rw [if_pos hk]
    have := hk.1
    exact iff_of_true (by omega) hk
  · rw [if_neg hk]
    exact iff_of_false (by omega) hk

/-- No two bits share a place. -/
theorem place_injective {n i j : Nat} (hi : i < 8 * n) (hj : j < 8 * n)
    (h : place n i = place n j) : i = j := by
  have hiff : InField i ↔ InField j := by rw [← place_le_iff hi, h, place_le_iff hj]
  rw [place, place] at h
  by_cases hin : InField i
  · have hjn := hiff.mp hin
    rw [if_pos hin, if_pos hjn] at h
    have := hin.2
    have := hjn.2
    omega
  · rw [if_neg hin, if_neg fun hjn => hin (hiff.mpr hjn)] at h
    omega

/-- A corruption that touches one bit, two bits or an odd number leaves a trace. -/
theorem sum_differing_ne_zero {b b' : List UInt8} (hmax : b.length ≤ 1470)
    (hdiff : (differing b b').card = 1 ∨ (differing b b').card = 2 ∨ Odd (differing b b').card) :
    ∑ k ∈ differing b b', (shift crc16Poly ^ place b.length k) (Word.unit 0) ≠ 0 := by
  have hlt : ∀ k ∈ differing b b', k < 8 * b.length := fun k hk =>
    Finset.mem_range.mp (Finset.mem_filter.mp hk).1
  rcases hdiff with hone | htwo | hodd
  · exact crc16_sees.sum_ne_zero_of_odd _ (hone ▸ odd_one)
  · refine crc16_sees.sum_ne_zero_of_two (fun i hi j hj => ?_) (fun i _ j _ => ?_) htwo
    · exact place_injective (hlt i hi) (hlt j hj)
    · have := place_le b.length j
      omega
  · exact crc16_sees.sum_ne_zero_of_odd _ hodd

/-! ## What `print_packet` shows -/

/-- `print_packet` shows `r` for a body. -/
def Shows (body : List UInt8) (r : Report) : Prop :=
  ∃ data s, Brought body data s ∧ checksum data s = some r

theorem Shows.fields {body : List UInt8} {r : Report} (h : Shows body r) (hmin : 10 ≤ body.length)
    (hmax : body.length < 0x100000000) :
    r.embedded = crcField body ∧ r.calculated = espRomCrc16Le 0xffff (clearCrc body) := by
  obtain ⟨data, s, hbrought, hr⟩ := h
  obtain ⟨r', hr', hheader, hcovered, _⟩ :=
    checksum_body hmin hmax hbrought
  obtain rfl : r' = r := Option.some.inj (hr'.symm.trans hr)
  have hget (i : Nat) (hi : i < 10) : (body.take 10).getD i 0 = body.getD i 0 := by
    rw [List.getD_eq_getElem?_getD, List.getElem?_take_of_lt hi, ← List.getD_eq_getElem?_getD]
  refine ⟨?_, ?_⟩
  · rw [Report.embedded, hheader, crcField, hget 4 (by decide), hget 5 (by decide), crcField]
  · rw [Report.calculated, hcovered]

/-- Whatever the allocator does, what is shown for a frame is shown for its body. -/
theorem shows_of_printPacket {body p : List UInt8} (hframe : IsFrame body p)
    (hmin : 10 ≤ body.length) (hp : p.length ≤ maxPacketLen) {recvData : Buf maxPacketLen}
    {oracle : Nat → Heap.Realloc} {heap : Heap} {totalBody : Ptr} {fresh : totalBody ∉ heap.live}
    {first : UInt8} {r : Report}
    (hr : printPacket (recvData.recvInto p) oracle (heap.malloc totalBody [first] fresh) totalBody
      = some (.report r)) : Shows body r := by
  obtain ⟨_, o, hrun, hacc⟩ :=
    elementLoop_accounted hframe hmin hp recvData oracle heap totalBody fresh first
  have hlen := hframe.length_eq
  have hsize : maxPacketLen = 1512 := rfl
  cases hacc with
  | finished hun hptr hlive htotal hblock =>
      have hbrought := hframe.brought hmin hp recvData htotal hblock
      obtain ⟨r', hr', _⟩ := checksum_body hmin (by omega) hbrought
      rw [printPacket_finished hrun hr'] at hr
      cases hr
      exact ⟨_, _, hbrought, hr'⟩
  | refused =>
      rw [printPacket, hrun] at hr
      cases hr
  | lost =>
      rw [printPacket, hrun] at hr
      cases hr

/-- There is something to show: a frame of a body that fits, and a block that grows in place. -/
theorem exists_shows {body p : List UInt8} (hframe : IsFrame body p) (hmin : 10 ≤ body.length)
    (hmax : body.length ≤ 1414) :
    ∃ r, printPacket ((Buf.fill maxPacketLen 0).recvInto p) (fun _ => .inPlace fun _ => 0)
        (Heap.empty.malloc 0 [0] List.not_mem_nil) 0 = some (.report r) ∧ Shows body r := by
  have hp := hframe.fits hmax
  obtain ⟨s, hrun, _, htotal, hblock, _⟩ := roundTrips_of_le hframe (by omega) hmax
    (Buf.fill maxPacketLen 0) Heap.empty 0 List.not_mem_nil 0 fun _ _ => 0
  obtain ⟨r, hr, _⟩ := checksum_body hmin (by omega)
    (hframe.brought hmin hp (Buf.fill maxPacketLen 0) htotal hblock)
  have hshown := printPacket_finished hrun hr
  exact ⟨r, hshown, shows_of_printPacket hframe hmin hp hshown⟩

/--
**Small corruptions are seen.**

Of two bodies of one length, the first with the checksum it should have: the two values
shown for the first are equal. If the bodies differ in one bit, in two, or in an odd
number, wherever they are, the two values shown for the second are different.
-/
theorem corruption_seen {b b' : List UInt8} (hmin : 10 ≤ b.length) (hmax : b.length ≤ 1470)
    (hcrc : crcField b = espRomCrc16Le 0xffff (clearCrc b)) (hlen : b'.length = b.length)
    (hdiff : (differing b b').card = 1 ∨ (differing b b').card = 2 ∨ Odd (differing b b').card) :
    (∀ r, Shows b r → r.embedded = r.calculated)
      ∧ ∀ r, Shows b' r → r.embedded ≠ r.calculated := by
  refine ⟨fun r hr => ?_, fun r hr => ?_⟩
  · obtain ⟨hembedded, hcalculated⟩ := hr.fields hmin (by omega)
    rw [hembedded, hcalculated, hcrc]
  obtain ⟨hembedded, hcalculated⟩ := hr.fields (by omega) (by omega)
  rw [hembedded, hcalculated]
  intro hsame
  have hzero (m : List UInt8) (hm : crcField m = espRomCrc16Le 0xffff (clearCrc m))
      (hsix : 6 ≤ m.length) : (shift crc16Poly ^ 16) (word 0xffff)
        + ∑ k ∈ Finset.range (8 * m.length), share m k = 0 := by
    rw [← syndrome_eq hsix, hm, Word.add_self, map_zero]
  have hb := hzero b hcrc (by omega)
  have hb' := hzero b' hsame (by omega)
  rw [hlen] at hb'
  refine sum_differing_ne_zero hmax hdiff ?_
  rw [← sum_share_add hlen]
  have heq := add_left_cancel (hb.trans hb'.symm)
  rw [heq, Word.add_self]

/-- A body with its checksum. -/
def goodBody : List UInt8 := [1, 0, 7, 0, 0x01, 0x59, 0x44, 0x33, 0x22, 0x11, 0x68, 0x69]

/-- The same with a bit of the field and a bit of the payload flipped. -/
def badBody : List UInt8 := [1, 0, 7, 0, 0x01, 0x58, 0x44, 0x33, 0x22, 0x11, 0x69, 0x69]

/-- **A frame, and the same with its checksum and data both hit.** -/
theorem two_bits_seen :
    (∃ r, printPacket ((Buf.fill maxPacketLen 0).recvInto (frameOf 0 goodBody))
        (fun _ => .inPlace fun _ => 0) (Heap.empty.malloc 0 [0] List.not_mem_nil) 0
          = some (.report r) ∧ r.embedded = r.calculated)
      ∧ ∃ r, printPacket ((Buf.fill maxPacketLen 0).recvInto (frameOf 0 badBody))
          (fun _ => .inPlace fun _ => 0) (Heap.empty.malloc 0 [0] List.not_mem_nil) 0
            = some (.report r) ∧ r.embedded ≠ r.calculated := by
  have hgood : IsFrame goodBody (frameOf 0 goodBody) := frameOf_isFrame (by decide) (by decide)
  have hbad : IsFrame badBody (frameOf 0 badBody) := frameOf_isFrame (by decide) (by decide)
  have hcrc : crcField goodBody = espRomCrc16Le 0xffff (clearCrc goodBody) := by decide +kernel
  have hlen : badBody.length = goodBody.length := rfl
  have htwo : (differing goodBody badBody).card = 2 := by decide +kernel
  obtain ⟨r, hr, hshows⟩ := exists_shows hgood (by decide) (by decide)
  obtain ⟨r', hr', hshows'⟩ := exists_shows hbad (by decide) (by decide)
  obtain ⟨hequal, hdiffer⟩ :=
    corruption_seen (by decide) (by decide) hcrc hlen (.inr (.inl htwo))
  exact ⟨⟨r, hr, hequal r hshows⟩, r', hr', hdiffer r' hshows'⟩

end EspNowGateway.Proof
