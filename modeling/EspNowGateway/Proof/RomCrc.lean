import EspNowGateway.Lib.CyclicCode
import EspNowGateway.Linux.RomCrc
import EspNowGateway.Proof.Corruption

/-!
# The ROM's checksums

`esp_rom_crc.h` says which polynomial each of the six functions divides by. The tables
bear it out: an entry is what eight shifts make of its index. So each function runs a
register, the big-endian ones in the mirror, and what holds of registers holds of all
six of them.
-/

namespace EspNowGateway.Proof

open EspNowGateway CObject CHeap Receiver ShiftRegister
open Polynomial (X)
open scoped Polynomial

variable {n : Nat}

/-! ## Two orders -/

/-- Which end of a register falls out, and which end of a byte comes first. -/
inductive Endian where
  | le
  | be
  deriving DecidableEq

/-- A byte, end for end. -/
def mirror (b : UInt8) : UInt8 := ⟨b.toBitVec.reverse⟩

/-- The word that a register stands for, its low bit the one to fall out. -/
def Endian.word : Endian → BitVec n → Word n
  | .le, crc => ⟨crc⟩
  | .be, crc => ⟨crc.reverse⟩

/-- A byte, its low bit the one to come first. -/
def Endian.byte : Endian → UInt8 → UInt8
  | .le, b => b
  | .be, b => mirror b

/-- A function keeps a register: the bytes are shifted in, and `~` is laid around it. -/
def IsRegister (e : Endian) (poly : BitVec n) (f : BitVec n → List UInt8 → BitVec n) : Prop :=
  ∀ crc buf, e.word (~~~ f crc buf) = (buf.map e.byte).foldl (feed poly) (e.word (~~~ crc))

theorem reverse_xor (a b : BitVec n) : (a ^^^ b).reverse = a.reverse ^^^ b.reverse := by
  refine BitVec.eq_of_getLsbD_eq fun i _ => ?_
  rw [BitVec.getLsbD_xor, BitVec.getLsbD_reverse, BitVec.getLsbD_reverse, BitVec.getLsbD_reverse,
    BitVec.getMsbD_xor]

theorem reverse_shiftLeft (a : BitVec n) (i : Nat) : (a <<< i).reverse = a.reverse >>> i := by
  refine BitVec.eq_of_getLsbD_eq fun j hj => ?_
  rw [BitVec.getLsbD_ushiftRight, BitVec.getLsbD_reverse, BitVec.getLsbD_reverse,
    BitVec.getMsbD_shiftLeft, Nat.add_comm]

theorem reverse_injective : Function.Injective (BitVec.reverse : BitVec n → BitVec n) :=
  Function.LeftInverse.injective fun _ => BitVec.reverse_reverse_eq

theorem Endian.word_injective (e : Endian) : Function.Injective (e.word : BitVec n → Word n) := by
  intro a b h
  cases e with
  | le => exact congrArg Word.bits h
  | be => exact reverse_injective (congrArg Word.bits h)

theorem Endian.word_xor (e : Endian) (a b : BitVec n) : e.word (a ^^^ b) = e.word a + e.word b := by
  cases e with
  | le => rfl
  | be => exact Word.ext (reverse_xor a b)

theorem Endian.byte_injective (e : Endian) : Function.Injective e.byte := by
  intro a b h
  cases e with
  | le => exact h
  | be => exact UInt8.toBitVec_inj.mp (reverse_injective (congrArg UInt8.toBitVec h))

/-! ## A turn of the loop -/

/-- The table holds what eight shifts make of each byte. -/
def TableOf (e : Endian) (poly : BitVec n) (table : List (BitVec n)) : Prop :=
  ∀ b : UInt8, e.word (table.getD b.toNat 0) = (shift poly ^ 8) (ofByte (e.byte b))

/-- The table, entry by entry, against shifts on numbers. -/
theorem tableOf_of_toNat {e : Endian} {poly : BitVec n} {table : List (BitVec n)} (hn : 8 ≤ n)
    (h : table.map (fun t => (e.word t).bits.toNat)
      = (List.range 256).map fun i => (shiftNat poly.toNat)^[8] (e.byte (.ofNat i)).toNat) :
    TableOf e poly table := by
  intro b
  have hlt : b.toNat < (List.range 256).length := by
    rw [List.length_range]
    exact b.toNat_lt
  have hlen : b.toNat < table.length := by
    have hboth := congrArg List.length h
    rw [List.length_map, List.length_map] at hboth
    exact hboth ▸ hlt
  have hentry := congrArg (fun l => l[b.toNat]?) h
  simp only [List.getElem?_map, List.getElem?_eq_getElem hlen, List.getElem?_eq_getElem hlt,
    List.getElem_range, Option.map_some, Option.some.injEq, UInt8.ofNat_toNat] at hentry
  have hbyte : (ofByte (e.byte b) : Word n).bits.toNat = (e.byte b).toNat := by
    show ((e.byte b).toBitVec.setWidth n).toNat = _
    have hpow : 2 ^ 8 ≤ 2 ^ n := Nat.pow_le_pow_right (by decide) hn
    rw [BitVec.toNat_setWidth, Nat.mod_eq_of_lt (Nat.lt_of_lt_of_le (e.byte b).toBitVec.isLt hpow)]
    rfl
  refine Word.ext (BitVec.eq_of_toNat_eq ?_)
  rw [toNat_shift_pow, hbyte, ← hentry, List.getD_eq_getElem _ _ hlen]

/-- The low end of the register and a byte, added and shifted at once. -/
theorem feed_eq (hn : 8 ≤ n) (poly : BitVec n) (v : Word n) (b i : UInt8)
    (h : (ofByte i : Word n) = low 8 (v + ofByte b)) :
    feed poly v b = (shift poly ^ 8) (ofByte i) + ⟨v.bits >>> 8⟩ := by
  have hbyte : (ofByte b : Word n).bits >>> 8 = 0#n := by
    refine BitVec.eq_of_getLsbD_eq fun j _ => ?_
    rw [BitVec.getLsbD_ushiftRight, getLsbD_ofByte hn,
      BitVec.getLsbD_of_ge _ _ (Nat.le_add_right 8 j), BitVec.getLsbD_zero]
  rw [feed, shift_pow_split, h, Word.bits_add, BitVec.ushiftRight_xor_distrib, hbyte, BitVec.xor_zero]

theorem word_crcLeStep {poly : BitVec n} {table : List (BitVec n)} (hn : 8 ≤ n)
    (h : TableOf .le poly table) (crc : BitVec n) (b : UInt8) :
    Endian.le.word (crcLeStep table crc b) = feed poly (Endian.le.word crc) (Endian.le.byte b) := by
  have hindex : ((crc ^^^ b.toBitVec.setWidth n) &&& 0xff).toNat
      = (⟨(crc ^^^ b.toBitVec.setWidth n).setWidth 8⟩ : UInt8).toNat := by
    have hpow : 2 ^ 8 ≤ 2 ^ n := Nat.pow_le_pow_right (by decide) hn
    have hmask : (0xff : BitVec n).toNat = 2 ^ 8 - 1 :=
      Nat.mod_eq_of_lt (show 0xff < 2 ^ n by omega)
    show _ = ((crc ^^^ b.toBitVec.setWidth n).setWidth 8).toNat
    rw [BitVec.toNat_and, hmask, Nat.and_two_pow_sub_one_eq_mod, BitVec.toNat_setWidth]
  rw [crcLeStep, hindex, Endian.word_xor, h]
  exact (feed_eq hn poly ⟨crc⟩ b ⟨(crc ^^^ b.toBitVec.setWidth n).setWidth 8⟩ rfl).symm

theorem word_crcBeStep {poly : BitVec n} {table : List (BitVec n)} (hn : 8 ≤ n)
    (h : TableOf .be poly table) (crc : BitVec n) (b : UInt8) :
    Endian.be.word (crcBeStep table crc b) = feed poly (Endian.be.word crc) (Endian.be.byte b) := by
  have hindex : (crc >>> (n - 8) ^^^ b.toBitVec.setWidth n).toNat
      = (⟨(crc >>> (n - 8)).setWidth 8 ^^^ b.toBitVec⟩ : UInt8).toNat := by
    have hhigh : crc.toNat >>> (n - 8) < 2 ^ 8 := by
      rw [Nat.shiftRight_eq_div_pow, Nat.div_lt_iff_lt_mul (Nat.two_pow_pos _), ← Nat.pow_add,
        Nat.add_sub_cancel' hn]
      exact crc.isLt
    have hlow : b.toBitVec.toNat < 2 ^ n :=
      Nat.lt_of_lt_of_le b.toBitVec.isLt (Nat.pow_le_pow_right (by decide) hn)
    show _ = ((crc >>> (n - 8)).setWidth 8 ^^^ b.toBitVec).toNat
    rw [BitVec.toNat_xor, BitVec.toNat_xor, BitVec.toNat_setWidth, BitVec.toNat_setWidth,
      BitVec.toNat_ushiftRight, Nat.mod_eq_of_lt hhigh, Nat.mod_eq_of_lt hlow]
  rw [crcBeStep, hindex, Endian.word_xor, h]
  have hhigh : Endian.be.word (crc <<< 8) = ⟨(Endian.be.word crc).bits >>> 8⟩ :=
    Word.ext (reverse_shiftLeft crc 8)
  rw [hhigh]
  refine (feed_eq hn poly _ _ _ (Word.ext (BitVec.eq_of_getLsbD_eq fun j _ => ?_))).symm
  rw [getLsbD_ofByte hn, getLsbD_low, Word.bits_add, BitVec.getLsbD_xor, getLsbD_ofByte hn]
  show ((crc >>> (n - 8)).setWidth 8 ^^^ b.toBitVec).reverse.getLsbD j
    = (decide (j < 8) && (crc.reverse.getLsbD j ^^ b.toBitVec.reverse.getLsbD j))
  rw [reverse_xor, BitVec.getLsbD_xor, BitVec.getLsbD_reverse, BitVec.getLsbD_reverse,
    BitVec.getLsbD_reverse]
  by_cases hj : j < 8
  · rw [decide_eq_true hj, Bool.true_and, BitVec.getMsbD_eq_getLsbD, BitVec.getMsbD_eq_getLsbD crc,
      BitVec.getLsbD_setWidth, BitVec.getLsbD_ushiftRight, decide_eq_true hj,
      decide_eq_true (show j < n by omega), decide_eq_true (show 8 - 1 - j < 8 by omega),
      show n - 8 + (8 - 1 - j) = n - 1 - j by omega]
    rfl
  · rw [decide_eq_false hj, Bool.false_and, BitVec.getMsbD_of_ge _ j (Nat.not_lt.mp hj),
      BitVec.getMsbD_of_ge _ j (Nat.not_lt.mp hj)]
    rfl

theorem word_crc8Step {e : Endian} {poly : BitVec 8} {table : List (BitVec 8)}
    (h : TableOf e poly table) (crc : BitVec 8) (b : UInt8) :
    e.word (crc8Step table crc b) = feed poly (e.word crc) (e.byte b) := by
  have hbyte (i : UInt8) : ofByte (e.byte i) = e.word i.toBitVec := by
    cases e <;> exact Word.ext (BitVec.setWidth_eq _)
  rw [crc8Step, feed, hbyte, ← Endian.word_xor]
  exact (h ⟨crc ^^^ b.toBitVec⟩).trans (congrArg _ (hbyte ⟨crc ^^^ b.toBitVec⟩))

theorem isRegister_of_step {e : Endian} {poly : BitVec n} {step : BitVec n → UInt8 → BitVec n}
    (h : ∀ crc b, e.word (step crc b) = feed poly (e.word crc) (e.byte b)) :
    IsRegister e poly fun crc buf => ~~~ buf.foldl step (~~~ crc) := by
  intro crc buf
  rw [BitVec.not_not, List.foldl_map]
  exact (List.foldl_hom e.word fun crc b => (h crc b).symm).symm

/-! ## The six functions -/

theorem espRomCrc8Le_register : IsRegister .le 0xe0 espRomCrc8Le :=
  isRegister_of_step (word_crc8Step (tableOf_of_toNat (Nat.le_refl 8) (by decide +kernel)))

theorem espRomCrc8Be_register : IsRegister .be 0xe0 espRomCrc8Be :=
  isRegister_of_step (word_crc8Step (tableOf_of_toNat (Nat.le_refl 8) (by decide +kernel)))

theorem espRomCrc16Le_register :
    IsRegister .le crc16Poly fun crc buf => (espRomCrc16Le ⟨crc⟩ buf).toBitVec := by
  intro crc buf
  show word (~~~ espRomCrc16Le ⟨crc⟩ buf) = (buf.map id).foldl (feed crc16Poly) (word (~~~ ⟨crc⟩))
  rw [espRomCrc16Le, UInt16.not_not, List.map_id]
  exact (List.foldl_hom word fun crc b => (word_crc16LeStep crc b).symm).symm

theorem espRomCrc16Be_register : IsRegister .be crc16Poly espRomCrc16Be :=
  isRegister_of_step (word_crcBeStep (by decide) (tableOf_of_toNat (by decide) (by decide +kernel)))

theorem espRomCrc32Le_register : IsRegister .le 0xedb88320 espRomCrc32Le :=
  isRegister_of_step (word_crcLeStep (by decide) (tableOf_of_toNat (by decide) (by decide +kernel)))

theorem espRomCrc32Be_register : IsRegister .be 0xedb88320 espRomCrc32Be :=
  isRegister_of_step (word_crcBeStep (by decide) (tableOf_of_toNat (by decide) (by decide +kernel)))

/-! ## What they compute -/

/-- The documentation of a function: the divisor, and buffers that come in pieces. -/
structure Divides (e : Endian) (divisor : (ZMod 2)[X])
    (f : BitVec n → List UInt8 → BitVec n) : Prop where
  remainder : ∀ crc buf, value (e.word (~~~ f crc buf))
    = (X ^ (8 * buf.length) * value (e.word (~~~ crc)) + X ^ n * streamValue (buf.map e.byte)) %ₘ divisor
  continues : ∀ crc buf buf', f (f crc buf) buf' = f crc (buf ++ buf')

theorem IsRegister.divides {e : Endian} {poly : BitVec n} {divisor : (ZMod 2)[X]}
    {f : BitVec n → List UInt8 → BitVec n} (h : IsRegister e poly f) (hn : 8 ≤ n)
    (hdivisor : generator poly = divisor) : Divides e divisor f where
  remainder crc buf := by
    rw [h, value_foldl_feed poly hn, List.length_map, hdivisor]
  continues crc buf buf' := by
    refine BitVec.not_inj.mp (e.word_injective ?_)
    rw [h, h, h, List.map_append, List.foldl_append]

theorem generator_crc8 : generator (0xe0 : BitVec 8) = X ^ 8 + X ^ 2 + X + 1 := by
  rw [generator, value_eq_sum]
  simp [Finset.sum_range_succ]
  ring

theorem generator_crc16 : generator crc16Poly = X ^ 16 + X ^ 12 + X ^ 5 + 1 := by
  rw [generator, value_eq_sum]
  simp [Finset.sum_range_succ, crc16Poly]
  ring

theorem generator_crc32 : generator (0xedb88320 : BitVec 32)
    = X ^ 32 + X ^ 26 + X ^ 23 + X ^ 22 + X ^ 16 + X ^ 12 + X ^ 11 + X ^ 10 + X ^ 8 + X ^ 7 + X ^ 5
      + X ^ 4 + X ^ 2 + X + 1 := by
  rw [generator, value_eq_sum]
  simp [Finset.sum_range_succ]
  ring

/--
**The functions compute what the header says.**

Each takes the remainder of the message by the documented polynomial, in the order of
its name, and goes on where an earlier call has stopped.
-/
theorem rom_crcs_divide :
    Divides .le (X ^ 8 + X ^ 2 + X + 1) espRomCrc8Le
    ∧ Divides .be (X ^ 8 + X ^ 2 + X + 1) espRomCrc8Be
    ∧ Divides .le (X ^ 16 + X ^ 12 + X ^ 5 + 1)
        (fun crc buf => (espRomCrc16Le ⟨crc⟩ buf).toBitVec)
    ∧ Divides .be (X ^ 16 + X ^ 12 + X ^ 5 + 1) espRomCrc16Be
    ∧ Divides .le (X ^ 32 + X ^ 26 + X ^ 23 + X ^ 22 + X ^ 16 + X ^ 12 + X ^ 11 + X ^ 10 + X ^ 8
        + X ^ 7 + X ^ 5 + X ^ 4 + X ^ 2 + X + 1) espRomCrc32Le
    ∧ Divides .be (X ^ 32 + X ^ 26 + X ^ 23 + X ^ 22 + X ^ 16 + X ^ 12 + X ^ 11 + X ^ 10 + X ^ 8
        + X ^ 7 + X ^ 5 + X ^ 4 + X ^ 2 + X + 1) espRomCrc32Be :=
  ⟨espRomCrc8Le_register.divides (by decide) generator_crc8,
    espRomCrc8Be_register.divides (by decide) generator_crc8,
    espRomCrc16Le_register.divides (by decide) generator_crc16,
    espRomCrc16Be_register.divides (by decide) generator_crc16,
    espRomCrc32Le_register.divides (by decide) generator_crc32,
    espRomCrc32Be_register.divides (by decide) generator_crc32⟩

/-- Two functions that keep one register, the one in the mirror of the other. -/
def Mirrored (le be : BitVec n → List UInt8 → BitVec n) : Prop :=
  ∀ crc buf, (be crc buf).reverse = le crc.reverse (buf.map mirror)

theorem reverse_not (a : BitVec n) : (~~~ a).reverse = ~~~ a.reverse := by
  refine BitVec.eq_of_getLsbD_eq fun i hi => ?_
  rw [BitVec.getLsbD_reverse, BitVec.getLsbD_not, BitVec.getLsbD_reverse, BitVec.getMsbD_not]

theorem IsRegister.mirrored {poly : BitVec n} {le be : BitVec n → List UInt8 → BitVec n}
    (hle : IsRegister .le poly le) (hbe : IsRegister .be poly be) : Mirrored le be := by
  intro crc buf
  have hsame : (⟨(~~~ be crc buf).reverse⟩ : Word n) = ⟨~~~ le crc.reverse (buf.map mirror)⟩ := by
    calc (⟨(~~~ be crc buf).reverse⟩ : Word n)
        = (buf.map mirror).foldl (feed poly) ⟨(~~~ crc).reverse⟩ := hbe crc buf
      _ = ((buf.map mirror).map id).foldl (feed poly) ⟨~~~ crc.reverse⟩ := by
          rw [List.map_id, reverse_not]
      _ = ⟨~~~ le crc.reverse (buf.map mirror)⟩ := (hle crc.reverse (buf.map mirror)).symm
  have hbits := congrArg Word.bits hsame
  rw [reverse_not] at hbits
  exact BitVec.not_inj.mp hbits

/--
**Big-endian is little-endian in the mirror.**

In each width the two functions take mirrored checksums and bytes to mirrored checksums.
-/
theorem rom_crcs_mirrored :
    Mirrored espRomCrc8Le espRomCrc8Be
    ∧ Mirrored (fun crc buf => (espRomCrc16Le ⟨crc⟩ buf).toBitVec) espRomCrc16Be
    ∧ Mirrored espRomCrc32Le espRomCrc32Be :=
  ⟨espRomCrc8Le_register.mirrored espRomCrc8Be_register,
    espRomCrc16Le_register.mirrored espRomCrc16Be_register,
    espRomCrc32Le_register.mirrored espRomCrc32Be_register⟩

/-! ## What they see -/

/-- Messages of one length that differ only within as many bits as the register has. -/
def SeesBursts (e : Endian) (f : BitVec n → List UInt8 → BitVec n) : Prop :=
  ∀ crc buf buf', buf'.length = buf.length → buf ≠ buf' →
    Burst n (buf.map e.byte) (buf'.map e.byte) → f crc buf ≠ f crc buf'

theorem IsRegister.seesBursts {e : Endian} {poly : BitVec (n + 1)}
    {f : BitVec (n + 1) → List UInt8 → BitVec (n + 1)} (h : IsRegister e poly f) (hn : 8 ≤ n + 1)
    (htop : poly.getLsbD n = true) : SeesBursts e f := by
  intro crc buf buf' hlen hne hburst heq
  have hlen' : (buf'.map e.byte).length = (buf.map e.byte).length := by
    rw [List.length_map, List.length_map, hlen]
  have hne' : buf.map e.byte ≠ buf'.map e.byte := fun hmap =>
    hne (List.map_injective_iff.mpr e.byte_injective hmap)
  refine foldl_feed_ne htop hn hlen' hne' hburst (e.word (~~~ crc)) ?_
  rw [← h, ← h, heq]

/--
**Bursts are seen.**

None of the six functions gives one checksum to two messages of one length that differ,
but only within as many bits in a row as the checksum has.
-/
theorem rom_crcs_see_bursts :
    SeesBursts .le espRomCrc8Le ∧ SeesBursts .be espRomCrc8Be
    ∧ SeesBursts .le (fun crc buf => (espRomCrc16Le ⟨crc⟩ buf).toBitVec)
    ∧ SeesBursts .be espRomCrc16Be
    ∧ SeesBursts .le espRomCrc32Le ∧ SeesBursts .be espRomCrc32Be :=
  ⟨espRomCrc8Le_register.seesBursts (by decide) rfl,
    espRomCrc8Be_register.seesBursts (by decide) rfl,
    espRomCrc16Le_register.seesBursts (by decide) rfl,
    espRomCrc16Be_register.seesBursts (by decide) rfl,
    espRomCrc32Le_register.seesBursts (by decide) rfl,
    espRomCrc32Be_register.seesBursts (by decide) rfl⟩

/-! ## The two values that are shown -/

/-- A body as one polynomial: the data, and behind it the complement of the field. -/
noncomputable def codeword (body : List UInt8) : (ZMod 2)[X] :=
  X ^ 16 * streamValue (clearCrc body) + value (word (~~~ crcField body))

theorem value_espRomCrc16Le (m : List UInt8) :
    value (word (~~~ espRomCrc16Le 0xffff m)) = (X ^ 16 * streamValue m) %ₘ generator crc16Poly := by
  have hzero : value (word (~~~ 0xffff)) = 0 := value.map_zero
  have hremainder := (espRomCrc16Le_register.divides (by decide) rfl).remainder 0xffff m
  have hsame : (X ^ (8 * m.length) * value (word (~~~ 0xffff)) + X ^ 16 * streamValue (m.map id))
      = X ^ 16 * streamValue m := by
    rw [hzero, mul_zero, zero_add, List.map_id]
  rw [← hsame]
  exact hremainder

/--
**What the comparison tests is a division.**

The two values `print_packet` shows for a body are the same if and only if the documented
polynomial divides that of the body with its field behind the data.
-/
theorem shown_agree_iff {body : List UInt8} (hmin : 10 ≤ body.length)
    (hmax : body.length < 0x100000000) {r : Report} (hr : Shows body r) :
    r.embedded = r.calculated ↔ X ^ 16 + X ^ 12 + X ^ 5 + 1 ∣ codeword body := by
  obtain ⟨hembedded, hcalculated⟩ := hr.fields hmin hmax
  have hvalue : crcField body = espRomCrc16Le 0xffff (clearCrc body)
      ↔ value (word (~~~ crcField body)) = value (word (~~~ espRomCrc16Le 0xffff (clearCrc body))) := by
    refine ⟨fun h => by rw [h], fun h => ?_⟩
    have hbits := congrArg Word.bits (value_injective h)
    exact UInt16.not_inj.mp (UInt16.toBitVec_inj.mp hbits)
  rw [hembedded, hcalculated, hvalue, value_espRomCrc16Le, value_eq_modByMonic_iff, generator_crc16,
    codeword]

/-- **The polynomial of a body with its checksum is a multiple.** -/
theorem goodBody_divides : X ^ 16 + X ^ 12 + X ^ 5 + 1 ∣ codeword goodBody := by
  have hframe : IsFrame goodBody (frameOf 0 goodBody) := frameOf_isFrame (by decide) (by decide)
  have hcrc : crcField goodBody = espRomCrc16Le 0xffff (clearCrc goodBody) := by decide +kernel
  obtain ⟨r, _, hshows⟩ := exists_shows hframe (by decide) (by decide)
  obtain ⟨hembedded, hcalculated⟩ := hshows.fields (by decide) (by decide)
  refine (shown_agree_iff (by decide) (by decide) hshows).mp ?_
  rw [hembedded, hcalculated, hcrc]

/-! ## Bursts that strike a packet -/

theorem crcField_congr {b b' : List UInt8} (h : ∀ k, InField k → bitAt b k = bitAt b' k) :
    crcField b = crcField b' := by
  refine UInt16.toBitVec_inj.mp (BitVec.eq_of_getLsbD_eq fun j hj => ?_)
  rw [getLsbD_crcField b hj, getLsbD_crcField b' hj]
  exact h (32 + j) ⟨Nat.le_add_right 32 j, Nat.add_lt_add_left hj 32⟩

theorem clearCrc_congr {b b' : List UInt8} (hmin : 6 ≤ b.length) (hlen : b'.length = b.length)
    (h : ∀ k, ¬ InField k → bitAt b k = bitAt b' k) : clearCrc b = clearCrc b' := by
  refine eq_of_bitAt ?_ fun k _ => ?_
  · rw [clearCrc_length hmin, clearCrc_length (hlen ▸ hmin), hlen]
  · rw [bitAt_clearCrc hmin, bitAt_clearCrc (hlen ▸ hmin)]
    by_cases hk : InField k
    · rw [if_pos hk, if_pos hk]
    · rw [if_neg hk, if_neg hk, h k hk]

/-- The field and what is left without it are all there is of a body. -/
theorem eq_of_crcField_clearCrc {b b' : List UInt8} (hmin : 6 ≤ b.length)
    (hlen : b'.length = b.length) (hfield : crcField b = crcField b')
    (hclear : clearCrc b = clearCrc b') : b = b' := by
  refine eq_of_bitAt hlen fun k _ => ?_
  by_cases hk : InField k
  · have hj : k - 32 < 16 := Nat.sub_lt_left_of_lt_add hk.1 hk.2
    rw [← Nat.add_sub_cancel' hk.1, ← getLsbD_crcField b hj, hfield, getLsbD_crcField b' hj]
  · have hbit := congrArg (fun m => bitAt m k) hclear
    simpa only [bitAt_clearCrc hmin, bitAt_clearCrc (hlen ▸ hmin), if_neg hk] using hbit

/--
**A burst within the data, or within the field, is seen.**

Of two bodies of one length, the first with the checksum it should have: if they differ,
but only within sixteen bits in a row, and these are all in the `crc` field or all
outside of it, the two values shown for the second are different.
-/
theorem burst_shown {b b' : List UInt8} (hmin : 10 ≤ b.length) (hmax : b.length < 0x100000000)
    (hcrc : crcField b = espRomCrc16Le 0xffff (clearCrc b)) (hlen : b'.length = b.length)
    (hne : b ≠ b') (hburst : Burst 16 b b')
    (hside : (∀ k, bitAt b k ≠ bitAt b' k → InField k) ∨ ∀ k, bitAt b k ≠ bitAt b' k → ¬ InField k)
    {r : Report} (hr : Shows b' r) : r.embedded ≠ r.calculated := by
  obtain ⟨hembedded, hcalculated⟩ := hr.fields (by omega) (by omega)
  have hsix : 6 ≤ b.length := by omega
  rw [hembedded, hcalculated]
  intro hsame
  rcases hside with hin | hout
  · have hclear : clearCrc b = clearCrc b' :=
      clearCrc_congr hsix hlen fun k hk => by_contra fun hk' => hk (hin k hk')
    refine hne (eq_of_crcField_clearCrc hsix hlen ?_ hclear)
    rw [hcrc, hclear, hsame]
  · have hfield : crcField b = crcField b' :=
      crcField_congr fun k hk => by_contra fun hk' => hout k hk' hk
    have hclear : clearCrc b ≠ clearCrc b' := fun h =>
      hne (eq_of_crcField_clearCrc hsix hlen hfield h)
    have hclen : (clearCrc b').length = (clearCrc b).length := by
      rw [clearCrc_length hsix, clearCrc_length (hlen ▸ hsix), hlen]
    obtain ⟨first, hfirst⟩ := hburst
    have hcburst : Burst 16 ((clearCrc b).map Endian.le.byte) ((clearCrc b').map Endian.le.byte) := by
      refine ⟨first, fun k hk => hfirst k fun heq => hk ?_⟩
      show bitAt ((clearCrc b).map id) k = bitAt ((clearCrc b').map id) k
      rw [List.map_id, List.map_id, bitAt_clearCrc hsix, bitAt_clearCrc (hlen ▸ hsix), heq]
    refine espRomCrc16Le_register.seesBursts (by decide) rfl 0xffff _ _ hclen hclear hcburst ?_
    exact congrArg UInt16.toBitVec (hcrc.symm.trans (hfield.trans hsame))

/-- The body of `goodBody`, with bits of three bytes in a row turned over. -/
def burstBody : List UInt8 := [1, 0, 7, 0, 0x01, 0x59, 0x44, 0xb3, 0xdd, 0x19, 0x68, 0x69]

/-- **A frame whose data was hit by a burst.** -/
theorem burstBody_shown :
    ∃ r, printPacket ((Buf.fill maxPacketLen 0).recvInto (frameOf 0 burstBody))
        (fun _ => .inPlace fun _ => 0) (Heap.empty.malloc 0 [0] List.not_mem_nil) 0
          = some (.report r) ∧ r.embedded ≠ r.calculated := by
  have hframe : IsFrame burstBody (frameOf 0 burstBody) := frameOf_isFrame (by decide) (by decide)
  have hcrc : crcField goodBody = espRomCrc16Le 0xffff (clearCrc goodBody) := by decide +kernel
  have hlen : burstBody.length = goodBody.length := rfl
  have hinside : ∀ k < 96, bitAt goodBody k ≠ bitAt burstBody k → 63 ≤ k ∧ k < 63 + 16 := by
    decide +kernel
  have hdiff : ∀ k, bitAt goodBody k ≠ bitAt burstBody k → 63 ≤ k ∧ k < 63 + 16 := by
    intro k hk
    rcases Nat.lt_or_ge k 96 with hlt | hge
    · exact hinside k hlt hk
    · exact absurd ((bitAt_of_ge hge).trans (bitAt_of_ge hge).symm) hk
  obtain ⟨r, hr, hshows⟩ := exists_shows hframe (by decide) (by decide)
  refine ⟨r, hr, burst_shown (by decide) (by decide) hcrc hlen (by decide) ⟨63, hdiff⟩ (.inr ?_) hshows⟩
  intro k hk hin
  have := hdiff k hk
  have := hin.2
  omega

end EspNowGateway.Proof
