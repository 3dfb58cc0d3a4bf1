import Mathlib.Data.List.GetD
import Mathlib.RingTheory.AdjoinRoot
import EspNowGateway.Lib.ShiftRegister

/-!
# Registers divide

Read a word as a polynomial over the field of two elements, its low bit as the highest
coefficient. A shift then multiplies by `X` and takes the remainder modulo the
polynomial whose lower terms the feedback holds. What a message leaves in a register
is therefore the remainder of one division (`value_foldl_feed`).

A register also tells any two messages apart that differ only within as many bits as it
has (`foldl_feed_ne`): until the first bit falls out, nothing can cancel.
-/

namespace ShiftRegister

open Polynomial (X C monomial)
open scoped Polynomial
open Word

variable {n : Nat}

/-! ## Words as polynomials -/

/-- A word as a polynomial, the low bit as the highest coefficient. -/
noncomputable def value : Word n →+ (ZMod 2)[X] :=
  ∑ i ∈ Finset.range n, (monomial (n - 1 - i)).toAddMonoidHom.comp (Word.coeff i)

theorem value_apply (v : Word n) :
    value v = ∑ i ∈ Finset.range n, monomial (n - 1 - i) (Word.coeff i v) := by
  rw [value, AddMonoidHom.finsetSum_apply]
  rfl

theorem value_eq_sum (v : Word n) :
    value v = ∑ i ∈ Finset.range n, if v.bits.getLsbD i then X ^ (n - 1 - i) else 0 := by
  rw [value_apply]
  refine Finset.sum_congr rfl fun i _ => ?_
  rw [coeff_apply]
  cases v.bits.getLsbD i
  · exact map_zero _
  · exact Polynomial.monomial_one_right_eq_X_pow _

theorem coeff_value (v : Word n) (j : Nat) :
    (value v).coeff j = if j < n then Word.coeff (n - 1 - j) v else 0 := by
  rw [value_apply, Polynomial.finsetSum_coeff]
  by_cases hj : j < n
  · have hmem : n - 1 - j ∈ Finset.range n := Finset.mem_range.mpr (by omega)
    rw [if_pos hj, Finset.sum_eq_single_of_mem _ hmem fun i hi hne => ?_]
    · rw [Polynomial.coeff_monomial, if_pos (by omega)]
    · have hi := Finset.mem_range.mp hi
      rw [Polynomial.coeff_monomial, if_neg (by omega)]
  · refine (Finset.sum_eq_zero fun i hi => ?_).trans (if_neg hj).symm
    have hi := Finset.mem_range.mp hi
    rw [Polynomial.coeff_monomial, if_neg (by omega)]

theorem degree_value_lt (v : Word n) : (value v).degree < n := by
  refine (Polynomial.degree_lt_iff_coeff_zero _ n).mpr fun j hj => ?_
  rw [coeff_value, if_neg (Nat.not_lt.mpr hj)]

theorem value_injective : Function.Injective (value : Word n → (ZMod 2)[X]) := by
  refine (injective_iff_map_eq_zero value).mpr fun v hv => eq_zero_of_coeff fun i hi => ?_
  have hcoeff := coeff_value v (n - 1 - i)
  rw [hv, Polynomial.coeff_zero, if_pos (by omega), show n - 1 - (n - 1 - i) = i by omega] at hcoeff
  exact hcoeff.symm

theorem value_add_self (v : Word n) : value v + value v = 0 := by
  rw [← map_add, add_self, map_zero]

theorem value_unit_zero (h : 0 < n) : value (unit 0 : Word n) = X ^ (n - 1) := by
  refine Polynomial.ext fun j => ?_
  rw [coeff_value, Polynomial.coeff_X_pow, coeff_unit h]
  by_cases hj : j = n - 1
  · rw [if_pos hj, if_pos (by omega), if_pos (by omega)]
  · rw [if_neg hj]
    by_cases hlt : j < n
    · rw [if_pos hlt, if_neg (by omega)]
    · exact if_neg hlt

/-- The divisor: the term that falls out, and those that the feedback adds. -/
noncomputable def generator (poly : BitVec n) : (ZMod 2)[X] := X ^ n + value ⟨poly⟩

theorem generator_monic (poly : BitVec n) : (generator poly).Monic :=
  Polynomial.monic_X_pow_add (degree_value_lt _)

theorem degree_generator (poly : BitVec n) : (generator poly).degree = n := by
  have hlt : (value ⟨poly⟩).degree < (X ^ n : (ZMod 2)[X]).degree := by
    rw [Polynomial.degree_X_pow]
    exact degree_value_lt _
  rw [generator, Polynomial.degree_add_eq_left_of_degree_lt hlt, Polynomial.degree_X_pow]

theorem degree_value_lt_generator (poly : BitVec n) (v : Word n) :
    (value v).degree < (generator poly).degree := by
  rw [degree_generator]
  exact degree_value_lt v

theorem value_half (v : Word n) :
    value (half v) + C (Word.coeff 0 v) * X ^ n = X * value v := by
  refine Polynomial.ext fun j => ?_
  rw [Polynomial.coeff_add, Polynomial.coeff_C_mul, Polynomial.coeff_X_pow, coeff_value, coeff_half]
  have htop : Word.coeff n v = 0 := coeff_eq_zero.mpr (BitVec.getLsbD_of_ge _ _ (Nat.le_refl n))
  rcases j with _ | j
  · rw [Polynomial.coeff_X_mul_zero]
    rcases n with _ | n
    · rw [if_neg (Nat.lt_irrefl 0), htop, zero_mul, zero_add]
    · rw [if_pos (Nat.succ_pos n), if_neg (Nat.succ_ne_zero n).symm, mul_zero, add_zero]
      exact htop
  · rw [Polynomial.coeff_X_mul, coeff_value]
    rcases Nat.lt_trichotomy (j + 1) n with hlt | heq | hgt
    · rw [if_pos hlt, if_neg (Nat.ne_of_lt hlt), if_pos (Nat.lt_of_succ_lt hlt), mul_zero, add_zero,
        show n - 1 - (j + 1) + 1 = n - 1 - j by omega]
    · rw [if_neg (Nat.not_lt.mpr (Nat.le_of_eq heq.symm)), if_pos heq, if_pos (by omega), mul_one,
        zero_add, show n - 1 - j = 0 by omega]
    · rw [if_neg (Nat.not_lt.mpr (Nat.le_of_lt hgt)), if_neg (Nat.ne_of_gt hgt), if_neg (by omega),
        mul_zero, zero_add]

theorem value_feedback (poly : BitVec n) (v : Word n) :
    value (feedback poly v) = C (Word.coeff 0 v) * value ⟨poly⟩ := by
  rw [map_feedback, coeff_apply]
  cases v.bits.getLsbD 0
  · exact (zero_mul _).symm.trans (congrArg (· * _) C.map_zero.symm)
  · exact (one_mul _).symm.trans (congrArg (· * _) C.map_one.symm)

/-- A shift multiplies by `X`, and takes away the divisor when the bit fell out. -/
theorem value_shift (poly : BitVec n) (v : Word n) :
    value (shift poly v) + C (Word.coeff 0 v) * generator poly = X * value v := by
  calc value (shift poly v) + C (Word.coeff 0 v) * generator poly
      = value (half v) + C (Word.coeff 0 v) * X ^ n
          + (value (feedback poly v) + value (feedback poly v)) := by
        rw [shift_apply, map_add, generator, mul_add, ← value_feedback]
        ring
    _ = X * value v := by rw [value_add_self, add_zero, value_half]

/-! ## Remainders -/

/-- A word, modulo the divisor. -/
noncomputable def residue (poly : BitVec n) (v : Word n) : AdjoinRoot (generator poly) :=
  AdjoinRoot.mk (generator poly) (value v)

theorem residue_shift (poly : BitVec n) (v : Word n) :
    residue poly (shift poly v) = AdjoinRoot.root (generator poly) * residue poly v := by
  rw [residue, residue, ← AdjoinRoot.mk_X, ← map_mul, ← value_shift, map_add, map_mul,
    AdjoinRoot.mk_self, mul_zero, add_zero]

theorem residue_shift_pow (poly : BitVec n) (v : Word n) (m : Nat) :
    residue poly ((shift poly ^ m) v) = AdjoinRoot.root (generator poly) ^ m * residue poly v := by
  induction m with
  | zero => exact (one_mul _).symm
  | succ m ih => rw [pow_succ_apply', residue_shift, ih, pow_succ', mul_assoc]

/-- A word is the remainder of whatever it is equal to modulo the divisor. -/
theorem value_eq_modByMonic {poly : BitVec n} {v : Word n} {p : (ZMod 2)[X]}
    (h : residue poly v = AdjoinRoot.mk (generator poly) p) : value v = p %ₘ generator poly := by
  obtain ⟨q, hq⟩ := AdjoinRoot.mk_eq_mk.mp h.symm
  have hsum : value v + generator poly * q = p := by rw [← hq, add_sub_cancel]
  exact (Polynomial.div_modByMonic_unique q (value v) (generator_monic poly)
    ⟨hsum, degree_value_lt_generator poly v⟩).2.symm

/-- A word is a remainder just when it takes what it is the remainder of to a multiple. -/
theorem value_eq_modByMonic_iff {poly : BitVec n} {v : Word n} {p : (ZMod 2)[X]} :
    value v = p %ₘ generator poly ↔ generator poly ∣ p + value v := by
  rw [← Polynomial.modByMonic_eq_zero_iff_dvd (generator_monic poly), Polynomial.add_modByMonic,
    (Polynomial.modByMonic_eq_self_iff (generator_monic poly)).mpr (degree_value_lt_generator poly v)]
  refine ⟨fun h => by rw [← h, value_add_self], fun h => ?_⟩
  have hsum := congrArg (· + value v) h
  simp only [add_assoc, value_add_self, add_zero, zero_add] at hsum
  exact hsum.symm

/-- A message as a polynomial, the first bit as the highest coefficient. -/
noncomputable def streamValue (m : List UInt8) : (ZMod 2)[X] :=
  ∑ k ∈ Finset.range (8 * m.length), if bitAt m k then X ^ (8 * m.length - 1 - k) else 0

/-- **What a message leaves in a register is the remainder of a division.** -/
theorem value_foldl_feed (poly : BitVec n) (hn : 8 ≤ n) (m : List UInt8) (v : Word n) :
    value (m.foldl (feed poly) v)
      = (X ^ (8 * m.length) * value v + X ^ n * streamValue m) %ₘ generator poly := by
  refine value_eq_modByMonic ?_
  have hunit : residue poly (unit 0) = AdjoinRoot.root (generator poly) ^ (n - 1) := by
    rw [residue, value_unit_zero (by omega), map_pow, AdjoinRoot.mk_X]
  have hbit : ∀ k ∈ Finset.range (8 * m.length),
      residue poly (if bitAt m k then (shift poly ^ (8 * m.length - k)) (unit 0) else 0)
        = AdjoinRoot.mk (generator poly)
            (X ^ n * if bitAt m k then X ^ (8 * m.length - 1 - k) else 0) := by
    intro k hk
    have hk := Finset.mem_range.mp hk
    cases bitAt m k
    · show AdjoinRoot.mk _ (value 0) = AdjoinRoot.mk _ (X ^ n * 0)
      rw [map_zero, mul_zero]
    · show residue poly ((shift poly ^ (8 * m.length - k)) (unit 0))
        = AdjoinRoot.mk _ (X ^ n * X ^ (8 * m.length - 1 - k))
      rw [residue_shift_pow, hunit, ← pow_add, ← pow_add, map_pow, AdjoinRoot.mk_X,
        show 8 * m.length - k + (n - 1) = n + (8 * m.length - 1 - k) by omega]
  have hsum (w : Nat → Word n) : residue poly (∑ k ∈ Finset.range (8 * m.length), w k)
      = ∑ k ∈ Finset.range (8 * m.length), residue poly (w k) := by
    rw [residue, map_sum, map_sum]
    rfl
  calc residue poly (m.foldl (feed poly) v)
      = residue poly ((shift poly ^ (8 * m.length)) v)
          + ∑ k ∈ Finset.range (8 * m.length), residue poly
              (if bitAt m k then (shift poly ^ (8 * m.length - k)) (unit 0) else 0) := by
        rw [← hsum, foldl_feed poly hn, residue, map_add, map_add]
        rfl
    _ = AdjoinRoot.mk (generator poly) (X ^ (8 * m.length) * value v + X ^ n * streamValue m) := by
        rw [Finset.sum_congr rfl hbit, ← map_sum, ← Finset.mul_sum, residue_shift_pow, map_add,
          map_mul, map_pow, AdjoinRoot.mk_X]
        rfl

/-! ## Bursts -/

/-- Two messages differ only within `width` bits in a row. -/
def Burst (width : Nat) (m m' : List UInt8) : Prop :=
  ∃ first, ∀ k, bitAt m k ≠ bitAt m' k → first ≤ k ∧ k < first + width

theorem bitAt_of_ge {m : List UInt8} {k : Nat} (h : 8 * m.length ≤ k) : bitAt m k = false := by
  rw [bitAt, List.getD_eq_default _ _ (show m.length ≤ k / 8 by omega)]
  exact BitVec.getLsbD_zero

theorem eq_of_bitAt {m m' : List UInt8} (hlen : m'.length = m.length)
    (h : ∀ k, k < 8 * m.length → bitAt m k = bitAt m' k) : m = m' := by
  refine List.ext_getElem hlen.symm fun i hi hi' => ?_
  refine UInt8.toBitVec_inj.mp (BitVec.eq_of_getLsbD_eq fun j hj => ?_)
  have hbit := h (8 * i + j) (by omega)
  rwa [bitAt, bitAt, show (8 * i + j) / 8 = i by omega, show (8 * i + j) % 8 = j by omega,
    List.getD_eq_getElem _ _ hi, List.getD_eq_getElem _ _ hi'] at hbit

/-- The sum of what two messages leave: one term for each bit in which they differ. -/
theorem foldl_feed_add (poly : BitVec n) (hn : 8 ≤ n) {m m' : List UInt8}
    (hlen : m'.length = m.length) (v : Word n) :
    m.foldl (feed poly) v + m'.foldl (feed poly) v
      = ∑ k ∈ (Finset.range (8 * m.length)).filter fun k => bitAt m k ≠ bitAt m' k,
          (shift poly ^ (8 * m.length - k)) (unit 0) := by
  rw [foldl_feed poly hn m, foldl_feed poly hn m', hlen, add_add_add_comm, add_self, zero_add,
    ← Finset.sum_add_distrib, Finset.sum_filter]
  refine Finset.sum_congr rfl fun k _ => ?_
  rcases bitAt m k <;> rcases bitAt m' k
  · exact add_zero _
  · exact zero_add _
  · exact add_zero _
  · exact add_self _

/-- Units at places of their own do not cancel. -/
theorem sum_unit_ne_zero {first : Nat} {errors : Finset Nat}
    (h : ∀ k ∈ errors, first ≤ k ∧ k < first + n) (hne : errors.Nonempty) :
    ∑ k ∈ errors, (unit (k - first) : Word n) ≠ 0 := by
  obtain ⟨e, he⟩ := hne
  intro hsum
  have hone : Word.coeff (e - first) (∑ k ∈ errors, (unit (k - first) : Word n)) = 1 := by
    rw [map_sum, Finset.sum_eq_single_of_mem e he fun k hk hke => ?_]
    · have := h e he
      rw [coeff_unit (by omega), if_pos rfl]
    · have := h e he
      have := h k hk
      rw [coeff_unit (by omega), if_neg (by omega)]
  rw [hsum, map_zero] at hone
  exact zero_ne_one hone

/-- **A burst is always seen**, when the feedback sets the top bit. -/
theorem foldl_feed_ne {poly : BitVec (n + 1)} (htop : poly.getLsbD n = true) (hn : 8 ≤ n + 1)
    {m m' : List UInt8} (hlen : m'.length = m.length) (hne : m ≠ m') (hburst : Burst (n + 1) m m')
    (v : Word (n + 1)) : m.foldl (feed poly) v ≠ m'.foldl (feed poly) v := by
  obtain ⟨first, hfirst⟩ := hburst
  have hmem : ∀ k ∈ (Finset.range (8 * m.length)).filter fun k => bitAt m k ≠ bitAt m' k,
      k < 8 * m.length ∧ first ≤ k ∧ k < first + (n + 1) := fun k hk =>
    ⟨Finset.mem_range.mp (Finset.mem_filter.mp hk).1, hfirst k (Finset.mem_filter.mp hk).2⟩
  intro heq
  have hsum := foldl_feed_add poly hn hlen v
  -- The bits that differ stand in the register at once, before the first of them falls out.
  have hpull : ∀ k ∈ (Finset.range (8 * m.length)).filter fun k => bitAt m k ≠ bitAt m' k,
      (shift poly ^ (8 * m.length - k)) (unit 0)
        = (shift poly ^ (8 * m.length - first)) (unit (k - first)) := by
    intro k hk
    have := hmem k hk
    rw [shift_pow_unit poly (show k - first < n + 1 by omega) (by omega),
      show 8 * m.length - first - (k - first) = 8 * m.length - k by omega]
  rw [heq, add_self, Finset.sum_congr rfl hpull, ← map_sum] at hsum
  have hinj : Function.Injective (shift poly ^ (8 * m.length - first)) := by
    rw [AddMonoid.End.coe_pow]
    exact (shift_injective htop).iterate _
  refine sum_unit_ne_zero (fun k hk => (hmem k hk).2) ?_
    ((injective_iff_map_eq_zero _).mp hinj _ hsum.symm)
  by_contra hempty
  refine hne (eq_of_bitAt hlen fun k hk => ?_)
  by_contra hk'
  exact hempty ⟨k, Finset.mem_filter.mpr ⟨Finset.mem_range.mpr hk, hk'⟩⟩

end ShiftRegister
