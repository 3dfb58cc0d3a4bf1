import Mathlib.Algebra.BigOperators.Group.Finset.Lemmas
import Mathlib.Algebra.BigOperators.Group.Finset.Piecewise
import Mathlib.Algebra.Group.Hom.End
import Mathlib.Algebra.Field.ZMod
import Mathlib.Algebra.Ring.Parity

/-!
# Shift registers with feedback

A register of `n` bits shifts to the right, and the bit that falls out decides whether
`poly` is added; addition is without carries. A shift is linear, so what a message
leaves in the register is the sum of what its set bits leave, each shifted as often as
there are bits behind it.

That answers which errors a checksum sees. `sum_pow_ne_zero` does not mention
registers: it is about a step that is linear and injective, keeps a parity, and takes
long to bring a word back.
-/

namespace ShiftRegister

/-! ## Powers of a step -/

section Powers

variable {V : Type} [AddCommGroup V] (step : AddMonoid.End V)

theorem pow_succ_apply (m : Nat) (v : V) : (step ^ (m + 1)) v = (step ^ m) (step v) := by
  rw [pow_succ, AddMonoid.End.coe_mul, Function.comp_apply]

theorem pow_succ_apply' (m : Nat) (v : V) : (step ^ (m + 1)) v = step ((step ^ m) v) := by
  rw [pow_succ', AddMonoid.End.coe_mul, Function.comp_apply]

theorem pow_add_apply (i j : Nat) (v : V) : (step ^ (i + j)) v = (step ^ i) ((step ^ j) v) := by
  rw [pow_add, AddMonoid.End.coe_mul, Function.comp_apply]

end Powers

/-! ## Words -/

/-- A register of `n` bits, as a vector over the field of two elements. -/
@[ext] structure Word (n : Nat) where
  bits : BitVec n
  deriving DecidableEq

variable {n : Nat}

namespace Word

instance : Zero (Word n) := ⟨⟨0#n⟩⟩

instance : Add (Word n) := ⟨fun u v => ⟨u.bits ^^^ v.bits⟩⟩

instance : Neg (Word n) := ⟨id⟩

theorem bits_zero : (0 : Word n).bits = 0#n := rfl

theorem bits_add (u v : Word n) : (u + v).bits = u.bits ^^^ v.bits := rfl

instance : AddCommGroup (Word n) where
  add_assoc u v w := Word.ext (BitVec.xor_assoc u.bits v.bits w.bits)
  zero_add u := Word.ext BitVec.zero_xor
  add_zero u := Word.ext BitVec.xor_zero
  nsmul := nsmulRec
  zsmul := zsmulRec
  neg_add_cancel u := Word.ext BitVec.xor_self
  add_comm u v := Word.ext (BitVec.xor_comm u.bits v.bits)

theorem add_self (v : Word n) : v + v = 0 := Word.ext BitVec.xor_self

/-- The bit at place `i`, zero from `n` on. -/
def coeff (i : Nat) : Word n →+ ZMod 2 where
  toFun v := if v.bits.getLsbD i then 1 else 0
  map_zero' := by rw [bits_zero, BitVec.getLsbD_zero]; rfl
  map_add' u v := by
    rw [bits_add, BitVec.getLsbD_xor]
    cases u.bits.getLsbD i <;> cases v.bits.getLsbD i <;> rfl

theorem coeff_apply (i : Nat) (v : Word n) : coeff i v = if v.bits.getLsbD i then 1 else 0 := rfl

theorem coeff_eq_zero {i : Nat} {v : Word n} : coeff i v = 0 ↔ v.bits.getLsbD i = false := by
  rw [coeff_apply]
  cases v.bits.getLsbD i
  · exact iff_of_true rfl rfl
  · exact iff_of_false one_ne_zero Bool.noConfusion

theorem eq_zero_of_coeff {v : Word n} (h : ∀ i, i < n → coeff i v = 0) : v = 0 := by
  refine Word.ext (BitVec.eq_of_getLsbD_eq fun i hi => ?_)
  rw [coeff_eq_zero.mp (h i hi), bits_zero, BitVec.getLsbD_zero]

/-- The word with just the bit at place `i`. -/
def unit (i : Nat) : Word n := ⟨BitVec.twoPow n i⟩

theorem coeff_unit {i : Nat} (h : i < n) (j : Nat) :
    coeff j (unit i : Word n) = if i = j then 1 else 0 := by
  rw [coeff_apply, unit, BitVec.getLsbD_twoPow, decide_eq_true h, Bool.true_and]
  by_cases hij : i = j <;> simp [hij]

/-- A word is the sum of its bits. -/
theorem eq_sum_unit (v : Word n) :
    v = ∑ i ∈ Finset.range n, if v.bits.getLsbD i then unit i else 0 := by
  refine sub_eq_zero.mp (eq_zero_of_coeff fun j hj => ?_)
  have hterm : ∀ i ∈ Finset.range n,
      coeff j (if v.bits.getLsbD i then unit i else 0 : Word n) = if i = j then coeff j v else 0 := by
    intro i hi
    have hcoeff := coeff_unit (Finset.mem_range.mp hi) j
    by_cases hij : i = j
    · subst hij
      rw [if_pos rfl, coeff_apply i v]
      cases v.bits.getLsbD i
      · exact map_zero _
      · exact hcoeff.trans (if_pos rfl)
    · rw [if_neg hij]
      cases v.bits.getLsbD i
      · exact map_zero _
      · exact hcoeff.trans (if_neg hij)
  rw [map_sub, map_sum, Finset.sum_congr rfl hterm, Finset.sum_ite_eq', if_pos (Finset.mem_range.mpr hj),
    sub_self]

/-- Whether the number of set bits is odd. -/
def parity : Word n →+ ZMod 2 := ∑ i ∈ Finset.range n, coeff i

theorem parity_apply (v : Word n) : parity v = ∑ i ∈ Finset.range n, coeff i v := by
  rw [parity, AddMonoidHom.finsetSum_apply]

end Word

/-! ## Shifts -/

open Word

/-- The bits of a word, one place to the right. -/
def half : Word n →+ Word n where
  toFun v := ⟨v.bits >>> 1⟩
  map_zero' := Word.ext (BitVec.zero_ushiftRight)
  map_add' u v := Word.ext (BitVec.ushiftRight_xor_distrib u.bits v.bits 1)

/-- What the bit that falls out adds. -/
def feedback (poly : BitVec n) : Word n →+ Word n where
  toFun v := if v.bits.getLsbD 0 then ⟨poly⟩ else 0
  map_zero' := by rw [bits_zero, BitVec.getLsbD_zero]; rfl
  map_add' u v := by
    rw [bits_add, BitVec.getLsbD_xor]
    cases u.bits.getLsbD 0 <;> cases v.bits.getLsbD 0
    · exact (add_zero _).symm
    · exact (zero_add _).symm
    · exact (add_zero _).symm
    · exact (add_self _).symm

/-- One shift. -/
def shift (poly : BitVec n) : AddMonoid.End (Word n) := half + feedback poly

theorem shift_apply (poly : BitVec n) (v : Word n) :
    shift poly v = half v + feedback poly v := rfl

theorem coeff_half (i : Nat) (v : Word n) : coeff i (half v) = coeff (i + 1) v := by
  rw [coeff_apply, coeff_apply]
  show (if (v.bits >>> 1).getLsbD i then _ else _) = _
  rw [BitVec.getLsbD_ushiftRight, Nat.add_comm]

/-- A shift by one place loses just the bit that falls out. -/
theorem parity_half (v : Word n) : parity (half v) + coeff 0 v = parity v := by
  have htop : coeff n v = 0 := coeff_eq_zero.mpr (BitVec.getLsbD_of_ge _ _ (Nat.le_refl n))
  rw [parity_apply, parity_apply, Finset.sum_congr rfl fun i _ => coeff_half i v,
    ← Finset.sum_range_succ' (fun i => coeff i v), Finset.sum_range_succ, htop, add_zero]

theorem map_feedback {M : Type} [AddCommMonoid M] (f : Word n →+ M) (poly : BitVec n) (v : Word n) :
    f (feedback poly v) = if v.bits.getLsbD 0 then f ⟨poly⟩ else 0 := by
  show f (if v.bits.getLsbD 0 then ⟨poly⟩ else 0) = _
  rw [apply_ite f, map_zero]

/-- With an odd feedback the bit that falls out is made up for. -/
theorem parity_shift {poly : BitVec n} (h : parity (⟨poly⟩ : Word n) = 1) (v : Word n) :
    parity (shift poly v) = parity v := by
  rw [shift_apply, map_add, map_feedback, h, ← coeff_apply, parity_half]

/-- When the feedback sets the top bit, that bit tells what fell out. -/
theorem shift_injective {poly : BitVec (n + 1)} (h : poly.getLsbD n = true) :
    Function.Injective (shift poly) := by
  refine (injective_iff_map_eq_zero (shift poly)).mpr fun v hv => ?_
  have htop : coeff (n + 1) v = 0 := coeff_eq_zero.mpr (BitVec.getLsbD_of_ge _ _ (Nat.le_refl _))
  have hpoly : coeff n (⟨poly⟩ : Word (n + 1)) = 1 := by rw [coeff_apply, h]; rfl
  have hzero : coeff 0 v = 0 := by
    have hn : coeff n (shift poly v) = 0 := by rw [hv, map_zero]
    rw [shift_apply, map_add, coeff_half, htop, zero_add, map_feedback, hpoly] at hn
    exact hn
  refine eq_zero_of_coeff fun i _ => ?_
  rcases i with _ | i
  · exact hzero
  · have hi : coeff i (shift poly v) = 0 := by rw [hv, map_zero]
    rw [shift_apply, map_add, coeff_half, map_feedback, coeff_eq_zero.mp hzero] at hi
    exact (add_zero _).symm.trans hi

/-! ## A bit on its way -/

theorem shift_of_even (poly : BitVec n) {v : Word n} (h : v.bits.getLsbD 0 = false) :
    shift poly v = half v := by
  rw [shift_apply]
  show half v + (if v.bits.getLsbD 0 then ⟨poly⟩ else 0) = half v
  rw [h]
  exact add_zero _

theorem half_unit_succ {i : Nat} (h : i + 1 < n) : half (unit (i + 1) : Word n) = unit i := by
  refine sub_eq_zero.mp (eq_zero_of_coeff fun j _ => ?_)
  rw [map_sub, coeff_half, coeff_unit h, coeff_unit (Nat.lt_of_succ_lt h), sub_eq_zero]
  exact if_congr Nat.succ_inj rfl rfl

/-- A bit moves down, place by place, until it falls out. -/
theorem shift_pow_unit (poly : BitVec n) {i m : Nat} (hn : i < n) (hm : i ≤ m) :
    (shift poly ^ m) (unit i) = (shift poly ^ (m - i)) (unit 0) := by
  induction i generalizing m with
  | zero => rfl
  | succ i ih =>
      obtain ⟨m, rfl⟩ := Nat.exists_eq_add_of_le' (Nat.lt_of_lt_of_le (Nat.succ_pos i) hm)
      have hbit : (unit (i + 1) : Word n).bits.getLsbD 0 = false :=
        coeff_eq_zero.mp ((coeff_unit hn 0).trans (if_neg (Nat.succ_ne_zero i)))
      rw [pow_succ_apply, shift_of_even poly hbit, half_unit_succ hn, ih (Nat.lt_of_succ_lt hn) (Nat.le_of_succ_le_succ hm),
        Nat.add_sub_add_right]

/-- What `m` bits leave, when they have all fallen out. -/
theorem shift_pow_eq_sum (poly : BitVec n) {v : Word n} {m : Nat} (hm : m ≤ n)
    (hv : ∀ i, m ≤ i → v.bits.getLsbD i = false) :
    (shift poly ^ m) v
      = ∑ i ∈ Finset.range m, if v.bits.getLsbD i then (shift poly ^ (m - i)) (unit 0) else 0 := by
  have hsum : v = ∑ i ∈ Finset.range m, if v.bits.getLsbD i then unit i else 0 := by
    refine (eq_sum_unit v).trans (Finset.sum_subset ?_ fun i _ hi => ?_).symm
    · exact Finset.range_subset_range.mpr hm
    · rw [hv i (Nat.not_lt.mp fun h => hi (Finset.mem_range.mpr h))]
      rfl
  conv_lhs => rw [hsum, map_sum]
  refine Finset.sum_congr rfl fun i hi => ?_
  have him := Finset.mem_range.mp hi
  rw [apply_ite (shift poly ^ m), map_zero,
    shift_pow_unit poly (Nat.lt_of_lt_of_le him hm) (Nat.le_of_lt him)]

/-- As long as no bit falls out, shifts only move the word. -/
theorem shift_pow_of_clear (poly : BitVec n) {v : Word n} {m : Nat}
    (hv : ∀ i, i < m → v.bits.getLsbD i = false) : (shift poly ^ m) v = ⟨v.bits >>> m⟩ := by
  induction m with
  | zero => rfl
  | succ m ih =>
      have hbit : (v.bits >>> m).getLsbD 0 = false := by
        rw [BitVec.getLsbD_ushiftRight]
        exact hv m (Nat.lt_succ_self m)
      rw [pow_succ_apply', ih fun i hi => hv i (Nat.lt_succ_of_lt hi), shift_of_even poly hbit]
      exact Word.ext (BitVec.shiftRight_add v.bits m 1).symm

/-- The low `m` bits of a word. -/
def low (m : Nat) (v : Word n) : Word n := ⟨(v.bits.setWidth m).setWidth n⟩

theorem getLsbD_low (m : Nat) (v : Word n) (i : Nat) :
    (low m v).bits.getLsbD i = (decide (i < m) && v.bits.getLsbD i) := by
  show ((v.bits.setWidth m).setWidth n).getLsbD i = _
  rw [BitVec.getLsbD_setWidth, BitVec.getLsbD_setWidth]
  by_cases hi : i < n
  · rw [decide_eq_true hi, Bool.true_and]
  · rw [BitVec.getLsbD_of_ge v.bits i (Nat.not_lt.mp hi), Bool.and_false, Bool.and_false]

/-- `m` shifts at once: only the low `m` bits are worth looking up. -/
theorem shift_pow_split (poly : BitVec n) (m : Nat) (v : Word n) :
    (shift poly ^ m) v = (shift poly ^ m) (low m v) + ⟨v.bits >>> m⟩ := by
  have hclear : ∀ i, i < m → (v + low m v).bits.getLsbD i = false := by
    intro i hi
    rw [bits_add, BitVec.getLsbD_xor, getLsbD_low, decide_eq_true hi, Bool.true_and, Bool.xor_self]
  have hhigh : (v + low m v).bits >>> m = v.bits >>> m := by
    refine BitVec.eq_of_getLsbD_eq fun i _ => ?_
    rw [BitVec.getLsbD_ushiftRight, BitVec.getLsbD_ushiftRight, bits_add, BitVec.getLsbD_xor,
      getLsbD_low, decide_eq_false (Nat.not_lt.mpr (Nat.le_add_right m i)), Bool.false_and,
      Bool.xor_false]
  have hsplit : v = low m v + (v + low m v) := by
    rw [add_left_comm, add_self, add_zero]
  conv_lhs => rw [hsplit, map_add, shift_pow_of_clear poly hclear, hhigh]

/-! ## Messages -/

/-- Bit `k` of a message, the low bit of each byte first. -/
def bitAt (m : List UInt8) (k : Nat) : Bool := (m.getD (k / 8) 0).toBitVec.getLsbD (k % 8)

/-- The low byte of a register. -/
def ofByte (b : UInt8) : Word n := ⟨b.toBitVec.setWidth n⟩

/-- A register takes a byte. -/
def feed (poly : BitVec n) (v : Word n) (b : UInt8) : Word n := (shift poly ^ 8) (v + ofByte b)

theorem getLsbD_ofByte (hn : 8 ≤ n) (b : UInt8) (i : Nat) :
    (ofByte b : Word n).bits.getLsbD i = b.toBitVec.getLsbD i := by
  show (b.toBitVec.setWidth n).getLsbD i = _
  rw [BitVec.getLsbD_setWidth]
  by_cases hi : i < n
  · rw [decide_eq_true hi, Bool.true_and]
  · rw [BitVec.getLsbD_of_ge _ _ (show 8 ≤ i by omega), Bool.and_false]

theorem bitAt_cons_low (b : UInt8) (m : List UInt8) {k : Nat} (h : k < 8) :
    bitAt (b :: m) k = b.toBitVec.getLsbD k := by
  rw [bitAt, Nat.div_eq_of_lt h, Nat.mod_eq_of_lt h, List.getD_cons_zero]

theorem bitAt_cons_high (b : UInt8) (m : List UInt8) (k : Nat) :
    bitAt (b :: m) (8 + k) = bitAt m k := by
  rw [bitAt, Nat.add_div_left k (show 0 < 8 by decide), Nat.add_mod_left, List.getD_cons_succ, bitAt]

/-- What a message leaves: each set bit, shifted as often as there are bits from it on. -/
theorem foldl_feed (poly : BitVec n) (hn : 8 ≤ n) (m : List UInt8) (v : Word n) :
    m.foldl (feed poly) v = (shift poly ^ (8 * m.length)) v
      + ∑ k ∈ Finset.range (8 * m.length),
          if bitAt m k then (shift poly ^ (8 * m.length - k)) (unit 0) else 0 := by
  induction m generalizing v with
  | nil => exact (add_zero v).symm
  | cons b m ih =>
      have hbyte := shift_pow_eq_sum poly hn (v := ofByte b) fun i hi => by
        rw [getLsbD_ofByte hn, BitVec.getLsbD_of_ge _ _ hi]
      have hlow : (shift poly ^ (8 * m.length)) ((shift poly ^ 8) (ofByte b))
          = ∑ k ∈ Finset.range 8,
              if bitAt (b :: m) k then (shift poly ^ (8 + 8 * m.length - k)) (unit 0) else 0 := by
        rw [hbyte, map_sum]
        refine Finset.sum_congr rfl fun k hk => ?_
        have hk := Finset.mem_range.mp hk
        rw [apply_ite (shift poly ^ (8 * m.length)), map_zero, getLsbD_ofByte hn,
          bitAt_cons_low b m hk, ← pow_add_apply,
          show 8 * m.length + (8 - k) = 8 + 8 * m.length - k by omega]
      have hhigh (k : Nat) : (if bitAt (b :: m) (8 + k) then
            (shift poly ^ (8 + 8 * m.length - (8 + k))) (unit 0) else (0 : Word n))
          = if bitAt m k then (shift poly ^ (8 * m.length - k)) (unit 0) else 0 := by
        rw [bitAt_cons_high, Nat.add_sub_add_left]
      have hlen : 8 * (b :: m).length = 8 + 8 * m.length := by
        rw [List.length_cons]
        omega
      rw [List.foldl_cons, ih, feed, map_add, map_add, hlow, hlen, Finset.sum_range_add,
        Finset.sum_congr rfl fun k _ => hhigh k, add_assoc, ← pow_add_apply, Nat.add_comm 8]

/-! ## Small errors -/

section Errors

variable {V : Type} [AddCommGroup V]

/-- What a step does that lets no small error pass. -/
structure Sees (step : AddMonoid.End V) (parity : V →+ ZMod 2) (one : V) (period : Nat) : Prop where
  add_self : ∀ v : V, v + v = 0
  injective : Function.Injective step
  keeps : ∀ v, parity (step v) = parity v
  odd : parity one = 1
  away : ∀ d, 0 < d → d ≤ period → (step ^ d) one ≠ one

variable {step : AddMonoid.End V} {parity : V →+ ZMod 2} {one : V} {period : Nat}

theorem Sees.pow_injective (h : Sees step parity one period) (m : Nat) :
    Function.Injective (step ^ m) := by
  rw [AddMonoid.End.coe_pow]
  exact h.injective.iterate m

theorem Sees.parity_pow (h : Sees step parity one period) (m : Nat) :
    parity ((step ^ m) one) = 1 := by
  induction m with
  | zero => exact h.odd
  | succ m ih => rw [pow_succ_apply', h.keeps, ih]

/-- Two words on their way are apart as long as they are close to each other in time. -/
theorem Sees.pow_ne (h : Sees step parity one period) {i j : Nat} (hlt : i < j)
    (hnear : j ≤ i + period) : (step ^ i) one ≠ (step ^ j) one := by
  intro heq
  have hsplit : (step ^ i) ((step ^ (j - i)) one) = (step ^ j) one := by
    rw [← pow_add_apply, Nat.add_sub_cancel' (Nat.le_of_lt hlt)]
  refine h.away (j - i) (Nat.sub_pos_of_lt hlt) (Nat.sub_le_iff_le_add'.mpr hnear) ?_
  exact h.pow_injective i (hsplit.trans heq.symm)

/-- An odd number of errors changes the parity. -/
theorem Sees.sum_ne_zero_of_odd (h : Sees step parity one period) {errors : Finset Nat}
    (w : Nat → Nat) (hodd : Odd errors.card) : ∑ k ∈ errors, (step ^ w k) one ≠ 0 := by
  intro hsum
  have hone : parity (∑ k ∈ errors, (step ^ w k) one) = 1 := by
    rw [map_sum, Finset.sum_congr rfl fun k _ => h.parity_pow (w k), Finset.sum_const, nsmul_one]
    exact ZMod.natCast_eq_one_iff_odd.mpr hodd
  rw [hsum, map_zero] at hone
  exact zero_ne_one hone

/-- Two errors cancel only if they are far apart. -/
theorem Sees.sum_ne_zero_of_two (h : Sees step parity one period) {errors : Finset Nat}
    {w : Nat → Nat} (hw : Set.InjOn w errors)
    (hnear : ∀ i ∈ errors, ∀ j ∈ errors, w j ≤ w i + period) (htwo : errors.card = 2) :
    ∑ k ∈ errors, (step ^ w k) one ≠ 0 := by
  obtain ⟨i, j, hij, rfl⟩ := Finset.card_eq_two.mp htwo
  have hi : i ∈ ({i, j} : Finset Nat) := Finset.mem_insert_self i _
  have hj : j ∈ ({i, j} : Finset Nat) := Finset.mem_insert_of_mem (Finset.mem_singleton_self j)
  rw [Finset.sum_pair hij]
  intro hsum
  have heq : (step ^ w i) one = (step ^ w j) one :=
    (add_eq_zero_iff_eq_neg.mp hsum).trans (add_eq_zero_iff_eq_neg.mp (h.add_self _)).symm
  rcases Nat.lt_or_gt_of_ne (hw.ne hi hj hij) with hlt | hlt
  · exact h.pow_ne hlt (hnear i hi j hj) heq
  · exact h.pow_ne hlt (hnear j hj i hi) heq.symm

end Errors

/-! ## Going round by computation -/

/-- From `c`, two to the `d` steps, none of which comes to `home`. -/
def away {α : Type} [DecidableEq α] (step : α → α) (home : α) : Nat → α → Option α
  | 0, c => if step c = home then none else some (step c)
  | d + 1, c => (away step home d c).bind (away step home d)

theorem away_spec {α : Type} [DecidableEq α] {step : α → α} {home : α} {d : Nat} {c c' : α}
    (h : away step home d c = some c') :
    c' = step^[2 ^ d] c ∧ ∀ e, 0 < e → e ≤ 2 ^ d → step^[e] c ≠ home := by
  induction d generalizing c c' with
  | zero =>
      rw [away] at h
      split at h
      · cases h
      · next hne =>
          cases h
          refine ⟨rfl, fun e hpos hle => ?_⟩
          obtain rfl : e = 1 := Nat.le_antisymm hle hpos
          exact hne
  | succ d ih =>
      rw [away] at h
      obtain ⟨mid, hmid, hrest⟩ := Option.bind_eq_some_iff.mp h
      obtain ⟨rfl, hfirst⟩ := ih hmid
      obtain ⟨rfl, hsecond⟩ := ih hrest
      have hdouble : 2 ^ (d + 1) = 2 ^ d + 2 ^ d := by rw [Nat.pow_succ, Nat.mul_two]
      refine ⟨?_, fun e hpos hle => ?_⟩
      · rw [hdouble, Function.iterate_add_apply]
      · rcases Nat.lt_or_ge (2 ^ d) e with hlt | hge
        · have := hsecond (e - 2 ^ d) (Nat.sub_pos_of_lt hlt) (by omega)
          rwa [← Function.iterate_add_apply, Nat.sub_add_cancel (Nat.le_of_lt hlt)] at this
        · exact hfirst e hpos hge

/-- A shift on numbers. -/
def shiftNat (poly c : Nat) : Nat := c / 2 ^^^ c % 2 * poly

theorem toNat_shift (poly : BitVec n) (v : Word n) :
    (shift poly v).bits.toNat = shiftNat poly.toNat v.bits.toNat := by
  show (v.bits >>> 1 ^^^ (if v.bits.getLsbD 0 then (⟨poly⟩ : Word n) else 0).bits).toNat = _
  rw [BitVec.toNat_xor, BitVec.toNat_ushiftRight, Nat.shiftRight_eq_div_pow, Nat.pow_one, shiftNat]
  congr 1
  have hbit : v.bits.getLsbD 0 = decide (v.bits.toNat % 2 = 1) := by
    rw [BitVec.getLsbD, Nat.testBit_zero]
  rw [hbit]
  rcases Nat.mod_two_eq_zero_or_one v.bits.toNat with h | h
  · rw [h, Nat.zero_mul]
    rfl
  · rw [h, Nat.one_mul]
    rfl

theorem toNat_shift_pow (poly : BitVec n) (v : Word n) (e : Nat) :
    ((shift poly ^ e) v).bits.toNat = (shiftNat poly.toNat)^[e] v.bits.toNat := by
  rw [AddMonoid.End.coe_pow]
  exact Function.Semiconj.iterate_right (f := fun v : Word n => v.bits.toNat) (toNat_shift poly) e v

theorem shift_pow_unit_ne {poly : BitVec (n + 1)} {d : Nat}
    (h : (away (shiftNat poly.toNat) 1 d 1).isSome = true) {e : Nat} (hpos : 0 < e)
    (hle : e ≤ 2 ^ d) : (shift poly ^ e) (unit 0) ≠ unit 0 := by
  obtain ⟨c, hc⟩ := Option.isSome_iff_exists.mp h
  have hone : (unit 0 : Word (n + 1)).bits.toNat = 1 := by
    show (BitVec.twoPow (n + 1) 0).toNat = 1
    rw [BitVec.toNat_twoPow_of_lt (Nat.succ_pos n), Nat.pow_zero]
  intro heq
  refine (away_spec hc).2 e hpos hle ?_
  calc (shiftNat poly.toNat)^[e] 1
      = (shiftNat poly.toNat)^[e] (unit 0 : Word (n + 1)).bits.toNat := by rw [hone]
    _ = ((shift poly ^ e) (unit 0)).bits.toNat := (toNat_shift_pow poly (unit 0) e).symm
    _ = 1 := by rw [heq, hone]

end ShiftRegister
