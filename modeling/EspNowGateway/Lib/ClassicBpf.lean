import Mathlib.Data.List.Basic

/-!
# Classic BPF socket filters

A filter is an array of `struct sock_filter` run over one packet with two unsigned
32-bit registers, the accumulator and the index. Words are read big-endian. A load
outside the packet ends the filter with the result 0, which drops the packet.
Jumps go forward only, so the program itself is the termination measure: `exec`
walks it once, skipping instructions after a jump.

The result is `none` when the program runs off its end or into an opcode that is
not decoded here: the kernel attaches no such program. The scratch memory, the
length loads and the arithmetic beyond bit operations are left out.
-/

namespace ClassicBpf

/-- `struct sock_filter`. -/
structure SockFilter where
  code : Nat
  jt : Nat
  jf : Nat
  k : Nat
  deriving DecidableEq, Repr

/-- Where the second operand comes from: the instruction or the index register. -/
inductive Operand where
  | k
  | x
  deriving DecidableEq, Repr

inductive AluOp where
  | or
  | and
  | lsh
  | rsh
  deriving DecidableEq, Repr

inductive Cond where
  | eq
  | gt
  | ge
  | set
  deriving DecidableEq, Repr

/-- A decoded opcode. -/
inductive Op where
  /-- Load `size` bytes at `k`, or at the index register plus `k`. -/
  | ld (size : Nat) (indirect : Bool)
  | alu (op : AluOp) (src : Operand)
  | ja
  | jmp (c : Cond)
  | retK
  | retA
  | tax
  | txa
  deriving DecidableEq, Repr

/-- The opcodes of `linux/bpf_common.h` that are modelled. -/
def decode : Nat → Option Op
  | 0x20 => some (.ld 4 false)
  | 0x28 => some (.ld 2 false)
  | 0x30 => some (.ld 1 false)
  | 0x40 => some (.ld 4 true)
  | 0x48 => some (.ld 2 true)
  | 0x50 => some (.ld 1 true)
  | 0x44 => some (.alu .or .k)
  | 0x4c => some (.alu .or .x)
  | 0x54 => some (.alu .and .k)
  | 0x5c => some (.alu .and .x)
  | 0x64 => some (.alu .lsh .k)
  | 0x74 => some (.alu .rsh .k)
  | 0x05 => some .ja
  | 0x15 => some (.jmp .eq)
  | 0x25 => some (.jmp .gt)
  | 0x35 => some (.jmp .ge)
  | 0x45 => some (.jmp .set)
  | 0x06 => some .retK
  | 0x16 => some .retA
  | 0x07 => some .tax
  | 0x87 => some .txa
  | _ => none

def AluOp.eval : AluOp → Nat → Nat → Nat
  | .or, a, b => a ||| b
  | .and, a, b => a &&& b
  | .lsh, a, b => (a <<< b) % 0x100000000
  | .rsh, a, b => a >>> b

def Cond.test : Cond → Nat → Nat → Bool
  | .eq, a, b => a == b
  | .gt, a, b => b < a
  | .ge, a, b => b ≤ a
  | .set, a, b => a &&& b != 0

/-- The value of a big-endian byte string. -/
def ofBe (m : List UInt8) : Nat := m.foldl (fun acc b => acc * 256 + b.toNat) 0

/-- `size` bytes of the packet at `off`; none outside the packet. -/
def load (p : List UInt8) (off size : Nat) : Option Nat :=
  if off + size ≤ p.length then some (ofBe ((p.drop off).take size)) else none

/-- The second operand of instruction `i`, with the index register at `x`. -/
def operand (i : SockFilter) (x : Nat) : Operand → Nat
  | .k => i.k
  | .x => x

/-- Run the rest of a program, its first `skip` instructions left out. -/
def exec (p : List UInt8) : List SockFilter → Nat → Nat → Nat → Option Nat
  | [], _, _, _ => none
  | _ :: rest, skip + 1, a, x => exec p rest skip a x
  | i :: rest, 0, a, x =>
      match decode i.code with
      | none => none
      | some (.ld size indirect) =>
          match load p (((if indirect then x else 0) + i.k) % 0x100000000) size with
          | some v => exec p rest 0 v x
          | none => some 0
      | some (.alu op src) => exec p rest 0 (op.eval a (operand i x src)) x
      -- jumps count from the next instruction on
      | some .ja => exec p rest i.k a x
      | some (.jmp c) => exec p rest (if c.test a i.k then i.jt else i.jf) a x
      | some .retK => some i.k
      | some .retA => some a
      | some .tax => exec p rest 0 a a
      | some .txa => exec p rest 0 x x

/-- What a filter returns for a packet. -/
def filter (prog : List SockFilter) (p : List UInt8) : Option Nat := exec p prog 0 0 0

/-! ## Programs that cannot run off their end -/

/-- How many instructions may be skipped behind `i`; none of them when it returns. -/
def SockFilter.skips (i : SockFilter) : List Nat :=
  match decode i.code with
  | some .ja => [i.k]
  | some (.jmp _) => [i.jt, i.jf]
  | some .retK => []
  | some .retA => []
  | _ => [0]

/--
Every opcode is known, and from every instruction that does not return, all that may
follow is in the program. This is what the kernel checks before it attaches a filter.
-/
def Checked : List SockFilter → Prop
  | [] => True
  | i :: rest => (decode i.code).isSome ∧ (∀ n ∈ i.skips, n < rest.length) ∧ Checked rest

instance Checked.decidable : (prog : List SockFilter) → Decidable (Checked prog)
  | [] => isTrue trivial
  | _ :: rest =>
      have := Checked.decidable rest
      inferInstanceAs (Decidable (_ ∧ _ ∧ Checked rest))

/-- Wherever a checked program is entered, it comes to a return. -/
theorem exec_total {p : List UInt8} {prog : List SockFilter} (h : Checked prog) {skip : Nat}
    (hskip : skip < prog.length) (a x : Nat) : ∃ v, exec p prog skip a x = some v := by
  induction prog generalizing skip a x with
  | nil => cases hskip
  | cons i rest ih =>
      obtain ⟨hknown, hskips, hrest⟩ := h
      cases skip with
      | succ skip =>
          rw [exec]
          exact ih hrest (Nat.lt_of_succ_lt_succ hskip) a x
      | zero =>
          rw [exec]
          unfold SockFilter.skips at hskips
          cases hop : decode i.code with
          | none =>
              rw [hop] at hknown
              cases hknown
          | some op =>
              rw [hop] at hskips
              cases op with
              | ld size indirect =>
                  dsimp only
                  split
                  · exact ih hrest (hskips 0 (List.mem_singleton.mpr rfl)) _ _
                  · exact ⟨0, rfl⟩
              | alu op src => exact ih hrest (hskips 0 (List.mem_singleton.mpr rfl)) _ _
              | ja => exact ih hrest (hskips i.k (List.mem_singleton.mpr rfl)) _ _
              | jmp c =>
                  dsimp only
                  split
                  · exact ih hrest (hskips i.jt (List.mem_cons_self ..)) _ _
                  · exact ih hrest (hskips i.jf (List.mem_cons_of_mem _ (List.mem_cons_self ..))) _ _
              | retK => exact ⟨i.k, rfl⟩
              | retA => exact ⟨a, rfl⟩
              | tax => exact ih hrest (hskips 0 (List.mem_singleton.mpr rfl)) _ _
              | txa => exact ih hrest (hskips 0 (List.mem_singleton.mpr rfl)) _ _

/-- What may follow an instruction of a checked program is in the program. -/
theorem Checked.target {prog : List SockFilter} (h : Checked prog) {j : Nat} {i : SockFilter}
    (hi : prog[j]? = some i) {n : Nat} (hn : n ∈ i.skips) : j + 1 + n < prog.length := by
  induction prog generalizing j with
  | nil => cases hi
  | cons i' rest ih =>
      obtain ⟨_, hskips, hrest⟩ := h
      rw [List.length_cons]
      cases j with
      | zero =>
          cases hi
          have := hskips n hn
          omega
      | succ j =>
          have := ih hrest hi
          omega

/-! ## What is let through -/

/-- The rest of a program, entered with these registers, lets the packet through. -/
def Passes (p : List UInt8) (prog : List SockFilter) (a x : Nat) : Prop :=
  ∃ v, exec p prog 0 a x = some v ∧ v ≠ 0

/-- The packet gets past the filter. -/
def Accepts (prog : List SockFilter) (p : List UInt8) : Prop :=
  ∃ v, filter prog p = some v ∧ v ≠ 0

/-!
### Rules for packets that get through

One rule for each kind of instruction: what must hold of the registers and the
packet for the program, from that instruction on, to let the packet through.
-/

section Rules

variable {p : List UInt8} {rest : List SockFilter} {jt jf k a x : Nat}

theorem passes_ldb_abs : Passes p (⟨0x30, jt, jf, k⟩ :: rest) a x
    ↔ ∃ v, load p (k % 0x100000000) 1 = some v ∧ Passes p rest v x := by
  rw [Passes, exec]
  simp only [decode, Bool.false_eq_true, if_false, Nat.zero_add]
  cases load p (k % 0x100000000) 1 <;> simp [Passes]

theorem passes_ld_ind {size : Nat} {code : Nat} (h : decode code = some (.ld size true)) :
    Passes p (⟨code, jt, jf, k⟩ :: rest) a x
      ↔ ∃ v, load p ((x + k) % 0x100000000) size = some v ∧ Passes p rest v x := by
  rw [Passes, exec, h]
  simp only [if_true]
  cases load p ((x + k) % 0x100000000) size <;> simp [Passes]

theorem passes_ldb_ind : Passes p (⟨0x50, jt, jf, k⟩ :: rest) a x
    ↔ ∃ v, load p ((x + k) % 0x100000000) 1 = some v ∧ Passes p rest v x := passes_ld_ind rfl

theorem passes_ldw_ind : Passes p (⟨0x40, jt, jf, k⟩ :: rest) a x
    ↔ ∃ v, load p ((x + k) % 0x100000000) 4 = some v ∧ Passes p rest v x := passes_ld_ind rfl

theorem passes_lsh : Passes p (⟨0x64, jt, jf, k⟩ :: rest) a x
    ↔ Passes p rest ((a <<< k) % 0x100000000) x := Iff.rfl

theorem passes_and : Passes p (⟨0x54, jt, jf, k⟩ :: rest) a x ↔ Passes p rest (a &&& k) x := Iff.rfl

theorem passes_or_x : Passes p (⟨0x4c, jt, jf, k⟩ :: rest) a x ↔ Passes p rest (a ||| x) x := Iff.rfl

theorem passes_tax : Passes p (⟨0x07, jt, jf, k⟩ :: rest) a x ↔ Passes p rest a a := Iff.rfl

/-- A jump that lands on `ret #0`. -/
theorem exec_reject {n : Nat} (h : rest[n]? = some ⟨0x06, 0, 0, 0⟩) :
    exec p rest n a x = some 0 := by
  induction rest generalizing n with
  | nil => cases h
  | cons i rest ih =>
      cases n with
      | zero => cases h; rfl
      | succ n => exact ih h

/-- A test that falls through when it succeeds and rejects when it fails must succeed. -/
theorem passes_jeq (hreject : rest[jf]? = some ⟨0x06, 0, 0, 0⟩) :
    Passes p (⟨0x15, 0, jf, k⟩ :: rest) a x ↔ a = k ∧ Passes p rest a x := by
  rw [Passes, exec]
  simp only [decode, Cond.test, beq_iff_eq]
  by_cases h : a = k
  · rw [if_pos h]; simp [h, Passes]
  · rw [if_neg h, exec_reject hreject]; simp [h]

theorem passes_ret : Passes p (⟨0x06, jt, jf, k⟩ :: rest) a x ↔ k ≠ 0 := by
  rw [Passes, exec]
  simp [decode]

end Rules

/-! ## Loads -/

theorem load_eq_some_iff {p : List UInt8} {off size v : Nat} :
    load p off size = some v ↔ off + size ≤ p.length ∧ ofBe ((p.drop off).take size) = v := by
  unfold load
  split
  · rename_i h
    simp [h]
  · rename_i h
    simp [h]

/-- The first bytes of a packet from `off` on, as far as it reaches. -/
theorem take_succ_drop {p : List UInt8} {off size : Nat} (h : off < p.length) :
    (p.drop off).take (size + 1) = p.getD off 0 :: (p.drop (off + 1)).take size := by
  rw [List.drop_eq_getElem_cons h, List.take_succ_cons]
  simp [h]

theorem load_byte {p : List UInt8} {off v : Nat} :
    load p off 1 = some v ↔ off + 1 ≤ p.length ∧ (p.getD off 0).toNat = v := by
  rw [load_eq_some_iff]
  refine and_congr_right fun h => ?_
  rw [take_succ_drop (by omega)]
  simp [ofBe]

theorem load_word {p : List UInt8} {off v : Nat} :
    load p off 4 = some v ↔ off + 4 ≤ p.length
      ∧ (((p.getD off 0).toNat * 256 + (p.getD (off + 1) 0).toNat) * 256
        + (p.getD (off + 2) 0).toNat) * 256 + (p.getD (off + 3) 0).toNat = v := by
  rw [load_eq_some_iff]
  refine and_congr_right fun h => ?_
  rw [take_succ_drop (by omega), take_succ_drop (by omega), take_succ_drop (by omega),
    take_succ_drop (by omega)]
  simp [ofBe]

end ClassicBpf
