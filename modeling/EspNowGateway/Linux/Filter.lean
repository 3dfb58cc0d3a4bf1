import EspNowGateway.Lib.ClassicBpf

/-!
# The socket filter

Both Linux programs attach the same twenty instructions. They compute the length
of the radiotap header from the packet itself and look for an ESP-NOW action
frame behind it. `accepts_iff` spells out what they let through.
-/

namespace EspNowGateway

open ClassicBpf

/-- `bpfcode`. -/
def bpfcode : List SockFilter :=
  [ ⟨0x30, 0, 0, 0x00000003⟩,
    ⟨0x64, 0, 0, 0x00000008⟩,
    ⟨0x7, 0, 0, 0x00000000⟩,
    ⟨0x30, 0, 0, 0x00000002⟩,
    ⟨0x4c, 0, 0, 0x00000000⟩,
    ⟨0x7, 0, 0, 0x00000000⟩,
    ⟨0x50, 0, 0, 0x00000000⟩,
    ⟨0x54, 0, 0, 0x000000fc⟩,
    ⟨0x15, 0, 10, 0x000000d0⟩,
    ⟨0x40, 0, 0, 0x00000018⟩,
    ⟨0x15, 0, 8, 0x7f18fe34⟩,
    ⟨0x50, 0, 0, 0x00000020⟩,
    ⟨0x15, 0, 6, 0x000000dd⟩,
    ⟨0x40, 0, 0, 0x00000021⟩,
    ⟨0x54, 0, 0, 0x00ffffff⟩,
    ⟨0x15, 0, 3, 0x0018fe34⟩,
    ⟨0x50, 0, 0, 0x00000025⟩,
    ⟨0x15, 0, 1, 0x00000004⟩,
    ⟨0x6, 0, 0, 0x00040000⟩,
    ⟨0x6, 0, 0, 0x00000000⟩ ]

/-- Byte `i` of a packet. -/
def byteAt (p : List UInt8) (i : Nat) : UInt8 := p.getD i 0

/-- The length of the radiotap header, as the packet gives it. -/
def radiotapLength (p : List UInt8) : Nat := (byteAt p 2).toNat + 256 * (byteAt p 3).toNat

/-- An ESP-NOW action frame behind its radiotap header. -/
structure EspNowAction (p : List UInt8) : Prop where
  header : 4 ≤ p.length
  length : radiotapLength p + 38 ≤ p.length
  /-- Type and subtype. -/
  frameType : byteAt p (radiotapLength p) &&& 0xfc = 0xd0
  /-- Category and organization identifier. -/
  category : (p.drop (radiotapLength p + 24)).take 4 = [0x7f, 0x18, 0xfe, 0x34]
  elementId : byteAt p (radiotapLength p + 32) = 0xdd
  organization : (p.drop (radiotapLength p + 34)).take 3 = [0x18, 0xfe, 0x34]
  type : byteAt p (radiotapLength p + 37) = 4

/-- The two header bytes put together as the program does. -/
theorem or_shift (p : List UInt8) :
    ((byteAt p 2).toNat ||| ((byteAt p 3).toNat <<< 8) % 0x100000000) = radiotapLength p := by
  have hlo := (byteAt p 2).toNat_lt
  have hhi := (byteAt p 3).toNat_lt
  have hshift : (byteAt p 3).toNat <<< 8 = (byteAt p 3).toNat * 256 := Nat.shiftLeft_eq _ _
  have hmod : ((byteAt p 3).toNat <<< 8) % 0x100000000 = (byteAt p 3).toNat <<< 8 :=
    Nat.mod_eq_of_lt (by omega)
  rw [hmod, Nat.or_comm, ← Nat.shiftLeft_add_eq_or_of_lt hlo, radiotapLength]
  omega

theorem radiotapLength_lt (p : List UInt8) : radiotapLength p < 65536 := by
  have hlo := (byteAt p 2).toNat_lt
  have hhi := (byteAt p 3).toNat_lt
  unfold radiotapLength
  omega

/-! ## What the program tests -/

/-- A big-endian word compares equal to a constant exactly when its bytes do. -/
theorem word_eq_iff {b₀ b₁ b₂ b₃ c₀ c₁ c₂ c₃ : UInt8} :
    ((b₀.toNat * 256 + b₁.toNat) * 256 + b₂.toNat) * 256 + b₃.toNat
        = ((c₀.toNat * 256 + c₁.toNat) * 256 + c₂.toNat) * 256 + c₃.toNat
      ↔ [b₀, b₁, b₂, b₃] = [c₀, c₁, c₂, c₃] := by
  have hb₀ := b₀.toNat_lt
  have hb₁ := b₁.toNat_lt
  have hb₂ := b₂.toNat_lt
  have hb₃ := b₃.toNat_lt
  have hc₀ := c₀.toNat_lt
  have hc₁ := c₁.toNat_lt
  have hc₂ := c₂.toNat_lt
  have hc₃ := c₃.toNat_lt
  simp only [List.cons.injEq, and_true, ← UInt8.toNat_inj]
  constructor
  · intro h
    omega
  · intro h
    rcases h with ⟨h₀, h₁, h₂, h₃⟩
    rw [h₀, h₁, h₂, h₃]

/-- Masked to its low 24 bits, a word compares equal to its last three bytes. -/
theorem masked_word_eq_iff {b₀ b₁ b₂ b₃ c₁ c₂ c₃ : UInt8} :
    (((b₀.toNat * 256 + b₁.toNat) * 256 + b₂.toNat) * 256 + b₃.toNat) &&& 0xffffff
        = (c₁.toNat * 256 + c₂.toNat) * 256 + c₃.toNat
      ↔ [b₁, b₂, b₃] = [c₁, c₂, c₃] := by
  have hmask (w : Nat) : w &&& 0xffffff = w % 2 ^ 24 := Nat.and_two_pow_sub_one_eq_mod w 24
  have hb₁ := b₁.toNat_lt
  have hb₂ := b₂.toNat_lt
  have hb₃ := b₃.toNat_lt
  have hc₁ := c₁.toNat_lt
  have hc₂ := c₂.toNat_lt
  have hc₃ := c₃.toNat_lt
  rw [hmask]
  simp only [List.cons.injEq, and_true, ← UInt8.toNat_inj]
  constructor
  · intro h
    omega
  · intro h
    rcases h with ⟨h₁, h₂, h₃⟩
    rw [h₁, h₂, h₃]
    omega

/-- The loads and the tests of the program, in its order. -/
theorem accepts_tests (p : List UInt8) :
    Accepts bpfcode p ↔
      3 + 1 ≤ p.length ∧ 2 + 1 ≤ p.length ∧ radiotapLength p + 0 + 1 ≤ p.length
        ∧ (byteAt p (radiotapLength p + 0)).toNat &&& 0xfc = 0xd0
        ∧ radiotapLength p + 24 + 4 ≤ p.length
        ∧ (((byteAt p (radiotapLength p + 24)).toNat * 256
            + (byteAt p (radiotapLength p + 24 + 1)).toNat) * 256
            + (byteAt p (radiotapLength p + 24 + 2)).toNat) * 256
            + (byteAt p (radiotapLength p + 24 + 3)).toNat = 0x7f18fe34
        ∧ radiotapLength p + 32 + 1 ≤ p.length
        ∧ (byteAt p (radiotapLength p + 32)).toNat = 0xdd
        ∧ radiotapLength p + 33 + 4 ≤ p.length
        ∧ ((((byteAt p (radiotapLength p + 33)).toNat * 256
            + (byteAt p (radiotapLength p + 33 + 1)).toNat) * 256
            + (byteAt p (radiotapLength p + 33 + 2)).toNat) * 256
            + (byteAt p (radiotapLength p + 33 + 3)).toNat) &&& 0xffffff = 0x18fe34
        ∧ radiotapLength p + 37 + 1 ≤ p.length
        ∧ (byteAt p (radiotapLength p + 37)).toNat = 4 ∧ 0x40000 ≠ 0 := by
  have hmod (k : Nat) (hk : k < 65536) :
      (radiotapLength p + k) % 4294967296 = radiotapLength p + k :=
    Nat.mod_eq_of_lt (by have := radiotapLength_lt p; omega)
  have hor : ((p.getD 2 0).toNat ||| (p.getD 3 0).toNat <<< 8 % 4294967296) = radiotapLength p :=
    or_shift p
  show Passes p bpfcode 0 0 ↔ _
  -- the rules run the program; the loads are then spelled out in bytes
  simp (disch := simp) only [bpfcode, passes_ldb_abs, passes_ldb_ind, passes_ldw_ind, passes_lsh,
    passes_and, passes_or_x, passes_tax, passes_jeq, passes_ret]
  simp (disch := decide) only [load_byte, load_word, and_assoc, exists_and_left, exists_eq_left',
    Nat.reduceMod, hor, hmod, byteAt]

/-- **The program lets through exactly the ESP-NOW action frames.** -/
theorem accepts_iff (p : List UInt8) : Accepts bpfcode p ↔ EspNowAction p := by
  have hword : (0x7f18fe34 : Nat) = (((0x7f : UInt8).toNat * 256 + (0x18 : UInt8).toNat) * 256
      + (0xfe : UInt8).toNat) * 256 + (0x34 : UInt8).toNat := by decide
  have hmasked : (0x18fe34 : Nat) = ((0x18 : UInt8).toNat * 256 + (0xfe : UInt8).toNat) * 256
      + (0x34 : UInt8).toNat := by decide
  have hid (b : UInt8) : b.toNat = 0xdd ↔ b = 0xdd := UInt8.toNat_inj (b := 0xdd)
  have hfour (b : UInt8) : b.toNat = 4 ↔ b = 4 := UInt8.toNat_inj (b := 4)
  have htype (b : UInt8) : b.toNat &&& 0xfc = 0xd0 ↔ b &&& 0xfc = 0xd0 := by
    rw [← UInt8.toNat_inj, UInt8.toNat_and]; rfl
  rw [accepts_tests, htype, hword, word_eq_iff, hmasked, masked_word_eq_iff, hid, hfour]
  have hcat (h : radiotapLength p + 38 ≤ p.length) :
      (p.drop (radiotapLength p + 24)).take 4 = [byteAt p (radiotapLength p + 24),
        byteAt p (radiotapLength p + 24 + 1), byteAt p (radiotapLength p + 24 + 2),
        byteAt p (radiotapLength p + 24 + 3)] := by
    rw [take_succ_drop (by omega), take_succ_drop (by omega), take_succ_drop (by omega),
      take_succ_drop (by omega)]
    rfl
  have horg (h : radiotapLength p + 38 ≤ p.length) :
      (p.drop (radiotapLength p + 34)).take 3 = [byteAt p (radiotapLength p + 33 + 1),
        byteAt p (radiotapLength p + 33 + 2), byteAt p (radiotapLength p + 33 + 3)] := by
    rw [take_succ_drop (by omega), take_succ_drop (by omega), take_succ_drop (by omega)]
    rfl
  -- the two sides differ in the order of the tests and in how words are read
  constructor
  · intro h
    rcases h with ⟨h4, _, _, htype, _, hcategory, _, hdd, _, horganization, hlen, ht, _⟩
    exact ⟨h4, hlen, htype, (hcat hlen).trans hcategory, hdd, (horg hlen).trans horganization, ht⟩
  · intro h
    rcases h with ⟨h4, hlen, htype, hcategory, hdd, horganization, ht⟩
    exact ⟨h4, by omega, by omega, htype, by omega, (hcat hlen).symm.trans hcategory, by omega, hdd,
      by omega, (horg hlen).symm.trans horganization, hlen, ht, by decide⟩

/-- The front of the vendor element that was looked at: only its length is open. -/
theorem EspNowAction.element {p : List UInt8} (h : EspNowAction p) :
    (p.drop (radiotapLength p + 32)).take 6
      = [0xdd, byteAt p (radiotapLength p + 33), 0x18, 0xfe, 0x34, 4] := by
  have hlen := h.length
  have hid : p.getD (radiotapLength p + 32) 0 = 0xdd := h.elementId
  have htype : (p.drop (radiotapLength p + 37)).take (0 + 1) = [4] := by
    rw [take_succ_drop (by omega)]
    exact congrArg (· :: []) h.type
  have htail : (p.drop (radiotapLength p + 34)).take (3 + 1)
      = [0x18, 0xfe, 0x34] ++ (p.drop (radiotapLength p + 37)).take 1 := by
    rw [List.take_add, h.organization, List.drop_drop]
  rw [take_succ_drop (by omega), hid, take_succ_drop (by omega), htail, htype]
  rfl

/-! ## Packets that get through -/

theorem byteAt_append {p t : List UInt8} {i : Nat} (h : i < p.length) :
    byteAt (p ++ t) i = byteAt p i := by
  rw [byteAt, byteAt, List.getD_eq_getElem?_getD, List.getElem?_append_left h,
    List.getD_eq_getElem?_getD]

/-- What follows the type byte is not looked at. -/
theorem EspNowAction.append {p : List UInt8} (h : EspNowAction p) (t : List UInt8) :
    EspNowAction (p ++ t) := by
  have hlen := h.length
  have hheader := h.header
  have hR : radiotapLength (p ++ t) = radiotapLength p := by
    rw [radiotapLength, radiotapLength, byteAt_append (by omega), byteAt_append (by omega)]
  refine ⟨?_, ?_, ?_, ?_, ?_, ?_, ?_⟩
  · rw [List.length_append]; omega
  · rw [hR, List.length_append]; omega
  · rw [hR, byteAt_append (by omega)]; exact h.frameType
  · rw [hR, List.drop_append_of_le_length (by omega),
      List.take_append_of_le_length (by rw [List.length_drop]; omega)]
    exact h.category
  · rw [hR, byteAt_append (by omega)]; exact h.elementId
  · rw [hR, List.drop_append_of_le_length (by omega),
      List.take_append_of_le_length (by rw [List.length_drop]; omega)]
    exact h.organization
  · rw [hR, byteAt_append (by omega)]; exact h.type

/-- What stands in front of a body of 128 bytes behind a radiotap header of 24. -/
def frameHead : List UInt8 :=
  [0, 0, 24, 0] ++ List.replicate 20 0 ++ [0xd0] ++ List.replicate 23 0
    ++ [0x7f, 0x18, 0xfe, 0x34, 0, 0, 0, 0] ++ [0xdd, 133, 0x18, 0xfe, 0x34, 4, 1]

theorem frameHead_accepts (body : List UInt8) :
    Accepts bpfcode (frameHead ++ body) ∧ radiotapLength (frameHead ++ body) = 24 := by
  have h : EspNowAction frameHead :=
    ⟨by decide, by decide, by decide, by decide, by decide, by decide, by decide⟩
  exact ⟨(accepts_iff _).mpr (h.append body), rfl⟩

theorem drop_frameHead (body : List UInt8) : (frameHead ++ body).drop 63 = body :=
  List.drop_left' rfl

end EspNowGateway
