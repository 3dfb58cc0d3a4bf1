import EspNowGateway.Lib.CObject

/-!
# The Linux gateway in Python

`callback` walks each field by index, at most 64 bytes of it, and stops at a zero.
An index behind the end of `msg` raises, and then nothing is published. The
characters it collects are `chr` of the bytes; the MQTT client encodes them as
UTF-8 on their way out.
-/

namespace EspNowGateway.PyGateway

open CObject

/-- One of the two loops, over the indices still to come, with the list so far. -/
def scanField (msg : List UInt8) (acc : List Char) : List Nat → Option (List Char)
  | [] => some acc
  | i :: rest =>
      match msg[i]? with
      | none => none
      | some b => if b = 0 then some acc else scanField msg (acc ++ [Char.ofNat b.toNat]) rest

/-- What `mqttc.publish` makes of a string. -/
def utf8 (s : List Char) : List UInt8 := s.flatMap String.utf8EncodeChar

/-- `callback`: the topic and the payload handed to `mqttc.publish`. -/
def callback (msg : List UInt8) : Option (List UInt8 × List UInt8) := do
  let topic ← scanField msg [] (List.range 64)
  let payload ← scanField msg [] ((List.range 64).map (· + 64))
  some (utf8 topic, utf8 payload)

/-! ## What the loops collect -/

/-- A loop over indices inside `msg` collects the bytes before the first zero among them. -/
theorem scanField_eq {msg : List UInt8} {is : List Nat} (acc : List Char)
    (h : ∀ i ∈ is, i < msg.length) :
    scanField msg acc is
      = some (acc ++ (cstr (is.map fun i => msg.getD i 0)).map fun b => Char.ofNat b.toNat) := by
  induction is generalizing acc with
  | nil => simp [scanField, cstr]
  | cons i is ih =>
      have hi : i < msg.length := h i (List.mem_cons_self ..)
      rw [scanField, List.getElem?_eq_getElem hi]
      have hd : msg.getD i 0 = msg[i] := by simp [hi]
      rw [List.map_cons, hd]
      by_cases hz : msg[i] = 0
      · simp [cstr, hz]
      · have hrest := ih (acc ++ [Char.ofNat msg[i].toNat]) fun j hj =>
          h j (List.mem_cons_of_mem i hj)
        simp only [if_neg hz, hrest]
        simp [cstr, hz]

/-- The indices of a field, in order, are the field. -/
theorem field_eq {msg : List UInt8} {off : Nat} (h : off + 64 ≤ msg.length) :
    ((List.range 64).map (· + off)).map (fun i => msg.getD i 0) = (msg.drop off).take 64 := by
  apply List.ext_getElem
  · simp; omega
  · intro i h₁ h₂
    have hi : i < 64 := by simpa using h₁
    simp [List.getElem?_eq_getElem (show off + i < msg.length by omega), Nat.add_comm]

/-- `chr` of a byte. -/
theorem chr_val (b : UInt8) : (Char.ofNat b.toNat).val.toNat = b.toNat := by
  have hvalid : b.toNat.isValidChar := Or.inl (by have := b.toNat_lt; omega)
  rw [Char.ofNat, dif_pos hvalid]
  rfl

/-- A character below 128 is one byte on the wire, and the same. -/
theorem utf8_ascii {m : List UInt8} (h : ∀ b ∈ m, b < 0x80) :
    utf8 (m.map fun b => Char.ofNat b.toNat) = m := by
  induction m with
  | nil => rfl
  | cons b m ih =>
      have hb : b.toNat < 128 := UInt8.lt_iff_toNat_lt.mp (h b (List.mem_cons_self ..))
      have henc : String.utf8EncodeChar (Char.ofNat b.toNat) = [b] := by
        rw [String.utf8EncodeChar, chr_val, if_pos (by omega), UInt8.ofNat_toNat]
      rw [utf8, List.map_cons, List.flatMap_cons, henc]
      exact congrArg (b :: ·) (ih fun c hc => h c (List.mem_cons_of_mem b hc))

/-- A character from 128 on is two bytes. -/
theorem utf8EncodeChar_length (b : UInt8) :
    (String.utf8EncodeChar (Char.ofNat b.toNat)).length = if b < 0x80 then 1 else 2 := by
  have hlt := b.toNat_lt
  have hb : b < 0x80 ↔ b.toNat < 128 := UInt8.lt_iff_toNat_lt
  rw [String.utf8EncodeChar, chr_val]
  by_cases h : b.toNat < 128
  · rw [if_pos (by omega), if_pos (hb.mpr h)]
    rfl
  · rw [if_neg (by omega), if_pos (by omega), if_neg (fun hc => h (hb.mp hc))]
    rfl

/-- The encoding is longer than what was encoded by the number of bytes from 128 on. -/
theorem utf8_length (m : List UInt8) :
    (utf8 (m.map fun b => Char.ofNat b.toNat)).length
      = m.length + m.countP fun b => decide (¬ b < 0x80) := by
  induction m with
  | nil => rfl
  | cons b m ih =>
      rw [utf8] at ih ⊢
      rw [List.map_cons, List.flatMap_cons, List.length_append, ih, utf8EncodeChar_length,
        List.length_cons, List.countP_cons]
      by_cases hb : b < 0x80
      · simp only [hb, not_true, decide_false, if_true, Bool.false_eq_true, if_false]
        omega
      · simp only [hb, not_false_eq_true, decide_true, if_false, if_true]
        omega

/-- **The encoding is the identity on the lower half of the byte values, and only there.** -/
theorem utf8_eq_self_iff (m : List UInt8) :
    utf8 (m.map fun b => Char.ofNat b.toNat) = m ↔ ∀ b ∈ m, b < 0x80 := by
  constructor
  · intro h b hb
    have hlen := utf8_length m
    rw [h] at hlen
    have hnone : m.countP (fun b => decide (¬ b < 0x80)) = 0 := by omega
    have hnot := List.countP_eq_zero.mp hnone b hb
    simpa using hnot
  · exact utf8_ascii

/-- **What is published for a message of at least two fields.** -/
theorem callback_eq {msg : List UInt8} (h : 128 ≤ msg.length) :
    callback msg = some
      (utf8 ((cstr (msg.take 64)).map fun b => Char.ofNat b.toNat),
        utf8 ((cstr ((msg.drop 64).take 64)).map fun b => Char.ofNat b.toNat)) := by
  have hscan (off : Nat) (hoff : off + 64 ≤ msg.length) :
      scanField msg [] ((List.range 64).map (· + off))
        = some ((cstr ((msg.drop off).take 64)).map fun b => Char.ofNat b.toNat) := by
    rw [scanField_eq [] (by simp; omega), field_eq hoff, List.nil_append]
  have htopic := hscan 0 (by omega)
  simp only [Nat.add_zero, List.map_id', List.drop_zero] at htopic
  simp only [callback, htopic, hscan 64 h, bind, Option.bind]

end EspNowGateway.PyGateway
