import EspNowGateway.Esp8266.Sketch
import EspNowGateway.Lib.CObject
import EspNowGateway.Lib.LineLog

/-!
# What the sketches send

Both sketches keep the packet in a global, and put two strings into it for each send:
the topic, which is always the same, and a line with the time and the supply voltage.
`strcpy` and `sprintf` write up to a terminator, so what an earlier and longer string
left behind it stays where it was, and is sent along.

A `Sender` is a board with that global. The values are set between the test of the
interval and the clearing of the flag, and no callback looks at them; both are one step
here. What was set last is ghost, and so are the two records of packets: those that were
handed to `esp_now_send`, and those of them that it accepted.
-/

namespace EspNowGateway

open CObject LineLog

/-- The bytes of a text in ASCII. -/
def ascii (s : List Char) : List UInt8 := s.map fun c => UInt8.ofNat c.toNat

/-- `MQTT_TOPIC`. -/
def mqttTopic : List Char := ['/', 'm', 'q', 't', 't', '/', 'e', 's', 'p', 'n', 'o', 'w']

/-- What a packet tells: a time, and what `ESP.getVcc()` returned. -/
structure Reading where
  time : UInt32
  vcc : UInt16
  deriving DecidableEq, Repr

/-- `"Hello %lu %d"`. -/
def Reading.text (r : Reading) : List Char :=
  ['H', 'e', 'l', 'l', 'o', ' '] ++ Nat.toDigits 10 r.time.toNat
    ++ ' ' :: Nat.toDigits 10 r.vcc.toNat

/-- `struct_message`: `char topic[64]` at 0, `char payload[64]` at 64. -/
abbrev StructMessage := Buf 128

namespace StructMessage

def topicOff : Nat := 0

def payloadOff : Nat := 64

/-- "Set values to send". -/
def setValues (myData : StructMessage) (r : Reading) : Option StructMessage := do
  let myData ← myData.memcpy topicOff (ascii mqttTopic ++ [0])
  myData.memcpy payloadOff (ascii r.text ++ [0])

end StructMessage

/-- The time that a sketch sends: the one it has stored, or the one it reads then. -/
def Sketch.timeSent : Sketch → Board → Nat → UInt32
  | .controller, b, _ => b.lastTime
  | .deepSleep, _, t => millis t

/-- A board with its packet; and what was set last, each packet handed over and each sent, as ghosts. -/
structure Sender where
  board : Board
  myData : StructMessage
  reading : Reading
  handed : List (Reading × List UInt8)
  sent : List (Reading × List UInt8)

/-- Globals start zeroed. -/
def Sender.boot : Sender where
  board := Board.boot
  myData := Buf.fill 128 0
  reading := ⟨0, 0⟩
  handed := []
  sent := []

inductive SenderLabel where
  /-- The values are set, with a time for the sketch that reads it, and the flag is cleared. -/
  | setValues (t : Nat) (vcc : UInt16)
  /-- Any other statement. -/
  | other (l : SketchLabel)
  deriving DecidableEq, Repr

/-- The statements of a sketch, with what they do to the packet. -/
def senderStep (sketch : Sketch) (s : Sender) : SenderLabel → Option Sender
  | .setValues t vcc =>
      (sketchStep sketch s.board .clear).bind fun board =>
        (s.myData.setValues ⟨sketch.timeSent s.board t, vcc⟩).map fun myData =>
          { s with board := board, myData := myData, reading := ⟨sketch.timeSent s.board t, vcc⟩ }
  | .other l =>
      match l with
      | .clear => none
      | .send accepted =>
          (sketchStep sketch s.board (.send accepted)).map fun board =>
            { s with
              board := board, handed := s.handed ++ [(s.reading, s.myData.bytes)]
              sent := if accepted then s.sent ++ [(s.reading, s.myData.bytes)] else s.sent }
      | .wakeUp =>
          -- deep sleep does not keep the memory
          (sketchStep sketch s.board .wakeUp).map fun board =>
            { s with board := board, myData := Buf.fill 128 0 }
      | l => (sketchStep sketch s.board l).map fun board => { s with board := board }

/-! ## What one step can do -/

/-- Every effect a step can have. -/
inductive SenderStep (sketch : Sketch) (s : Sender) : SenderLabel → Sender → Prop where
  | setValues (t : Nat) (vcc : UInt16) (myData : StructMessage) : s.board.pc = .clearing →
      s.myData.setValues ⟨sketch.timeSent s.board t, vcc⟩ = some myData →
      SenderStep sketch s (.setValues t vcc)
        { s with
          board := { s.board with pc := .sending, espNowSendStatus := false }, myData := myData
          reading := ⟨sketch.timeSent s.board t, vcc⟩ }
  | send (accepted : Bool) (board : Board) : s.board.pc = .sending → board.pc = .waiting →
      board.stored = s.board.stored →
      SenderStep sketch s (.other (.send accepted))
        { s with
          board := board, handed := s.handed ++ [(s.reading, s.myData.bytes)]
          sent := if accepted then s.sent ++ [(s.reading, s.myData.bytes)] else s.sent }
  | wakeUp : s.board.pc = .sleeping →
      SenderStep sketch s (.other .wakeUp) { s with board := Board.boot, myData := Buf.fill 128 0 }
  | other (l : SketchLabel) (board : Board) : SketchStep sketch s.board l board →
      l ≠ .clear → (∀ accepted, l ≠ .send accepted) → l ≠ .wakeUp →
      SenderStep sketch s (.other l) { s with board := board }

theorem senderStep_cases {sketch : Sketch} {s s' : Sender} {l : SenderLabel}
    (h : senderStep sketch s l = some s') : SenderStep sketch s l s' := by
  have hother {k : SketchLabel} {g : Board → Sender}
      (hk : (sketchStep sketch s.board k).map g = some s') :
      ∃ board, SketchStep sketch s.board k board ∧ g board = s' := by
    obtain ⟨board, hboard, hs⟩ := Option.map_eq_some_iff.mp hk
    exact ⟨board, sketchStep_cases hboard, hs⟩
  cases l with
  | setValues t vcc =>
      obtain ⟨board, hboard, hset⟩ := Option.bind_eq_some_iff.mp h
      obtain ⟨myData, hd, rfl⟩ := Option.map_eq_some_iff.mp hset
      cases sketchStep_cases hboard with
      | clear hpc => exact .setValues t vcc myData hpc hd
  | other k =>
      cases k with
      | clear => cases h
      | send accepted =>
          obtain ⟨board, hstep, rfl⟩ := hother h
          cases hstep with
          | accepted hpc hready => exact .send true _ hpc rfl rfl
          | rejected hpc => exact .send false _ hpc rfl rfl
      | wakeUp =>
          obtain ⟨board, hstep, rfl⟩ := hother h
          cases hstep with
          | wakeUp hpc => exact .wakeUp hpc
      | _ =>
          obtain ⟨board, hstep, rfl⟩ := hother h
          exact .other _ board hstep SketchLabel.noConfusion (fun _ => SketchLabel.noConfusion)
            SketchLabel.noConfusion

/-! ## Text -/

/-- A text that a C string can hold, in ASCII. -/
def Printable (s : List Char) : Prop := ∀ c ∈ s, c ≠ '\x00' ∧ c.toNat < 128

theorem Printable.append {s t : List Char} (hs : Printable s) (ht : Printable t) :
    Printable (s ++ t) := by
  intro c hc
  rcases List.mem_append.mp hc with h | h
  · exact hs c h
  · exact ht c h

theorem printable_digits (n : Nat) : Printable (Nat.toDigits 10 n) := by
  intro c hc
  have hdigit : c.isDigit := Nat.isDigit_of_mem_toDigits (by decide) (by decide) hc
  obtain ⟨hlo, hhi⟩ := Char.isDigit_iff_toNat.mp hdigit
  have hhi' : c.toNat ≤ 57 := hhi
  refine ⟨fun he => ?_, by omega⟩
  rw [he] at hdigit
  cases hdigit

theorem toNat_ascii {c : Char} (h : c.toNat < 128) : (UInt8.ofNat c.toNat).toNat = c.toNat := by
  rw [UInt8.toNat_ofNat']
  exact Nat.mod_eq_of_lt (by omega)

theorem zero_not_mem_ascii {s : List Char} (h : Printable s) : 0 ∉ ascii s := by
  intro hmem
  obtain ⟨c, hc, hzero⟩ := List.mem_map.mp hmem
  obtain ⟨hne, hlt⟩ := h c hc
  have hnat := congrArg UInt8.toNat hzero
  rw [toNat_ascii hlt] at hnat
  exact hne (Char.ext (UInt32.toNat_inj.mp hnat))

theorem ascii_length (s : List Char) : (ascii s).length = s.length := List.length_map ..

theorem printable_mqttTopic : Printable mqttTopic := by
  simp [Printable, mqttTopic]

theorem Reading.printable_text (r : Reading) : Printable r.text := by
  have hhello : Printable ['H', 'e', 'l', 'l', 'o', ' '] := by simp [Printable]
  have hspace : Printable [' '] := by simp [Printable]
  exact (hhello.append (printable_digits _)).append (hspace.append (printable_digits _))

/-- "Hello ", ten digits of milliseconds, a space and five digits of millivolts. -/
theorem Reading.text_length_le (r : Reading) : r.text.length ≤ 22 := by
  have htime : (Nat.toDigits 10 r.time.toNat).length ≤ 10 := by
    refine (Nat.length_toDigits_le_iff (by decide) (by decide)).mpr ?_
    exact Nat.lt_of_lt_of_le r.time.toNat_lt (by decide)
  have hvcc : (Nat.toDigits 10 r.vcc.toNat).length ≤ 5 := by
    refine (Nat.length_toDigits_le_iff (by decide) (by decide)).mpr ?_
    exact Nat.lt_of_lt_of_le r.vcc.toNat_lt (by decide)
  simp only [Reading.text, List.length_append, List.length_cons, List.length_nil]
  omega

theorem space_not_mem_digits (n : Nat) : ' ' ∉ Nat.toDigits 10 n := by
  intro h
  have hdigit : ' '.isDigit := Nat.isDigit_of_mem_toDigits (by decide) (by decide) h
  cases hdigit

theorem digits_injective {n n' : Nat} (h : Nat.toDigits 10 n = Nat.toDigits 10 n') : n = n' := by
  rw [← Nat.ofDigitChars_ten_toDigits (n := n), h, Nat.ofDigitChars_ten_toDigits]

/-- **A reading can be read back off its line.** -/
theorem Reading.text_injective {r r' : Reading} (h : r.text = r'.text) : r = r' := by
  have hcut : Nat.toDigits 10 r.time.toNat ++ ' ' :: Nat.toDigits 10 r.vcc.toNat
      = Nat.toDigits 10 r'.time.toNat ++ ' ' :: Nat.toDigits 10 r'.vcc.toNat := by
    simpa only [Reading.text, List.append_assoc, List.append_cancel_left_eq] using h
  -- the space is the only one behind "Hello "
  rcases append_sep_eq_iff.mp hcut with ⟨htime, hvcc⟩ | ⟨u, hlate, _⟩ | ⟨u, hearly, _⟩
  · cases r
    cases r'
    simp only [Reading.mk.injEq]
    exact ⟨UInt32.toNat_inj.mp (digits_injective htime),
      UInt16.toNat_inj.mp (digits_injective hvcc)⟩
  · refine absurd ?_ (space_not_mem_digits r'.time.toNat)
    rw [hlate]
    exact List.mem_append_right _ (List.mem_cons_self ..)
  · refine absurd ?_ (space_not_mem_digits r.time.toNat)
    rw [hearly]
    exact List.mem_append_right _ (List.mem_cons_self ..)

/-! ## The packet -/

/-- A packet that spells the topic and a reading. -/
structure Spells (bytes : List UInt8) (r : Reading) : Prop where
  whole : bytes.length = 128
  topic : 0 ∈ bytes.take 64 ∧ cstr (bytes.take 64) = ascii mqttTopic
  payload : 0 ∈ bytes.drop 64 ∧ cstr (bytes.drop 64) = ascii r.text

/-- A string that was found within a field, and is that of the field. -/
theorem cstr_of_str {n : Nat} {b : Buf n} {off : Nat} {s : List UInt8} (h : off + 64 ≤ n)
    (hstr : b.str off = some s) (hlen : s.length < 64) :
    0 ∈ b.slice off 64 ∧ cstr (b.slice off 64) = s := by
  have hmem : 0 ∈ b.slice off 64 := by
    refine (Buf.str_within_iff h).mp ⟨s, hstr, ?_⟩
    rw [List.length_append, List.length_singleton]
    exact hlen
  rw [Buf.str_of_mem_slice hmem] at hstr
  exact ⟨hmem, Option.some.inj hstr⟩

/-- **Both strings fit their fields, whatever the packet held before.** -/
theorem setValues_spec (myData : StructMessage) (r : Reading) :
    ∃ d, myData.setValues r = some d ∧ Spells d.bytes r := by
  have htext := r.text_length_le
  have ftopic : StructMessage.topicOff + (ascii mqttTopic ++ [0]).length ≤ 128 := by decide
  have fpayload : StructMessage.payloadOff + (ascii r.text ++ [0]).length ≤ 128 := by
    rw [List.length_append, ascii_length, List.length_singleton, StructMessage.payloadOff]
    omega
  refine ⟨(myData.write _ _ ftopic).write _ _ fpayload, ?_, ?_, ?_, ?_⟩
  · simp only [StructMessage.setValues, Buf.memcpy_of_le _ ftopic, bind, Option.bind,
      Buf.memcpy_of_le _ fpayload]
  · exact Buf.size_eq _
  · have hstr := Buf.str_write_terminated myData ftopic (zero_not_mem_ascii printable_mqttTopic)
    exact cstr_of_str (show StructMessage.topicOff + 64 ≤ 128 by decide)
      (Buf.str_write_disjoint _ fpayload hstr (Or.inl (by decide))) (by decide)
  · have hstr := Buf.str_write_terminated (myData.write _ _ ftopic) fpayload
      (zero_not_mem_ascii r.printable_text)
    have hfield := cstr_of_str (show StructMessage.payloadOff + 64 ≤ 128 by decide) hstr
      (by rw [ascii_length]; omega)
    rw [Buf.drop_eq_slice]
    exact hfield

end EspNowGateway
