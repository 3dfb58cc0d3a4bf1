import EspNowGateway.Linux.PyGateway

/-!
# The MQTT recorder

`on_message` puts the time, the topic and the payload on a line, with commas between
them, and prints the line to the end of a file. The payload has to be text: `decode`
raises where the bytes are no UTF-8, and then nothing is printed.
-/

namespace EspNowGateway.MqttRecorder

open PyGateway

/-! ## Time -/

/-- `datetime.datetime`, to the second. -/
structure DateTime where
  year : Nat
  month : Nat
  day : Nat
  hour : Nat
  minute : Nat
  second : Nat
  deriving DecidableEq, Repr

/-- A number in two digits at least. -/
def twoDigits (n : Nat) : List Char :=
  if n < 10 then '0' :: Nat.toDigits 10 n else Nat.toDigits 10 n

/-- `strftime('%Y%m%d,%H%M%S')`. -/
def DateTime.strftime (now : DateTime) : List Char :=
  Nat.toDigits 10 now.year ++ twoDigits now.month ++ twoDigits now.day ++ ',' ::
    twoDigits now.hour ++ twoDigits now.minute ++ twoDigits now.second

theorem isDigit_of_mem_twoDigits {n : Nat} {c : Char} (h : c ∈ twoDigits n) : c.isDigit := by
  unfold twoDigits at h
  split at h
  · rcases List.mem_cons.mp h with rfl | hrest
    · rfl
    · exact Nat.isDigit_of_mem_toDigits (by decide) (by decide) hrest
  · exact Nat.isDigit_of_mem_toDigits (by decide) (by decide) h

/-- A time is digits and a comma. -/
theorem strftime_chars {now : DateTime} {c : Char} (h : c ∈ now.strftime) : c.isDigit ∨ c = ',' := by
  simp only [DateTime.strftime, List.mem_append, List.mem_cons] at h
  rcases h with ((((h | h) | h) | h | h) | h) | h
  · exact Or.inl (Nat.isDigit_of_mem_toDigits (by decide) (by decide) h)
  · exact Or.inl (isDigit_of_mem_twoDigits h)
  · exact Or.inl (isDigit_of_mem_twoDigits h)
  · exact Or.inr h
  · exact Or.inl (isDigit_of_mem_twoDigits h)
  · exact Or.inl (isDigit_of_mem_twoDigits h)
  · exact Or.inl (isDigit_of_mem_twoDigits h)

theorem newline_not_mem_strftime (now : DateTime) : '\n' ∉ now.strftime := by
  intro h
  rcases strftime_chars h with hd | hc
  · cases hd
  · cases hc

/-! ## Messages -/

/-- What the client hands to `on_message`. A topic has a character at least, and no NUL. -/
@[ext]
structure Message where
  topic : List Char
  payload : List UInt8
  legal : topic ≠ [] ∧ '\x00' ∉ topic

/-- A message, and the time at which `on_message` is called for it. -/
@[ext]
structure Arrival where
  now : DateTime
  msg : Message

/-- `msg.payload.decode('utf-8')`, none where it raises. -/
def decode (payload : List UInt8) : Option (List Char) :=
  payload.toByteArray.utf8Decode?.map Array.toList

/-- `record`, none where `decode` raises. -/
def Arrival.record (a : Arrival) : Option (List Char) :=
  (decode a.msg.payload).map fun text => a.now.strftime ++ ',' :: a.msg.topic ++ ',' :: text

/-- `on_message`: the file with the record printed to its end, none where it raises. -/
def onMessage (file : List Char) (a : Arrival) : Option (List Char) :=
  a.record.map fun record => file ++ record ++ ['\n']

/-- `loop_forever`: `on_message` for one message after the other, none when one of them raises. -/
def onMessages (file : List Char) (received : List Arrival) : Option (List Char) :=
  received.foldlM onMessage file

/-! ## Decoding -/

theorem decode_utf8 (s : List Char) : decode (utf8 s) = some s := by
  rw [decode, show (utf8 s).toByteArray = s.utf8Encode from rfl, List.utf8Decode?_utf8Encode]
  rfl

/-- A payload that can be decoded is the encoding of what it is decoded to. -/
theorem decode_eq_some_iff {payload : List UInt8} {s : List Char} :
    decode payload = some s ↔ payload = utf8 s := by
  refine ⟨fun h => ?_, fun h => ?_⟩
  · rcases Option.map_eq_some_iff.mp h with ⟨chars, hchars, rfl⟩
    have hsome : payload.toByteArray.utf8Decode?.isSome := by rw [hchars]; rfl
    have hback := ByteArray.utf8Encode_get_utf8Decode? (h := hsome)
    simp only [hchars, Option.get_some] at hback
    exact (List.toByteArray_inj.mp hback).symm
  · rw [h]
    exact decode_utf8 s

end EspNowGateway.MqttRecorder
