import EspNowGateway.Lib.LineLog
import EspNowGateway.Linux.MqttRecorder

/-!
# What the recorder's file tells

A payload that is no text stops the recorder, a line break makes two lines of one
message, and a comma may belong to the topic or stand behind it. `Plain` excludes just
this, message by message. That nothing else can go wrong is `faithful_iff`: where each
line tells its message, the file tells all of them.
-/

namespace EspNowGateway.Proof

open LineLog MqttRecorder PyGateway

/-- `on_message` writes a line log. -/
theorem onMessages_eq_write (file : List Char) (received : List Arrival) :
    onMessages file received = write '\n' Arrival.record file received := rfl

/--
The recorder gets through what it received. What it prints to the file has a line for
each message, in order, and nothing else received at these times makes it print the same.
-/
def RecordsFaithfully (received : List Arrival) : Prop :=
  ∀ file, ∃ text, onMessages file received = some (file ++ text)
    ∧ received.map Arrival.record = (lines '\n' text).map some
    ∧ ∀ received', received'.map Arrival.now = received.map Arrival.now →
        onMessages file received' = some (file ++ text) → received' = received

/--
A message that a line can tell: text, in one line, and without a comma at which the line
could be cut otherwise. A topic is not empty and holds no NUL, so the comma in front of
one and those behind a NUL are harmless.
-/
def Plain (m : Message) : Prop :=
  ∃ text, decode m.payload = some text ∧ '\n' ∉ m.topic ∧ '\n' ∉ text
    ∧ ',' ∉ m.topic.tail ∧ ',' ∉ text.takeWhile (· ≠ '\x00')

/-! ## One record -/

theorem record_eq_some_iff {a : Arrival} {l : List Char} :
    a.record = some l ↔ ∃ text, decode a.msg.payload = some text
      ∧ l = a.now.strftime ++ ',' :: (a.msg.topic ++ ',' :: text) := by
  refine ⟨fun h => ?_, fun h => ?_⟩
  · rcases Option.map_eq_some_iff.mp h with ⟨text, hdecode, hl⟩
    exact ⟨text, hdecode, hl.symm.trans (List.append_assoc ..)⟩
  · rcases h with ⟨text, hdecode, hl⟩
    exact Option.map_eq_some_iff.mpr ⟨text, hdecode, (List.append_assoc ..).trans hl.symm⟩

theorem newline_not_mem_record_iff {a : Arrival} {text : List Char} :
    '\n' ∉ a.now.strftime ++ ',' :: (a.msg.topic ++ ',' :: text)
      ↔ '\n' ∉ a.msg.topic ∧ '\n' ∉ text := by
  have htime := newline_not_mem_strftime a.now
  have hcomma : '\n' ≠ ',' := by decide
  simp only [List.mem_append, List.mem_cons, htime, hcomma, false_or, not_or]

/-- What was received instead, had the line been cut after `topic'`. -/
def recut (a : Arrival) (topic' text' : List Char) (h : topic' ≠ [] ∧ '\x00' ∉ topic') :
    Arrival :=
  ⟨a.now, topic', utf8 text', h⟩

/-- Another cut of the same line is the line of another message. -/
theorem not_told_of_recut {a : Arrival} {text topic' text' : List Char}
    (hdecode : decode a.msg.payload = some text) (hlegal : topic' ≠ [] ∧ '\x00' ∉ topic')
    (hcut : topic' ++ ',' :: text' = a.msg.topic ++ ',' :: text) (hne : topic' ≠ a.msg.topic) :
    ¬ Told '\n' Arrival.record Arrival.now a := by
  intro h
  rcases h with ⟨l, hl, _, hunique⟩
  obtain ⟨text₀, hdecode₀, rfl⟩ := record_eq_some_iff.mp hl
  obtain rfl : text = text₀ := Option.some.inj (hdecode.symm.trans hdecode₀)
  have hrecord : (recut a topic' text' hlegal).record
      = some (a.now.strftime ++ ',' :: (a.msg.topic ++ ',' :: text)) := by
    rw [← hcut]
    exact record_eq_some_iff.mpr ⟨text', decode_utf8 text', rfl⟩
  exact hne (congrArg (·.msg.topic) (hunique (recut a topic' text' hlegal) rfl hrecord))

/-- A topic may as well end in front of a comma in it, as long as something is left of it. -/
theorem comma_not_mem_tail_of_told {a : Arrival} {text : List Char}
    (hdecode : decode a.msg.payload = some text) (h : Told '\n' Arrival.record Arrival.now a) :
    ',' ∉ a.msg.topic.tail := by
  intro hcomma
  obtain ⟨hne, hnul⟩ := a.msg.legal
  obtain ⟨u, v, htail⟩ := List.append_of_mem hcomma
  have hcons : a.msg.topic = a.msg.topic.head hne :: u ++ ',' :: v := by
    rw [List.cons_append, ← htail, List.cons_head_tail]
  have hlegal : a.msg.topic.head hne :: u ≠ [] ∧ '\x00' ∉ a.msg.topic.head hne :: u := by
    refine ⟨List.cons_ne_nil _ _, fun hmem => hnul ?_⟩
    rw [hcons]
    exact List.mem_append_left _ hmem
  have hcut : (a.msg.topic.head hne :: u) ++ ',' :: (v ++ ',' :: text) = a.msg.topic ++ ',' :: text :=
    append_sep_eq_iff.mpr (Or.inr (Or.inl ⟨v, hcons, rfl⟩))
  refine not_told_of_recut hdecode hlegal hcut (fun he => ?_) h
  exact absurd (he.trans hcons) (by simp)

/-- And it may go on to a comma in the payload, as long as no NUL comes before that. -/
theorem comma_not_mem_takeWhile_of_told {a : Arrival} {text : List Char}
    (hdecode : decode a.msg.payload = some text) (h : Told '\n' Arrival.record Arrival.now a) :
    ',' ∉ text.takeWhile (· ≠ '\x00') := by
  intro hcomma
  obtain ⟨hne, hnul⟩ := a.msg.legal
  obtain ⟨u, v, htake⟩ := List.append_of_mem hcomma
  have htext : text = u ++ ',' :: (v ++ text.dropWhile (· ≠ '\x00')) := by
    rw [← List.cons_append, ← List.append_assoc, ← htake, List.takeWhile_append_dropWhile]
  have hu : '\x00' ∉ u := by
    intro hmem
    have hkept := List.mem_takeWhile_imp (htake ▸ List.mem_append_left _ hmem)
    simp at hkept
  have hlegal : a.msg.topic ++ ',' :: u ≠ [] ∧ '\x00' ∉ a.msg.topic ++ ',' :: u := by
    refine ⟨List.append_ne_nil_of_left_ne_nil hne _, ?_⟩
    rw [List.mem_append, List.mem_cons]
    intro hmem
    rcases hmem with hmem | hc | hmem
    · exact hnul hmem
    · cases hc
    · exact hu hmem
  have hcut : (a.msg.topic ++ ',' :: u) ++ ',' :: (v ++ text.dropWhile (· ≠ '\x00'))
      = a.msg.topic ++ ',' :: text := append_sep_eq_iff.mpr (Or.inr (Or.inr ⟨u, rfl, htext⟩))
  refine not_told_of_recut hdecode hlegal hcut (fun he => ?_) h
  exact absurd he (by simp)

theorem plain_of_told {a : Arrival} (h : Told '\n' Arrival.record Arrival.now a) : Plain a.msg := by
  obtain ⟨l, hl, hnl, _⟩ := id h
  obtain ⟨text, hdecode, rfl⟩ := record_eq_some_iff.mp hl
  obtain ⟨htopic, htext⟩ := newline_not_mem_record_iff.mp hnl
  exact ⟨text, hdecode, htopic, htext, comma_not_mem_tail_of_told hdecode h,
    comma_not_mem_takeWhile_of_told hdecode h⟩

theorem told_of_plain {a : Arrival} (h : Plain a.msg) : Told '\n' Arrival.record Arrival.now a := by
  obtain ⟨text, hdecode, htopic, htext, htail, htake⟩ := h
  refine ⟨_, record_eq_some_iff.mpr ⟨text, hdecode, rfl⟩,
    newline_not_mem_record_iff.mpr ⟨htopic, htext⟩, fun a' hnow hrecord => ?_⟩
  obtain ⟨text', hdecode', hline⟩ := record_eq_some_iff.mp hrecord
  rw [hnow] at hline
  have hcut : a'.msg.topic ++ ',' :: text' = a.msg.topic ++ ',' :: text :=
    (List.cons.inj (List.append_cancel_left hline)).2.symm
  rcases append_sep_eq_iff.mp hcut with ⟨hsame, rfl⟩ | ⟨u, hearly, _⟩ | ⟨u, hlate, htext'⟩
  · refine Arrival.ext hnow (Message.ext hsame ?_)
    rw [decode_eq_some_iff.mp hdecode, decode_eq_some_iff.mp hdecode']
  · -- the comma would be in the topic, and not in front
    refine absurd ?_ htail
    obtain ⟨c, rest, hc⟩ := List.exists_cons_of_ne_nil a'.msg.legal.1
    rw [hearly, hc]
    exact List.mem_append_right _ (List.mem_cons_self ..)
  · -- the comma would be in the payload, with no NUL before it
    refine absurd ?_ htake
    have hu : ∀ c ∈ u, c ≠ '\x00' := by
      intro c hc he
      rw [he] at hc
      exact a'.msg.legal.2 (hlate ▸ List.mem_append_right _ (List.mem_cons_of_mem _ hc))
    rw [htext', List.takeWhile_append_of_pos (by simpa using hu)]
    simp

/-! ## The file -/

/-- **The file tells what was received exactly when every message is plain.** -/
theorem recordsFaithfully_iff (received : List Arrival) :
    RecordsFaithfully received ↔ ∀ a ∈ received, Plain a.msg := by
  have hfaithful : RecordsFaithfully received
      ↔ Faithful '\n' Arrival.record Arrival.now received := by
    simp only [RecordsFaithfully, onMessages_eq_write, Faithful]
  rw [hfaithful, faithful_iff]
  exact forall₂_congr fun a _ => ⟨plain_of_told, told_of_plain⟩

/-- A message that is received at noon. -/
def atNoon (topic : List Char) (payload : List UInt8) (h : topic ≠ [] ∧ '\x00' ∉ topic) : Arrival :=
  ⟨⟨2026, 1, 1, 12, 0, 0⟩, topic, payload, h⟩

/--
A byte that is no text stops the recorder, a line break makes two lines, and a comma
can belong to the topic or to the payload.
-/
theorem not_recordsFaithfully :
    (onMessages [] [atNoon ['t'] [0xff] (by decide)] = none
      ∧ ¬ RecordsFaithfully [atNoon ['t'] [0xff] (by decide)])
    ∧ ((onMessages [] [atNoon ['t'] [0x78, 0x0a, 0x79] (by decide)]).map
          (fun text => (lines '\n' text).length) = some 2
      ∧ ¬ RecordsFaithfully [atNoon ['t'] [0x78, 0x0a, 0x79] (by decide)])
    ∧ (onMessages [] [atNoon ['a', ',', 'b'] [0x63] (by decide)]
        = onMessages [] [atNoon ['a'] [0x62, 0x2c, 0x63] (by decide)]
      ∧ ¬ RecordsFaithfully [atNoon ['a', ',', 'b'] [0x63] (by decide)]) := by
  have hstop : onMessages [] [atNoon ['t'] [0xff] (by decide)] = none := rfl
  have htwo : (onMessages [] [atNoon ['t'] [0x78, 0x0a, 0x79] (by decide)]).map
      (fun text => (lines '\n' text).length) = some 2 := rfl
  have hsame : onMessages [] [atNoon ['a', ',', 'b'] [0x63] (by decide)]
      = onMessages [] [atNoon ['a'] [0x62, 0x2c, 0x63] (by decide)] := rfl
  refine ⟨⟨hstop, fun h => ?_⟩, ⟨htwo, fun h => ?_⟩, hsame, fun h => ?_⟩
  · obtain ⟨text, hfile, _⟩ := h []
    rw [hstop] at hfile
    cases hfile
  · obtain ⟨text, hfile, hlines, _⟩ := h []
    have hlen := congrArg List.length hlines
    rw [hfile, List.nil_append, Option.map_some] at htwo
    rw [List.length_map, List.length_map, Option.some.inj htwo] at hlen
    cases hlen
  · obtain ⟨text, hfile, _, hunique⟩ := h []
    cases hunique [atNoon ['a'] [0x62, 0x2c, 0x63] (by decide)] rfl (hsame ▸ hfile)

end EspNowGateway.Proof
