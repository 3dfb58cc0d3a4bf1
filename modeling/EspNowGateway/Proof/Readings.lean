import EspNowGateway.Esp8266.MyData
import EspNowGateway.Proof.Agree
import EspNowGateway.Proof.Order
import EspNowGateway.Proof.Recorder

/-!
# From the sketch to the file

A reading is put into a packet by a sketch, taken out of it by a gateway and put on a
line by the recorder. Each of them handles strings of any length and any bytes, not
always well; the strings that the sketches send are short, in ASCII and without a comma
or a line break, so none of what can go wrong on the way does.

`sent_are_readings` says so for the packets, `gateways_publish_readings` for the three
gateways, and `readings_recorded` for the file: each of its lines is a reading that a
sketch sent, and can be read back.
-/

namespace EspNowGateway.Proof

open EspNowGateway CObject LineLog TransitionSystem

/-! ## The packets -/

/-- The time that is about to be sent. -/
def pendingTimes (b : Board) : List UInt32 :=
  if b.pc = .clearing ∨ b.pc = .sending then [b.lastTime] else []

/-- The times in the packets that were handed over. -/
def timesHanded (s : Sender) : List UInt32 := s.handed.map fun p => p.1.time

/-- What is used of the packet between two sends. -/
structure Composed (s : Sender) : Prop where
  set : s.board.pc = .sending → Spells s.myData.bytes s.reading
  handed : ∀ p ∈ s.handed, Spells p.2 p.1
  sent : s.sent.Sublist s.handed

theorem composed_boot : Composed Sender.boot :=
  ⟨SketchPc.noConfusion, fun _ hp => absurd hp List.not_mem_nil, List.Sublist.refl _⟩

theorem composed_step {sketch : Sketch} {s s' : Sender} {l : SenderLabel} (h : Composed s)
    (hs : SenderStep sketch s l s') : Composed s' := by
  cases hs with
  | setValues t vcc myData hpc hset =>
      obtain ⟨d, hd, hspells⟩ := setValues_spec s.myData ⟨sketch.timeSent s.board t, vcc⟩
      obtain rfl : d = myData := Option.some.inj (hd.symm.trans hset)
      exact ⟨fun _ => hspells, h.handed, h.sent⟩
  | send accepted board hpc hwaiting _ =>
      refine ⟨fun hsending => ?_, fun p hp => ?_, ?_⟩
      · rw [hwaiting] at hsending
        cases hsending
      · rcases List.mem_append.mp hp with hold | hnew
        · exact h.handed p hold
        · rw [List.mem_singleton.mp hnew]
          exact h.set hpc
      · cases accepted with
        | true => exact h.sent.append_right _
        | false => exact h.sent.trans (List.sublist_append_left _ _)
  | wakeUp hpc => exact ⟨SketchPc.noConfusion, h.handed, h.sent⟩
  | other l board hstep hclear hsend hwake =>
      refine ⟨fun hpc => ?_, h.handed, h.sent⟩
      cases hstep with
      | onDataSent sendStatus hout => exact h.set hpc
      | clear hc => exact absurd rfl hclear
      | wait hw hflag =>
          rw [hw] at hpc
          cases hpc
      | complete hw hflag => cases sketch <;> cases hpc
      | init ok hi => cases sketch <;> cases hpc
      | delayOver hd => cases sketch <;> cases hpc
      | _ => cases hpc

theorem composed_reachable {sketch : Sketch} {ls : List SenderLabel} {s : Sender}
    (hr : run (senderStep sketch) Sender.boot ls = some s) : Composed s :=
  run_invariant (I := Composed) composed_boot
    (fun _ _ _ h _ hs => composed_step h (senderStep_cases hs)) (stepsMeet_true ls) hr

theorem Composed.spells {s : Sender} (h : Composed s) {p : Reading × List UInt8}
    (hp : p ∈ s.sent) : Spells p.2 p.1 := h.handed p (h.sent.subset hp)

/-- What the controller hands over is what it has stored. -/
structure Stored (s : Sender) : Prop where
  awake : s.board.pc ≠ .sleeping
  last : s.board.pc = .sending → s.reading.time = s.board.lastTime
  times : timesHanded s ++ pendingTimes s.board = s.board.stored.map millis

theorem pendingTimes_of_ne {b : Board} (hclear : b.pc ≠ .clearing) (hsend : b.pc ≠ .sending) :
    pendingTimes b = [] := if_neg (not_or.mpr ⟨hclear, hsend⟩)

/-- Steps that store nothing, from a board with no time pending to one with none. -/
theorem Stored.elsewhere {s : Sender} {board : Board} (h : Stored s)
    (hnone : pendingTimes s.board = [])
    (hpc : board.pc ≠ .sleeping ∧ board.pc ≠ .clearing ∧ board.pc ≠ .sending)
    (hstored : board.stored = s.board.stored) : Stored { s with board := board } where
  awake := hpc.1
  last := fun hsend => absurd hsend hpc.2.2
  times := by
    have htimes := h.times
    rw [hnone] at htimes
    show timesHanded s ++ pendingTimes board = board.stored.map millis
    rw [pendingTimes_of_ne hpc.2.1 hpc.2.2, hstored]
    exact htimes

theorem stored_step {s s' : Sender} {l : SenderLabel} (h : Stored s)
    (hs : SenderStep .controller s l s') : Stored s' := by
  have hnone {pc : SketchPc} (hpc : s.board.pc = pc) (hclear : pc ≠ .clearing)
      (hsend : pc ≠ .sending) : pendingTimes s.board = [] :=
    pendingTimes_of_ne (by rw [hpc]; exact hclear) (by rw [hpc]; exact hsend)
  cases hs with
  | setValues t vcc myData hpc hset =>
      refine ⟨SketchPc.noConfusion, fun _ => rfl, ?_⟩
      have hpending : pendingTimes s.board = [s.board.lastTime] := if_pos (Or.inl hpc)
      have htimes := h.times
      rw [hpending] at htimes
      exact htimes
  | send accepted board hpc hwaiting hstored =>
      have hpending : pendingTimes s.board = [s.board.lastTime] := if_pos (Or.inr hpc)
      have htimes := h.times
      rw [hpending, ← h.last hpc] at htimes
      refine ⟨?_, fun hsending => ?_, ?_⟩
      · show board.pc ≠ .sleeping
        rw [hwaiting]
        exact SketchPc.noConfusion
      · rw [hwaiting] at hsending
        cases hsending
      · show timesHanded { s with handed := s.handed ++ [(s.reading, s.myData.bytes)] }
          ++ pendingTimes board = board.stored.map millis
        rw [pendingTimes_of_ne (by rw [hwaiting]; exact SketchPc.noConfusion)
          (by rw [hwaiting]; exact SketchPc.noConfusion), List.append_nil, timesHanded,
          List.map_append, hstored]
        exact htimes
  | wakeUp hpc => exact absurd hpc h.awake
  | other l board hstep hclear hsend hwake =>
      cases hstep with
      | store t hpc hnow =>
          refine ⟨SketchPc.noConfusion, SketchPc.noConfusion, ?_⟩
          have htimes := h.times
          rw [hnone hpc SketchPc.noConfusion SketchPc.noConfusion, List.append_nil] at htimes
          show timesHanded s ++ [millis t] = (s.board.stored ++ [t]).map millis
          rw [List.map_append, htimes]
          rfl
      | onDataSent sendStatus hout => exact ⟨h.awake, h.last, h.times⟩
      | clear hc => exact absurd rfl hclear
      | wakeUp hc => exact absurd rfl hwake
      | accepted hc hready => exact absurd rfl (hsend true)
      | rejected hc => exact absurd rfl (hsend false)
      | delayOver hpc => exact absurd hpc h.awake
      | wait hpc hflag =>
          refine h.elsewhere (hnone hpc SketchPc.noConfusion SketchPc.noConfusion) ?_ rfl
          rw [hpc]
          exact ⟨SketchPc.noConfusion, SketchPc.noConfusion, SketchPc.noConfusion⟩
      | _ =>
          refine h.elsewhere (pendingTimes_of_ne ?_ ?_)
            ⟨SketchPc.noConfusion, SketchPc.noConfusion, SketchPc.noConfusion⟩ rfl <;> simp [*]

theorem stored_boot : Stored Sender.boot where
  awake := SketchPc.noConfusion
  last := SketchPc.noConfusion
  times := rfl

/--
**Every packet is a reading.**

In every run of either sketch, each packet that was handed to `esp_now_send`, accepted
or not, is a whole struct that spells the topic and the reading that was put into it,
whatever was in it before. The controller hands over the times that it has stored, all
of them and in their order, but for one that it may be about to hand over.
-/
theorem sent_are_readings {sketch : Sketch} {ls : List SenderLabel} {s : Sender}
    (hr : run (senderStep sketch) Sender.boot ls = some s) :
    (∀ p ∈ s.handed, Spells p.2 p.1) ∧ s.sent.Sublist s.handed
      ∧ (sketch = .controller → timesHanded s ++ pendingTimes s.board = s.board.stored.map millis) := by
  have h := composed_reachable hr
  refine ⟨h.handed, h.sent, fun hsketch => ?_⟩
  subst hsketch
  have hstored : Stored s := run_invariant (I := Stored) stored_boot
    (fun _ _ _ h _ hs => stored_step h (senderStep_cases hs)) (stepsMeet_true ls) hr
  exact hstored.times

/-- The first packet tells "Hello 10001 3300". -/
def firstReading : Reading := ⟨10001, 3300⟩

def firstBytes : List UInt8 :=
  ascii mqttTopic ++ List.replicate 52 0 ++ ascii firstReading.text ++ List.replicate 48 0

/-- A controller without ESP-NOW hands its first packet over, and is refused. -/
def refusedPacket : List SenderLabel :=
  [.other (.init false), .other (.check 10001), .other (.store 10001), .setValues 0 3300,
    .other (.send false)]

/-- **The packet that was refused spells its reading.** -/
theorem refusedPacket_spells :
    ∃ s, run (senderStep .controller) Sender.boot refusedPacket = some s ∧ s.sent = []
      ∧ s.handed = [(firstReading, firstBytes)] ∧ Spells firstBytes firstReading
      ∧ timesHanded s ++ pendingTimes s.board = s.board.stored.map millis := by
  obtain ⟨s, hrun, hsent, hhanded⟩ : ∃ s, run (senderStep .controller) Sender.boot refusedPacket
      = some s ∧ s.sent = [] ∧ s.handed = [(firstReading, firstBytes)] := ⟨_, rfl, rfl, rfl⟩
  obtain ⟨hspells, _, htimes⟩ := sent_are_readings hrun
  have hmem : (firstReading, firstBytes) ∈ s.handed := by
    rw [hhanded]
    exact List.mem_singleton_self _
  exact ⟨s, hrun, hsent, hhanded, hspells _ hmem, htimes rfl⟩

/-- The controller sends its first packet. -/
def firstPacket : List SenderLabel :=
  [.other (.init true), .other (.check 10001), .other (.store 10001), .setValues 0 3300,
    .other (.send true)]

theorem firstPacket_sent : ∃ s, run (senderStep .controller) Sender.boot firstPacket = some s
    ∧ s.sent = [(firstReading, firstBytes)] := ⟨_, rfl, rfl⟩

/-- Some sketch has sent a packet, with a reading in it. -/
def SentBy (r : Reading) (bytes : List UInt8) : Prop :=
  ∃ (sketch : Sketch) (ls : List SenderLabel) (s : Sender),
    run (senderStep sketch) Sender.boot ls = some s ∧ (r, bytes) ∈ s.sent

theorem SentBy.spells {r : Reading} {bytes : List UInt8} (h : SentBy r bytes) : Spells bytes r := by
  obtain ⟨sketch, ls, s, hr, hmem⟩ := h
  exact (composed_reachable hr).spells hmem

/-! ## The gateways -/

theorem ascii_lt {s : List Char} (h : Printable s) : ∀ b ∈ ascii s, b < 0x80 := by
  intro b hb
  obtain ⟨c, hc, rfl⟩ := List.mem_map.mp hb
  rw [UInt8.lt_iff_toNat_lt, toNat_ascii (h c hc).2]
  exact (h c hc).2

theorem chars_ascii {s : List Char} (h : Printable s) :
    (ascii s).map (fun b => Char.ofNat b.toNat) = s := by
  rw [ascii, List.map_map]
  refine (List.map_congr_left fun c hc => ?_).trans (List.map_id s)
  show Char.ofNat (UInt8.ofNat c.toNat).toNat = c
  rw [toNat_ascii (h c hc).2, Char.ofNat_toNat]

/-- A text in ASCII is its own encoding. -/
theorem utf8_eq_ascii {s : List Char} (h : Printable s) : PyGateway.utf8 s = ascii s := by
  have henc := PyGateway.utf8_ascii (ascii_lt h)
  rwa [chars_ascii h] at henc

/-- What a reading is published as. -/
def pair (r : Reading) : List UInt8 × List UInt8 := (ascii mqttTopic, ascii r.text)

theorem drop_of_spells {body : List UInt8} {r : Reading} (h : Spells body r) :
    (body.drop 64).take 64 = body.drop 64 :=
  List.take_of_length_le (by rw [List.length_drop, h.whole])

/-- `callback` collects the characters that the sketch had put in. -/
theorem callback_of_spells {body : List UInt8} {r : Reading} (h : Spells body r) :
    PyGateway.callback body = some (pair r) := by
  rw [PyGateway.callback_eq (Nat.le_of_eq h.whole.symm), drop_of_spells h, h.topic.2, h.payload.2,
    PyGateway.utf8_ascii (ascii_lt printable_mqttTopic),
    PyGateway.utf8_ascii (ascii_lt r.printable_text)]
  rfl

/-- The C gateway reads it off its place in a packet of the air. -/
theorem gateway_message_of_spells {body p : List UInt8} {r : Reading} (h : Spells body r)
    (g : Gateway.State) (hp : (p.drop 63).take 128 = body) :
    Gateway.message g p = some (pair r) := by
  rw [gateway_message_of_body g h.whole hp, if_pos h.payload.1, Gateway.sentTopic,
    if_pos h.topic.1, h.topic.2, h.payload.2]
  rfl

/--
**Whichever gateway receives a reading, it publishes the same.**

For every packet that a sketch has sent: `espnow_task`, after any frames; the C gateway,
after any packets, for any packet of the air with this one at its place; and the Python
gateway publish the topic and the reading.
-/
theorem gateways_publish_readings {r : Reading} {body p : List UInt8} (hsent : SentBy r body)
    (s : TaskLocals) (g : Gateway.State) (hp : (p.drop 63).take 128 = body) :
    message s body = some (pair r) ∧ Gateway.message g p = some (pair r)
      ∧ PyGateway.callback body = some (pair r) := by
  have h := hsent.spells
  refine ⟨?_, gateway_message_of_spells h g hp, callback_of_spells h⟩
  rw [message_of_body s h.whole, if_pos h.payload.1, if_pos h.topic.1, h.topic.2, h.payload.2]
  rfl

theorem firstPacket_sentBy : SentBy firstReading firstBytes := by
  obtain ⟨s, hrun, hsent⟩ := firstPacket_sent
  exact ⟨.controller, firstPacket, s, hrun, by rw [hsent]; exact List.mem_singleton_self _⟩

/-- **The first packet is published three times alike.** -/
theorem firstPacket_published :
    message ⟨Buf.fill 128 0, Buf.fill 140 0⟩ firstBytes = some (pair firstReading)
      ∧ Gateway.message Gateway.State.boot (frameHead ++ firstBytes) = some (pair firstReading)
      ∧ PyGateway.callback firstBytes = some (pair firstReading) :=
  gateways_publish_readings firstPacket_sentBy _ _ (by rw [drop_frameHead]; rfl)

/-! ## The pipeline -/

/-- Every frame that gets past the callback's check is a packet of a sketch. -/
def SketchCall (l : Label) : Prop :=
  ∀ c f, l = .call c → c.frame = some f → ∃ r, SentBy r f.bytes

theorem isStruct_of_spells {f : Frame} {r : Reading} (h : Spells f.bytes r) : IsStruct f := by
  refine ⟨h.whole, h.topic.1, ?_⟩
  rw [drop_of_spells h]
  exact h.payload.1

theorem frameStrings_of_spells {f : Frame} {r : Reading} (h : Spells f.bytes r) :
    frameStrings f = pair r := by
  rw [frameStrings, drop_of_spells h, h.topic.2, h.payload.2]
  rfl

theorem structCall_of_sketchCall {l : Label} (h : SketchCall l) : StructCall l := by
  intro c f hl hf
  obtain ⟨r, hr⟩ := h c f hl hf
  exact isStruct_of_spells hr.spells

theorem received_from_sketches {ls : List Label} {w : World}
    (hr : Runs (fun _ l => SketchCall l) ls w) : ∀ f ∈ w.received, ∃ r, SentBy r f.bytes := by
  refine runs_invariant (I := fun w => ∀ f ∈ w.received, ∃ r, SentBy r f.bytes)
    (fun _ _ f hf => absurd hf List.not_mem_nil) ?_ hr
  intro _ w l w' _ h hl hs
  cases hs with
  | accepted c f hcb hf =>
      intro g hg
      rcases List.mem_append.mp hg with hold | hnew
      · exact h g hold
      · rw [List.mem_singleton.mp hnew]
        exact hl c f rfl hf
  | _ => exact h

/-- **What the pipeline publishes is a reading of a frame that it received.** -/
theorem reading_of_published {ls : List Label} {w : World}
    (hr : Runs (fun _ l => SketchCall l) ls w) {p : Tagged (List UInt8 × List UInt8)}
    (hp : p ∈ w.published) : ∃ f ∈ w.received, ∃ r, SentBy r f.bytes ∧ p.val = pair r := by
  have hdec : Decoded w :=
    decoded_reachable (runs_mono (fun _ _ hl => structCall_of_sketchCall hl) hr)
  obtain ⟨f, hseq, hval⟩ := hdec.published p hp
  have hmem : f ∈ w.received := List.mem_of_getElem? hseq
  obtain ⟨r, hsent⟩ := received_from_sketches hr f hmem
  exact ⟨f, hmem, r, hsent, hval.trans (frameStrings_of_spells hsent.spells)⟩

/-! ## The file -/

/-- The recorder's line for a reading. -/
def line (now : MqttRecorder.DateTime) (r : Reading) : List Char :=
  now.strftime ++ ',' :: (mqttTopic ++ ',' :: r.text)

/-- A file with the lines of readings, and the times at which they came in. -/
def logOf (nows : List MqttRecorder.DateTime) (readings : List Reading) : List Char :=
  unlines '\n' (List.zipWith line nows readings)

theorem newline_not_mem_text (r : Reading) : '\n' ∉ r.text := by
  have hdigits (n : Nat) : '\n' ∉ Nat.toDigits 10 n := by
    intro h
    have hdigit : '\n'.isDigit := Nat.isDigit_of_mem_toDigits (by decide) (by decide) h
    cases hdigit
  simp [Reading.text, hdigits]

theorem newline_not_mem_line (now : MqttRecorder.DateTime) (r : Reading) : '\n' ∉ line now r := by
  have htime := MqttRecorder.newline_not_mem_strftime now
  have htext := newline_not_mem_text r
  simp [line, mqttTopic, htime, htext]

theorem line_injective {now : MqttRecorder.DateTime} {r r' : Reading} (h : line now r = line now r') :
    r = r' := by
  refine Reading.text_injective ?_
  have hline := (List.cons.inj (List.append_cancel_left h)).2
  exact (List.cons.inj (List.append_cancel_left hline)).2

theorem zipWith_line_injective {nows : List MqttRecorder.DateTime} {rs rs' : List Reading}
    (hrs : rs.length = nows.length) (hrs' : rs'.length = nows.length)
    (h : List.zipWith line nows rs' = List.zipWith line nows rs) : rs' = rs := by
  induction nows generalizing rs rs' with
  | nil => rw [List.length_eq_zero_iff.mp hrs, List.length_eq_zero_iff.mp hrs']
  | cons now nows ih =>
      rcases rs with _ | ⟨r, rs⟩
      · cases hrs
      · rcases rs' with _ | ⟨r', rs'⟩
        · cases hrs'
        · obtain ⟨hline, hrest⟩ := List.cons.inj h
          rw [line_injective hline, ih (Nat.succ.inj hrs) (Nat.succ.inj hrs') hrest]

/-- **The lines tell the readings.** -/
theorem logOf_injective {nows : List MqttRecorder.DateTime} {rs rs' : List Reading}
    (hrs : rs.length = nows.length) (hrs' : rs'.length = nows.length)
    (h : logOf nows rs' = logOf nows rs) : rs' = rs := by
  have hfree (rs : List Reading) : ∀ l ∈ List.zipWith line nows rs, '\n' ∉ l := by
    intro l hl
    rw [← List.map_uncurry_zip_eq_zipWith] at hl
    obtain ⟨x, _, rfl⟩ := List.mem_map.mp hl
    exact newline_not_mem_line x.1 x.2
  refine zipWith_line_injective hrs hrs' ?_
  rw [← lines_unlines (hfree rs'), ← lines_unlines (hfree rs)]
  exact congrArg (lines '\n') h

/-- A message that a broker has passed on of a reading is recorded as its line. -/
theorem record_of_pair {a : MqttRecorder.Arrival} {r : Reading}
    (h : (PyGateway.utf8 a.msg.topic, a.msg.payload) = pair r) : a.record = some (line a.now r) := by
  obtain ⟨htopic, hpayload⟩ := Prod.mk.inj h
  rw [← utf8_eq_ascii printable_mqttTopic] at htopic
  rw [← utf8_eq_ascii r.printable_text] at hpayload
  have hsame : a.msg.topic = mqttTopic := by
    have hdecode := MqttRecorder.decode_utf8 a.msg.topic
    rw [htopic, MqttRecorder.decode_utf8] at hdecode
    exact (Option.some.inj hdecode).symm
  refine record_eq_some_iff.mpr ⟨r.text, MqttRecorder.decode_eq_some_iff.mpr hpayload, ?_⟩
  rw [hsame]
  rfl

/-- Messages that are spelled by readings are recorded as their lines. -/
theorem records_of_pairs {arrivals : List MqttRecorder.Arrival} {readings : List Reading}
    (h : arrivals.map (fun a => (PyGateway.utf8 a.msg.topic, a.msg.payload)) = readings.map pair) :
    arrivals.map MqttRecorder.Arrival.record
      = (List.zipWith line (arrivals.map (·.now)) readings).map some := by
  induction arrivals generalizing readings with
  | nil => rfl
  | cons a arrivals ih =>
      rcases readings with _ | ⟨r, readings⟩
      · cases h
      · obtain ⟨hfirst, hrest⟩ := List.cons.inj h
        rw [List.map_cons, record_of_pair hfirst, ih hrest]
        rfl

/--
**From the sketches to the file.**

Let the ESP32 gateway receive packets of sketches, in any run, and let a broker pass on
what it publishes, in any order, as often as it likes and not all of it. Then the
recorder gets through, and writes a line for each message it is sent, with a reading that
a sketch has put into a packet that the gateway has received. No other readings would
have left the same lines.
-/
theorem readings_recorded {ls : List Label} {w : World} (hr : Runs (fun _ l => SketchCall l) ls w)
    {arrivals : List MqttRecorder.Arrival}
    (hbroker : ∀ a ∈ arrivals,
      (PyGateway.utf8 a.msg.topic, a.msg.payload) ∈ w.published.map (·.val)) (file : List Char) :
    ∃ readings : List Reading, readings.length = arrivals.length
      ∧ (∀ r ∈ readings, ∃ f ∈ w.received, SentBy r f.bytes)
      ∧ MqttRecorder.onMessages file arrivals
        = some (file ++ logOf (arrivals.map (·.now)) readings)
      ∧ ∀ readings' : List Reading, readings'.length = arrivals.length →
        logOf (arrivals.map (·.now)) readings' = logOf (arrivals.map (·.now)) readings →
        readings' = readings := by
  have hreadings : ∀ as : List MqttRecorder.Arrival, (∀ a ∈ as, a ∈ arrivals) →
      ∃ readings : List Reading, (∀ r ∈ readings, ∃ f ∈ w.received, SentBy r f.bytes)
        ∧ as.map (fun a => (PyGateway.utf8 a.msg.topic, a.msg.payload)) = readings.map pair := by
    intro as
    induction as with
    | nil => exact fun _ => ⟨[], fun _ hmem => absurd hmem List.not_mem_nil, rfl⟩
    | cons a as ih =>
        intro hsub
        obtain ⟨readings, hsent, hpairs⟩ := ih fun b hb => hsub b (List.mem_cons_of_mem a hb)
        obtain ⟨p, hp, hval⟩ := List.mem_map.mp (hbroker a (hsub a (List.mem_cons_self ..)))
        obtain ⟨f, hf, r, hsentBy, hpair⟩ := reading_of_published hr hp
        refine ⟨r :: readings, ?_, ?_⟩
        · intro q hq
          rcases List.mem_cons.mp hq with rfl | hrest
          · exact ⟨f, hf, hsentBy⟩
          · exact hsent q hrest
        · rw [List.map_cons, List.map_cons, hpairs, ← hval, hpair]
  obtain ⟨readings, hsent, hpairs⟩ := hreadings arrivals fun _ ha => ha
  have hlen : readings.length = arrivals.length := by
    have hboth := congrArg List.length hpairs
    rw [List.length_map, List.length_map] at hboth
    exact hboth.symm
  refine ⟨readings, hlen, hsent, ?_, fun readings' hlen' hlog => ?_⟩
  · rw [onMessages_eq_write, write_eq_some_iff]
    exact ⟨_, records_of_pairs hpairs, rfl⟩
  · refine logOf_injective ?_ ?_ hlog
    · rw [hlen, List.length_map]
    · rw [hlen', List.length_map]

/-- A call with the first packet. -/
def packetCall : RecvCall :=
  { macAddr := some (Buf.fill 6 0), len := 128, data := some ⟨firstBytes, Nat.le_of_eq firstPacket_sentBy.spells.whole.symm⟩ }

/-- The first packet goes through the gateway. -/
def forwardPacket : List Label :=
  [.mqttConnected, .pubConnect, .call packetCall, .cbTake, .cbMalloc 0 (List.replicate 128 0),
    .cbCopy, .cbSend, .cbGive] ++ forward ++ [.pubReceive, .pubExamine, .pubPublish]

theorem forwardPacket_calls {l : Label} (h : l ∈ forwardPacket) : SketchCall l := by
  intro c f hl hf
  subst hl
  obtain rfl : c = packetCall := by simpa [forwardPacket, forward] using h
  cases hf
  exact ⟨firstReading, firstPacket_sentBy⟩

/-- The broker passes it on twice. -/
def recorded : MqttRecorder.Arrival :=
  ⟨⟨2026, 1, 1, 12, 0, 0⟩, mqttTopic, ascii firstReading.text, by decide⟩

set_option maxRecDepth 10000 in
/-- **The first reading has two lines.** -/
theorem firstReading_recorded :
    ∃ w, Runs (fun _ l => SketchCall l) forwardPacket w
      ∧ ∃ readings : List Reading, readings.length = 2
        ∧ (∀ r ∈ readings, ∃ f ∈ w.received, SentBy r f.bytes)
        ∧ MqttRecorder.onMessages [] [recorded, recorded]
          = some (logOf [recorded.now, recorded.now] readings) := by
  obtain ⟨w, hrun, hpub⟩ : ∃ w, run step (World.boot (Buf.fill 128 0) (Buf.fill 140 0)) forwardPacket
      = some w ∧ w.published.map (·.val) = [pair firstReading] := ⟨_, rfl, rfl⟩
  have hr : Runs (fun _ l => SketchCall l) forwardPacket w :=
    ⟨_, _, stepsMeet_of_forall fun _ => forwardPacket_calls, hrun⟩
  have hbroker : ∀ a ∈ [recorded, recorded],
      (PyGateway.utf8 a.msg.topic, a.msg.payload) ∈ w.published.map (·.val) := by
    intro a ha
    obtain rfl : a = recorded := by simpa using ha
    rw [hpub]
    exact List.mem_singleton_self _
  obtain ⟨readings, hlen, hsent, hfile, _⟩ := readings_recorded hr hbroker []
  exact ⟨w, hr, readings, hlen, hsent, hfile⟩

end EspNowGateway.Proof
