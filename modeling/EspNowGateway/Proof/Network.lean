import EspNowGateway.Network
import EspNowGateway.Lib.LossyFifo
import EspNowGateway.Proof.Readings

/-!
# What each board's readings go through

The gateway numbers frames as it receives them, and its queues keep that order. Frames of
other boards come in between, and frames are lost at each stage. So what is published of
one board is a part of what the radio has delivered of it, in the order of delivery
(`published_of_delivered`), whatever the radio does. If it keeps the board's packets in
order and repeats none, that is a part of what the board has sent, in the order in which
it has sent it.
-/

namespace EspNowGateway.Proof

open EspNowGateway CObject CHeap LineLog LossyFifo TransitionSystem

variable {ι : Type} [DecidableEq ι]

/-- The frame is the packet of that number among those that the board has sent. -/
def CameFrom (n : Net ι) (o : Origin ι) (f : Frame) : Prop :=
  (n.senders o.board).sent[o.number]? = some (o.reading, f.bytes)

/-- What is used of a network, and of the run that led there. -/
structure NetInv (ls : List (NetLabel ι)) (n : Net ι) : Prop where
  composed : ∀ i, Composed (n.senders i)
  gateway : ∃ ls, Runs (fun _ l => StructCall l) ls n.gateway
  frames : List.Forall₂ (CameFrom n) n.origins n.gateway.received
  delivered : ∀ i, (n.origins.filter fun o => o.board = i).map (·.number) = deliveredOf ls i

theorem netInv_boot (d : ExampleEspnowData) (b : MqttT) : NetInv [] (Net.boot ι d b) where
  composed := fun _ => composed_boot
  gateway := ⟨[], d, b, trivial, rfl⟩
  frames := .nil
  delivered := fun _ => rfl

/-- A packet that was sent keeps its number. -/
theorem sent_keep {sketch : Sketch} {s s' : Sender} {l : SenderLabel}
    (hs : SenderStep sketch s l s') : s.sent <+: s'.sent := by
  cases hs with
  | send accepted board hpc hwaiting hstored =>
      cases accepted with
      | true => exact List.prefix_append _ _
      | false => exact List.prefix_refl _
  | _ => exact List.prefix_refl _

/-- A packet that is delivered is a frame of just its bytes. -/
theorem delivery_frame (mac : Buf 6) {bytes : List UInt8} {r : Reading} (h : Spells bytes r) :
    ∃ f, (delivery mac bytes).frame = some f ∧ f.bytes = bytes := by
  have hpos : (0 : Int) < bytes.length := by
    rw [h.whole]
    decide
  obtain ⟨f, hf, hbytes⟩ := RecvCall.frame_of_pos hpos ⟨bytes, Nat.le_of_eq (Int.toNat_natCast _)⟩
  refine ⟨f, hf, hbytes.trans (List.take_of_length_le (Nat.le_of_eq ?_))⟩
  exact (Int.toNat_natCast _).symm

theorem received_of_step {w w' : World} {l : Label} (hcall : ∀ c, l ≠ .call c) (hs : Step w l w') :
    w'.received = w.received := by
  cases hs with
  | accepted c f hcb hf => exact absurd rfl (hcall c)
  | _ => rfl

theorem structCall_of_ne {l : Label} (hcall : ∀ c, l ≠ .call c) : StructCall l :=
  fun c _ hl _ => absurd hl (hcall c)

/-- Only the board that takes a step is another one than before. -/
theorem forall_update {α : Type} {P : ι → α → Prop} {f : ι → α} {i : ι} {a : α}
    (h : ∀ j, P j (f j)) (ha : P i a) (j : ι) : P j (Function.update f i a j) := by
  by_cases hj : j = i
  · subst hj
    rw [Function.update_self]
    exact ha
  · rw [Function.update_of_ne hj]
    exact h j

/-- Frames go on coming from where they came from, whatever a board sends. -/
theorem CameFrom.update {n : Net ι} {o : Origin ι} {f : Frame} (h : CameFrom n o f) {i : ι}
    {s : Sender} (hkeep : (n.senders i).sent <+: s.sent) :
    CameFrom { n with senders := Function.update n.senders i s } o f := by
  obtain ⟨later, hlater⟩ := forall_update (P := fun j (t : Sender) => (n.senders j).sent <+: t.sent)
    (fun j => List.prefix_refl (n.senders j).sent) hkeep o.board
  show (Function.update n.senders i s o.board).sent[o.number]? = _
  rw [← hlater, List.getElem?_append_left (List.getElem?_eq_some_iff.mp h).1]
  exact h

theorem netInv_step {sketch : ι → Sketch} {mac : ι → Buf 6} {ls : List (NetLabel ι)} {n n' : Net ι}
    {l : NetLabel ι} (h : NetInv ls n) (hs : NetStep sketch mac n l n') : NetInv (ls ++ [l]) n' := by
  cases hs with
  | sender i l s hs =>
      refine ⟨?_, h.gateway, ?_, fun j => ?_⟩
      · exact forall_update (P := fun _ s => Composed s) h.composed (composed_step (h.composed i) hs)
      · exact h.frames.imp fun _ _ hof => hof.update (sent_keep hs)
      · rw [deliveredOf_snoc, ← h.delivered j]
        exact (List.append_nil _).symm
  | deliver i number r bytes w hsent hw =>
      have hspells : Spells bytes r := (h.composed i).spells (List.mem_of_getElem? hsent)
      obtain ⟨f, hf, hbytes⟩ := delivery_frame (mac i) hspells
      obtain ⟨ls', hls⟩ := h.gateway
      have hstruct : StructCall (.call (delivery (mac i) bytes)) := by
        intro c f' hc hf'
        cases hc
        obtain rfl : f' = f := Option.some.inj (hf'.symm.trans hf)
        exact isStruct_of_spells (hbytes.symm ▸ hspells)
      have hreceived : w.received = n.gateway.received ++ [f] := by
        cases step_cases hw with
        | rejected c hcb hnone =>
            rw [hf] at hnone
            cases hnone
        | accepted c f' hcb hf' =>
            obtain rfl : f' = f := Option.some.inj (hf'.symm.trans hf)
            rfl
      refine ⟨h.composed, ⟨_, runs_snoc hls hstruct hw⟩, ?_, fun j => ?_⟩
      · show List.Forall₂ _ (n.origins ++ [⟨i, number, r⟩]) w.received
        rw [hreceived]
        have hof : CameFrom n ⟨i, number, r⟩ f := by
          rw [CameFrom, hbytes]
          exact hsent
        exact List.rel_append h.frames (.cons hof .nil)
      · rw [deliveredOf_snoc, List.filter_append, List.map_append, h.delivered j]
        by_cases hj : i = j <;> simp [deliveredOf, hj]
  | gateway l w hcall hw =>
      obtain ⟨ls', hls⟩ := h.gateway
      refine ⟨h.composed, ⟨_, runs_snoc hls (structCall_of_ne hcall) hw⟩, ?_, fun j => ?_⟩
      · show List.Forall₂ _ n.origins w.received
        rw [received_of_step hcall (step_cases hw)]
        exact h.frames
      · rw [deliveredOf_snoc, ← h.delivered j]
        exact (List.append_nil _).symm

theorem netInv_reachable {sketch : ι → Sketch} {mac : ι → Buf 6} {d : ExampleEspnowData} {b : MqttT}
    {ls : List (NetLabel ι)} {n : Net ι}
    (hr : run (netStep sketch mac) (Net.boot ι d b) ls = some n) : NetInv ls n :=
  run_induction (P := NetInv) (netInv_boot d b)
    (fun _ _ _ _ _ _ h _ hs => netInv_step h (netStep_cases hs)) ls n (stepsMeet_true ls) hr

/-! ## What is published of a board -/

theorem published_numbers {ls : List Label} {w : World} (hr : Runs (fun _ l => StructCall l) ls w) :
    (w.published.map (·.seq)).Sublist (List.range w.received.length) :=
  ((List.sublist_append_left _ _).trans (chan_reachable hr).order).trans
    ((List.sublist_append_left _ _).trans (numbered_reachable hr))

/-- Where the messages that were published came from. -/
def publishedOrigins (n : Net ι) : List (Origin ι) :=
  n.gateway.published.filterMap fun p => n.origins[p.seq]?

/-- A message is published of a frame that was received, and as it spells. -/
theorem origin_of_published {ls : List (NetLabel ι)} {n : Net ι} (h : NetInv ls n)
    {p : Tagged (List UInt8 × List UInt8)} (hp : p ∈ n.gateway.published) :
    ∃ o, n.origins[p.seq]? = some o ∧ p.val = pair o.reading := by
  obtain ⟨ls', hls⟩ := h.gateway
  obtain ⟨f, hf, hval⟩ := (decoded_reachable hls).published p hp
  obtain ⟨hlt, hget⟩ := List.getElem?_eq_some_iff.mp hf
  have hlt' : p.seq < n.origins.length := by rw [h.frames.length_eq]; exact hlt
  have hof : CameFrom n n.origins[p.seq] f := hget ▸ h.frames.get hlt' hlt
  have hspells := (h.composed n.origins[p.seq].board).spells (List.mem_of_getElem? hof)
  exact ⟨_, List.getElem?_eq_getElem hlt', hval.trans (frameStrings_of_spells hspells)⟩

theorem published_vals {ls : List (NetLabel ι)} {n : Net ι} (h : NetInv ls n) :
    n.gateway.published.map (·.val) = (publishedOrigins n).map fun o => pair o.reading := by
  have hall := fun p hp => @origin_of_published _ _ ls n h p hp
  rw [publishedOrigins]
  generalize n.gateway.published = ps at hall ⊢
  induction ps with
  | nil => rfl
  | cons p ps ih =>
      obtain ⟨o, ho, hval⟩ := hall p (List.mem_cons_self ..)
      have hcons := List.filterMap_cons_some (f := fun p : Tagged _ => n.origins[p.seq]?) (l := ps) ho
      rw [List.map_cons, hcons, List.map_cons, hval, ih fun q hq => hall q (List.mem_cons_of_mem p hq)]

theorem publishedOf_eq {ls : List (NetLabel ι)} {n : Net ι} (h : NetInv ls n) (i : ι) :
    n.publishedOf i
      = ((publishedOrigins n).filter fun o => o.board = i).map fun o => pair o.reading := by
  have hall := fun p hp => @origin_of_published _ _ ls n h p hp
  rw [Net.publishedOf, publishedOrigins]
  generalize n.gateway.published = ps at hall ⊢
  induction ps with
  | nil => rfl
  | cons p ps ih =>
      obtain ⟨o, ho, hval⟩ := hall p (List.mem_cons_self ..)
      have hrest := ih fun q hq => hall q (List.mem_cons_of_mem p hq)
      rw [List.filterMap_cons_some (f := fun p : Tagged _ => n.origins[p.seq]?) ho]
      by_cases hi : o.board = i
      · rw [List.filter_cons_of_pos (by simp [ho, hi]), List.filter_cons_of_pos (by simp [hi]),
          List.map_cons, List.map_cons, hrest, hval]
      · rw [List.filter_cons_of_neg (by simp [ho, hi]), List.filter_cons_of_neg (by simp [hi]), hrest]

/-- The messages are those of the frames, in the order of reception. -/
theorem publishedOrigins_sublist {ls : List (NetLabel ι)} {n : Net ι} (h : NetInv ls n) :
    (publishedOrigins n).Sublist n.origins := by
  obtain ⟨ls', hls⟩ := h.gateway
  have hnumbers : (n.gateway.published.map (·.seq)).Pairwise (· < ·) :=
    List.pairwise_lt_range.sublist (published_numbers hls)
  have hsub := filterMap_getElem?_sublist n.origins hnumbers
  rw [List.filterMap_map] at hsub
  exact hsub

/-- The readings of a board that the radio has delivered, in the order of delivery. -/
def deliveredReadings (ls : List (NetLabel ι)) (n : Net ι) (i : ι) : List Reading :=
  (deliveredOf ls i).filterMap fun k => ((n.senders i).sent.map (·.1))[k]?

theorem deliveredReadings_eq {ls : List (NetLabel ι)} {n : Net ι} (h : NetInv ls n) (i : ι) :
    (n.origins.filter fun o => o.board = i).map (·.reading) = deliveredReadings ls n i := by
  rw [deliveredReadings, ← h.delivered i, List.filterMap_map]
  have hsent : ∀ o ∈ n.origins.filter fun o => o.board = i,
      ((n.senders i).sent.map (·.1))[o.number]? = some o.reading := by
    intro o ho
    obtain ⟨hmem, hboard⟩ := List.mem_filter.mp ho
    obtain ⟨k, hk, rfl⟩ := List.getElem_of_mem hmem
    have hof := h.frames.get hk (h.frames.length_eq ▸ hk)
    rw [List.get_eq_getElem, CameFrom, of_decide_eq_true hboard] at hof
    rw [List.getElem?_map, hof]
    rfl
  rw [← List.filterMap_eq_map]
  exact (List.filterMap_congr hsent).symm

/-- Of each board, a part of the messages is a part of what was delivered. -/
theorem delivered_of_sublist {ls : List (NetLabel ι)} {n : Net ι} (h : NetInv ls n)
    {heard : List (Origin ι)} (hheard : heard.Sublist (publishedOrigins n)) (i : ι) :
    ((heard.filter fun o => o.board = i).map (·.reading)).Sublist (deliveredReadings ls n i) := by
  rw [← deliveredReadings_eq h i]
  exact ((hheard.trans (publishedOrigins_sublist h)).filter _).map _

/-- In the order of sending, if the radio keeps it. -/
theorem sent_of_delivered {ls : List (NetLabel ι)} {i : ι} (hradio : InOrder ls i) (n : Net ι) :
    (deliveredReadings ls n i).Sublist ((n.senders i).sent.map (·.1)) :=
  filterMap_getElem?_sublist _ hradio

/--
**Of each board, readings are published as the radio delivers them.**

Whatever the radio does: what the gateway has published of a board is a part of the
readings with which its callback was called, in the order of the calls.
-/
theorem published_of_delivered {sketch : ι → Sketch} {mac : ι → Buf 6} {d : ExampleEspnowData}
    {b : MqttT} {ls : List (NetLabel ι)} {n : Net ι}
    (hr : run (netStep sketch mac) (Net.boot ι d b) ls = some n) (i : ι) :
    (n.publishedOf i).Sublist ((deliveredReadings ls n i).map pair) := by
  have h : NetInv ls n := netInv_reachable hr
  have hsub := (delivered_of_sublist h (List.Sublist.refl _) i).map pair
  rw [List.map_map] at hsub
  rw [publishedOf_eq h]
  exact hsub

/--
**Of each board, readings are published in the order in which it has sent them.**

In every run of any number of boards and their gateway in which the radio delivers the
packets of a board in order and none twice, however late and not all of them: what the
gateway has published of the board is a part of the readings that it has sent, in their
order, and each of them at most once.
-/
theorem published_in_sending_order {sketch : ι → Sketch} {mac : ι → Buf 6} {d : ExampleEspnowData}
    {b : MqttT} {ls : List (NetLabel ι)} {n : Net ι}
    (hr : run (netStep sketch mac) (Net.boot ι d b) ls = some n) {i : ι} (hradio : InOrder ls i) :
    (n.publishedOf i).Sublist ((n.senders i).sent.map fun p => pair p.1) := by
  have hsent := (sent_of_delivered hradio n).map pair
  rw [List.map_map] at hsent
  exact (published_of_delivered hr i).trans hsent

/-- A controller, and a board that sleeps. -/
def twoSketches : Bool → Sketch
  | true => .controller
  | false => .deepSleep

/-- The first packet is reported on, and the controller sends its second one. -/
def secondPacket : List SenderLabel :=
  [.other (.onDataSent 0), .other .wait, .other (.check 20002), .other (.store 20002),
    .setValues 0 3300, .other (.send true)]

def secondReading : Reading := ⟨20002, 3300⟩

/-- The callback with a packet of 128 bytes, from its take to its give. -/
def receiveAt (p : Ptr) : List Label :=
  [.cbTake, .cbMalloc p (List.replicate 128 0), .cbCopy, .cbSend, .cbGive]

/-- Three packets go on from the queue, and are published. -/
def publishThree : List Label :=
  forward ++ forward ++ forward ++ [.mqttConnected, .pubConnect, .pubReceive, .pubExamine, .pubPublish,
    .pubReceive, .pubExamine, .pubPublish, .pubReceive, .pubExamine, .pubPublish]

/--
The packet that was sent last is received first. The controller has been told of its first
packet, and has sent its second one, before the callback is called with either.
-/
def twoBoards : List (NetLabel Bool) :=
  (firstPacket ++ secondPacket).map (.sender true)
    ++ [.sender false (.other (.init true)), .sender false (.setValues 70 3000),
      .sender false (.other (.send true)), .deliver false 0]
    ++ (receiveAt 0).map .gateway ++ [.deliver true 0] ++ (receiveAt 1).map .gateway
    ++ [.deliver true 1] ++ (receiveAt 2).map .gateway ++ publishThree.map .gateway

theorem twoBoards_inOrder (i : Bool) : InOrder twoBoards i := by
  cases i with
  | false => exact List.pairwise_singleton _ 0
  | true => exact List.pairwise_pair.mpr Nat.zero_lt_one

set_option maxRecDepth 20000 in
/-- **Three readings are published, two of them of the controller and in its order.** -/
theorem twoBoards_published :
    ∃ n, run (netStep twoSketches fun _ => Buf.fill 6 0)
        (Net.boot Bool (Buf.fill 128 0) (Buf.fill 140 0)) twoBoards = some n
      ∧ n.gateway.published.length = 3 ∧ (n.publishedOf true).length = 2
      ∧ (n.publishedOf true).Sublist [pair firstReading, pair secondReading] := by
  obtain ⟨n, hrun, hpub, htwo, hsent⟩ : ∃ n, run (netStep twoSketches fun _ => Buf.fill 6 0)
      (Net.boot Bool (Buf.fill 128 0) (Buf.fill 140 0)) twoBoards = some n
        ∧ n.gateway.published.length = 3 ∧ (n.publishedOf true).length = 2
        ∧ ((n.senders true).sent.map fun p => pair p.1) = [pair firstReading, pair secondReading] :=
    ⟨_, rfl, rfl, rfl, rfl⟩
  refine ⟨n, hrun, hpub, htwo, ?_⟩
  rw [← hsent]
  exact published_in_sending_order hrun (twoBoards_inOrder true)

/-! ## What is recorded of a board -/

/--
**From the boards to the file, in order.**

Let any number of boards send to a gateway, by a radio that delivers the packets of each in
order and none twice, and let a broker pass on what it publishes, some of it and in its
order, as MQTT has it. Then the recorder gets through. Its lines are those of readings of
boards, and what it has recorded of a board is a part of what that board has sent, in the
order in which it was sent.
-/
theorem recorded_in_sending_order {sketch : ι → Sketch} {mac : ι → Buf 6} {d : ExampleEspnowData}
    {b : MqttT} {ls : List (NetLabel ι)} {n : Net ι}
    (hr : run (netStep sketch mac) (Net.boot ι d b) ls = some n) (hradio : ∀ i, InOrder ls i)
    {arrivals : List MqttRecorder.Arrival}
    (hbroker : (arrivals.map fun a => (PyGateway.utf8 a.msg.topic, a.msg.payload)).Sublist
      (n.gateway.published.map (·.val))) (file : List Char) :
    ∃ heard : List (Origin ι),
      MqttRecorder.onMessages file arrivals
        = some (file ++ logOf (arrivals.map (·.now)) (heard.map (·.reading)))
      ∧ heard.length = arrivals.length
      ∧ ∀ i, ((heard.filter fun o => o.board = i).map (·.reading)).Sublist
        ((n.senders i).sent.map (·.1)) := by
  have h : NetInv ls n := netInv_reachable hr
  rw [published_vals h] at hbroker
  obtain ⟨heard, hheard, hvals⟩ := List.sublist_map_iff.mp hbroker
  have hpairs : arrivals.map (fun a => (PyGateway.utf8 a.msg.topic, a.msg.payload))
      = (heard.map (·.reading)).map pair := by
    rw [hvals, List.map_map]
    rfl
  refine ⟨heard, ?_, ?_, fun i => (delivered_of_sublist h hheard i).trans
    (sent_of_delivered (hradio i) n)⟩
  · rw [onMessages_eq_write, write_eq_some_iff]
    exact ⟨_, records_of_pairs hpairs, rfl⟩
  · have hlen := congrArg List.length hvals
    rw [List.length_map, List.length_map] at hlen
    exact hlen.symm

set_option maxRecDepth 20000 in
/-- **A reading of the controller is recorded, and is what its board has sent.** -/
theorem twoBoards_recorded :
    ∃ n, run (netStep twoSketches fun _ => Buf.fill 6 0)
        (Net.boot Bool (Buf.fill 128 0) (Buf.fill 140 0)) twoBoards = some n
      ∧ ∃ heard : List (Origin Bool),
        MqttRecorder.onMessages [] [recorded] = some (logOf [recorded.now] (heard.map (·.reading)))
          ∧ heard.length = 1
          ∧ ∀ i, ((heard.filter fun o => o.board = i).map (·.reading)).Sublist
            ((n.senders i).sent.map (·.1)) := by
  obtain ⟨n, hrun, hpub⟩ : ∃ n, run (netStep twoSketches fun _ => Buf.fill 6 0)
      (Net.boot Bool (Buf.fill 128 0) (Buf.fill 140 0)) twoBoards = some n
        ∧ n.gateway.published.map (·.val)
          = [pair ⟨70, 3000⟩, pair firstReading, pair secondReading] :=
    ⟨_, rfl, rfl⟩
  have hbroker : ([recorded].map fun a => (PyGateway.utf8 a.msg.topic, a.msg.payload)).Sublist
      (n.gateway.published.map (·.val)) := by
    rw [hpub]
    exact .cons _ (.cons_cons _ (List.nil_sublist _))
  exact ⟨n, hrun, recorded_in_sending_order hrun twoBoards_inOrder hbroker []⟩

end EspNowGateway.Proof
