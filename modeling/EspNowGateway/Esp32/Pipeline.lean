import EspNowGateway.Lib.CHeap
import EspNowGateway.Lib.Transition
import EspNowGateway.Esp32.Message

/-!
# The ESP32 pipeline

Three pieces of code share the path of a frame. `example_espnow_recv_cb` runs in
the WiFi task, once per frame and never twice at a time; `espnow_task` and
`mqtt_pub` are loops of their own. Between the first two stand `s_espnow_queue`
(ten events, both ends block) and the binary semaphore `xSemaphoreData`; between
the last two stands `xQueuePublish` (ten messages, sent to without waiting). The
MQTT client's event handler sets and clears one bit at any time.

`step` fires one statement of one of them, so a schedule is a list of labels.
Where the source blocks, the label is not enabled. A copy that would leave its
object has no defined continuation, and the program counter that reached it moves
to a fault location from which nothing fires.

`World` also carries ghost records, which no step reads: what was received,
queued, published and dropped, and how often `free` was handed a dead pointer.
`Tagged.seq` is ghost too: the position of a frame in the order of reception.
-/

namespace EspNowGateway

open CObject CHeap

/-- A value with the reception number of the frame it comes from. -/
structure Tagged (α : Type) where
  seq : Nat
  val : α
  deriving DecidableEq, Repr

/-- `example_espnow_event_id_t`. -/
inductive EventId where
  | sendCb
  | recvCb
  deriving DecidableEq, Repr

/-- `example_espnow_event_t` with the `recv_cb` member of its union, the only one ever stored. -/
structure Event where
  id : EventId
  macAddr : Buf 6
  data : Ptr
  dataLen : Int
  deriving DecidableEq

/--
The arguments of one invocation of `example_espnow_recv_cb`. A pointer is `none`
when it is NULL, and otherwise the bytes that may be read through it: the caller
promises `len` of them behind `data`.
-/
structure RecvCall where
  macAddr : Option (Buf 6)
  len : Int
  data : Option { d : List UInt8 // len.toNat ≤ d.length }

/-- A frame that passed the argument check: a sender and at least one byte. -/
structure Frame where
  macAddr : Buf 6
  bytes : List UInt8
  nonempty : bytes ≠ []
  deriving DecidableEq

/-- The argument check of `example_espnow_recv_cb`, and what the call then works with. -/
def RecvCall.frame (c : RecvCall) : Option Frame :=
  match c.macAddr, c.data with
  | some mac, some d =>
      if h : 0 < c.len then
        some ⟨mac, d.val.take c.len.toNat, fun he => by
          have hlen := congrArg List.length he
          rw [List.length_take, List.length_nil] at hlen
          have := d.property
          omega⟩
      else none
  | _, _ => none

/-- A call with a sender, a pointer and a positive length is a frame of that many bytes. -/
theorem RecvCall.frame_of_pos {mac : Buf 6} {len : Int} (h : 0 < len)
    (d : { d : List UInt8 // len.toNat ≤ d.length }) :
    ∃ f, RecvCall.frame ⟨some mac, len, some d⟩ = some f ∧ f.bytes = d.val.take len.toNat := by
  rw [frame]
  exact ⟨_, dif_pos h, rfl⟩

/-- `xQueueCreate(10, ...)`, for both queues. -/
def queueLength : Nat := 10

/-- Where `example_espnow_recv_cb` is; each name is the statement it is about to execute. -/
inductive CbPc where
  | idle
  | taking (f : Tagged Frame)
  | allocating (f : Tagged Frame)
  | copying (f : Tagged Frame) (p : Ptr)
  | sending (e : Tagged Event)
  | freeing (e : Tagged Event)
  | giving
  | fault

/-- Where `espnow_task` is. -/
inductive TaskPc where
  | receiving
  | taking (e : Tagged Event)
  | copying (e : Tagged Event)
  | freeing (e : Tagged Event)
  | giving (seq : Nat)
  | filling (seq : Nat)
  | offering (m : Tagged MqttT)
  /-- The `memcpy` left `recv_data`, or read a dead buffer. -/
  | copyFault (e : Tagged Event)
  /-- A `strcpy` left its object. -/
  | fault

/-- Where `mqtt_pub` is. -/
inductive PubPc where
  | connecting
  | receiving
  | examining (m : Tagged MqttT)
  | publishing (m : Tagged MqttT)
  | stopped
  | fault

/-- The two points at which a message that was queued can be lost. -/
inductive DropPoint where
  /-- `xQueueSend(xQueuePublish, &mqttBuf, 0)` found the queue full. -/
  | publishQueueFull
  /-- `mqtt_pub` found `MQTT_CONNECTED_BIT` clear. -/
  | disconnected
  deriving DecidableEq, Repr

/-- The shared state, the locals of the loops, and the ghost records. -/
structure World where
  cb : CbPc
  task : TaskPc
  pub : PubPc
  xSemaphoreData : Bool
  sEspnowQueue : List (Tagged Event)
  xQueuePublish : List (Tagged MqttT)
  heap : Heap
  recvData : ExampleEspnowData
  mqttBuf : MqttT
  mqttConnectedBit : Bool
  received : List Frame
  queued : List Nat
  published : List (Tagged (List UInt8 × List UInt8))
  dropped : List (Nat × DropPoint)
  deadFrees : Nat

/-- `app_main` has created the queues, given the semaphore and started the tasks. -/
def World.boot (recvData : ExampleEspnowData) (mqttBuf : MqttT) : World where
  cb := .idle
  task := .receiving
  pub := .connecting
  xSemaphoreData := true
  sEspnowQueue := []
  xQueuePublish := []
  heap := Heap.empty
  recvData := recvData
  mqttBuf := mqttBuf
  mqttConnectedBit := false
  received := []
  queued := []
  published := []
  dropped := []
  deadFrees := 0

/-- `free(p)`, counting the calls that pass a dead pointer. -/
def World.free (w : World) (p : Ptr) : World :=
  { w with
    heap := w.heap.free p
    deadFrees := if p ∈ w.heap.live then w.deadFrees else w.deadFrees + 1 }

/-- One statement of one process, with the outcome of a call that may fail. -/
inductive Label where
  | call (c : RecvCall)
  | cbTake
  | cbMalloc (p : Ptr) (junk : List UInt8)
  | cbMallocFail
  | cbCopy
  | cbSend
  | cbSendFail
  | cbFree
  | cbGive
  | taskReceive
  | taskTake
  | taskCopy
  | taskFree
  | taskGive
  | taskFill
  | taskOffer
  | pubConnect
  | pubReceive
  | pubExamine
  | pubPublish
  | mqttConnected
  | mqttDisconnected

/-- The event `example_espnow_recv_cb` posts for a frame copied to `p`. -/
def recvEvent (f : Frame) (p : Ptr) : Event :=
  { id := .recvCb, macAddr := f.macAddr, data := p, dataLen := f.bytes.length }

/-- The labels of `example_espnow_recv_cb`. -/
def cbStep (w : World) : Label → Option World
  | .call c =>
      match w.cb with
      | .idle =>
          match c.frame with
          | none => some w
          | some f => some { w with cb := .taking ⟨w.received.length, f⟩, received := w.received ++ [f] }
      | _ => none
  | .cbTake =>
      match w.cb with
      | .taking f =>
          -- `portMAX_DELAY`: without the semaphore there is no step
          if w.xSemaphoreData then some { w with cb := .allocating f, xSemaphoreData := false }
          else none
      | _ => none
  | .cbMalloc p junk =>
      match w.cb with
      | .allocating f =>
          if h : p ∉ w.heap.live then
            if junk.length = f.val.bytes.length then
              some { w with cb := .copying f p, heap := w.heap.malloc p junk h }
            else none
          else none
      | _ => none
  | .cbMallocFail =>
      match w.cb with
      -- "Malloc receive data fail": the callback returns with the semaphore still taken
      | .allocating _ => some { w with cb := .idle }
      | _ => none
  | .cbCopy =>
      match w.cb with
      | .copying f p =>
          match w.heap.memcpy p 0 f.val.bytes with
          | some heap => some { w with cb := .sending ⟨f.seq, recvEvent f.val p⟩, heap := heap }
          | none => some { w with cb := .fault }
      | _ => none
  | .cbSend =>
      match w.cb with
      | .sending e =>
          -- on a full queue the callback waits, with the semaphore in its hands
          if w.sEspnowQueue.length < queueLength then
            some { w with
              cb := .giving, sEspnowQueue := w.sEspnowQueue ++ [e], queued := w.queued ++ [e.seq] }
          else none
      | _ => none
  | .cbSendFail =>
      match w.cb with
      | .sending e => some { w with cb := .freeing e }
      | _ => none
  | .cbFree =>
      match w.cb with
      | .freeing e => some { w.free e.val.data with cb := .giving }
      | _ => none
  | .cbGive =>
      match w.cb with
      | .giving => some { w with cb := .idle, xSemaphoreData := true }
      | _ => none
  | _ => none

/-- The labels of `espnow_task`. -/
def taskStep (w : World) : Label → Option World
  | .taskReceive =>
      match w.task, w.sEspnowQueue with
      | .receiving, e :: rest =>
          -- no code posts another id, so the "Callback type error" branch has no value to match
          match e.val.id with
          | .sendCb => some { w with sEspnowQueue := rest }
          | .recvCb => some { w with task := .taking e, sEspnowQueue := rest }
      | _, _ => none
  | .taskTake =>
      match w.task with
      | .taking e =>
          if w.xSemaphoreData then some { w with task := .copying e, xSemaphoreData := false }
          else none
      | _ => none
  | .taskCopy =>
      match w.task with
      | .copying e =>
          match (w.heap.get e.val.data).bind
              fun m => copyRecvData w.recvData (m.take e.val.dataLen.toNat) with
          | some d => some { w with task := .freeing e, recvData := d }
          -- a dead buffer, or more bytes than `recv_data` has
          | none => some { w with task := .copyFault e }
      | _ => none
  | .taskFree =>
      match w.task with
      | .freeing e => some { w.free e.val.data with task := .giving e.seq }
      | _ => none
  | .taskGive =>
      match w.task with
      | .giving n => some { w with task := .filling n, xSemaphoreData := true }
      | _ => none
  | .taskFill =>
      match w.task with
      | .filling n =>
          match fillMqttBuf w.mqttBuf w.recvData with
          | some m => some { w with task := .offering ⟨n, m⟩, mqttBuf := m }
          | none => some { w with task := .fault }
      | _ => none
  | .taskOffer =>
      match w.task with
      | .offering m =>
          -- a wait of 0, and the result is not looked at
          if w.xQueuePublish.length < queueLength then
            some { w with task := .receiving, xQueuePublish := w.xQueuePublish ++ [m] }
          else
            some { w with
              task := .receiving, dropped := w.dropped ++ [(m.seq, .publishQueueFull)] }
      | _ => none
  | _ => none

/-- The labels of `mqtt_pub` and of `mqtt_event_handler`. -/
def pubStep (w : World) : Label → Option World
  | .pubConnect =>
      -- its wait is satisfied; that the bit may be gone before the task runs again changes nothing
      match w.pub with
      | .connecting => if w.mqttConnectedBit then some { w with pub := .receiving } else none
      | _ => none
  | .pubReceive =>
      match w.pub, w.xQueuePublish with
      | .receiving, m :: rest => some { w with pub := .examining m, xQueuePublish := rest }
      | _, _ => none
  | .pubExamine =>
      match w.pub with
      | .examining m =>
          if w.mqttConnectedBit then
            if MqttT.topicType m.val = TopicType.publish.code then
              some { w with pub := .publishing m }
            else if MqttT.topicType m.val = TopicType.stop.code then some { w with pub := .stopped }
            else some { w with pub := .receiving }
          -- "Disconnect to MQTT Server. Skip to send": the message has been taken and is gone
          else
            some { w with pub := .receiving, dropped := w.dropped ++ [(m.seq, .disconnected)] }
      | _ => none
  | .pubPublish =>
      match w.pub with
      | .publishing m =>
          match MqttT.published m.val with
          | some s => some { w with pub := .receiving, published := w.published ++ [⟨m.seq, s⟩] }
          | none => some { w with pub := .fault }
      | _ => none
  | .mqttConnected => some { w with mqttConnectedBit := true }
  | .mqttDisconnected => some { w with mqttConnectedBit := false }
  | _ => none

/-- The process a label belongs to decides which step function fires it. -/
def step (w : World) (l : Label) : Option World :=
  match l with
  | .call _ | .cbTake | .cbMalloc _ _ | .cbMallocFail | .cbCopy | .cbSend | .cbSendFail
  | .cbFree | .cbGive => cbStep w l
  | .taskReceive | .taskTake | .taskCopy | .taskFree | .taskGive | .taskFill
  | .taskOffer => taskStep w l
  | .pubConnect | .pubReceive | .pubExamine | .pubPublish
  | .mqttConnected | .mqttDisconnected => pubStep w l

/-- Frames keep their numbers when others are received. -/
theorem received_keep {received received' : List Frame} (h : received <+: received') {n : Nat}
    {f : Frame} (hf : received[n]? = some f) : received'[n]? = some f := by
  obtain ⟨later, rfl⟩ := h
  rw [List.getElem?_append_left (List.getElem?_eq_some_iff.mp hf).1]
  exact hf

/-! ## What one step can do -/

/-- Every effect a step can have, one constructor for each branch of the source. -/
inductive Step (w : World) : Label → World → Prop where
  | rejected (c : RecvCall) : w.cb = .idle → c.frame = none → Step w (.call c) w
  | accepted (c : RecvCall) (f : Frame) : w.cb = .idle → c.frame = some f →
      Step w (.call c)
        { w with cb := .taking ⟨w.received.length, f⟩, received := w.received ++ [f] }
  | cbTake (f : Tagged Frame) : w.cb = .taking f → w.xSemaphoreData = true →
      Step w .cbTake { w with cb := .allocating f, xSemaphoreData := false }
  | cbMalloc (f : Tagged Frame) (p : Ptr) (junk : List UInt8) (h : p ∉ w.heap.live) :
      w.cb = .allocating f → junk.length = f.val.bytes.length →
      Step w (.cbMalloc p junk) { w with cb := .copying f p, heap := w.heap.malloc p junk h }
  | cbMallocFail (f : Tagged Frame) : w.cb = .allocating f →
      Step w .cbMallocFail { w with cb := .idle }
  | cbCopy (f : Tagged Frame) (p : Ptr) (heap : Heap) : w.cb = .copying f p →
      w.heap.memcpy p 0 f.val.bytes = some heap →
      Step w .cbCopy { w with cb := .sending ⟨f.seq, recvEvent f.val p⟩, heap := heap }
  | cbCopyFault (f : Tagged Frame) (p : Ptr) : w.cb = .copying f p →
      w.heap.memcpy p 0 f.val.bytes = none → Step w .cbCopy { w with cb := .fault }
  | cbSend (e : Tagged Event) : w.cb = .sending e → w.sEspnowQueue.length < queueLength →
      Step w .cbSend { w with
        cb := .giving, sEspnowQueue := w.sEspnowQueue ++ [e], queued := w.queued ++ [e.seq] }
  | cbSendFail (e : Tagged Event) : w.cb = .sending e →
      Step w .cbSendFail { w with cb := .freeing e }
  | cbFree (e : Tagged Event) : w.cb = .freeing e →
      Step w .cbFree { w.free e.val.data with cb := .giving }
  | cbGive : w.cb = .giving → Step w .cbGive { w with cb := .idle, xSemaphoreData := true }
  | taskSkip (e : Tagged Event) (rest : List (Tagged Event)) : w.task = .receiving →
      w.sEspnowQueue = e :: rest → e.val.id = .sendCb →
      Step w .taskReceive { w with sEspnowQueue := rest }
  | taskReceive (e : Tagged Event) (rest : List (Tagged Event)) : w.task = .receiving →
      w.sEspnowQueue = e :: rest → e.val.id = .recvCb →
      Step w .taskReceive { w with task := .taking e, sEspnowQueue := rest }
  | taskTake (e : Tagged Event) : w.task = .taking e → w.xSemaphoreData = true →
      Step w .taskTake { w with task := .copying e, xSemaphoreData := false }
  | taskCopy (e : Tagged Event) (m : List UInt8) (d : ExampleEspnowData) : w.task = .copying e →
      w.heap.get e.val.data = some m →
      copyRecvData w.recvData (m.take e.val.dataLen.toNat) = some d →
      Step w .taskCopy { w with task := .freeing e, recvData := d }
  | taskCopyFault (e : Tagged Event) : w.task = .copying e →
      (∀ m, w.heap.get e.val.data = some m →
        copyRecvData w.recvData (m.take e.val.dataLen.toNat) = none) →
      Step w .taskCopy { w with task := .copyFault e }
  | taskFree (e : Tagged Event) : w.task = .freeing e →
      Step w .taskFree { w.free e.val.data with task := .giving e.seq }
  | taskGive (n : Nat) : w.task = .giving n →
      Step w .taskGive { w with task := .filling n, xSemaphoreData := true }
  | taskFill (n : Nat) (m : MqttT) : w.task = .filling n →
      fillMqttBuf w.mqttBuf w.recvData = some m →
      Step w .taskFill { w with task := .offering ⟨n, m⟩, mqttBuf := m }
  | taskFillFault (n : Nat) : w.task = .filling n → fillMqttBuf w.mqttBuf w.recvData = none →
      Step w .taskFill { w with task := .fault }
  | taskOffer (m : Tagged MqttT) : w.task = .offering m → w.xQueuePublish.length < queueLength →
      Step w .taskOffer { w with task := .receiving, xQueuePublish := w.xQueuePublish ++ [m] }
  | taskDrop (m : Tagged MqttT) : w.task = .offering m → ¬ w.xQueuePublish.length < queueLength →
      Step w .taskOffer { w with
        task := .receiving, dropped := w.dropped ++ [(m.seq, .publishQueueFull)] }
  | pubConnect : w.pub = .connecting → w.mqttConnectedBit = true →
      Step w .pubConnect { w with pub := .receiving }
  | pubReceive (m : Tagged MqttT) (rest : List (Tagged MqttT)) : w.pub = .receiving →
      w.xQueuePublish = m :: rest →
      Step w .pubReceive { w with pub := .examining m, xQueuePublish := rest }
  | pubExamine (m : Tagged MqttT) : w.pub = .examining m → w.mqttConnectedBit = true →
      MqttT.topicType m.val = TopicType.publish.code →
      Step w .pubExamine { w with pub := .publishing m }
  | pubStop (m : Tagged MqttT) : w.pub = .examining m → w.mqttConnectedBit = true →
      MqttT.topicType m.val = TopicType.stop.code →
      Step w .pubExamine { w with pub := .stopped }
  | pubIgnore (m : Tagged MqttT) : w.pub = .examining m → w.mqttConnectedBit = true →
      MqttT.topicType m.val ≠ TopicType.publish.code →
      MqttT.topicType m.val ≠ TopicType.stop.code →
      Step w .pubExamine { w with pub := .receiving }
  | pubDrop (m : Tagged MqttT) : w.pub = .examining m → w.mqttConnectedBit = false →
      Step w .pubExamine { w with
        pub := .receiving, dropped := w.dropped ++ [(m.seq, .disconnected)] }
  | pubPublish (m : Tagged MqttT) (s : List UInt8 × List UInt8) : w.pub = .publishing m →
      MqttT.published m.val = some s →
      Step w .pubPublish { w with pub := .receiving, published := w.published ++ [⟨m.seq, s⟩] }
  | pubFault (m : Tagged MqttT) : w.pub = .publishing m → MqttT.published m.val = none →
      Step w .pubPublish { w with pub := .fault }
  | mqttConnected : Step w .mqttConnected { w with mqttConnectedBit := true }
  | mqttDisconnected : Step w .mqttDisconnected { w with mqttConnectedBit := false }

theorem cbStep_cases {w w' : World} {l : Label} (h : cbStep w l = some w') : Step w l w' := by
  cases l <;> simp only [cbStep, reduceCtorEq] at h
  case call c =>
    split at h
    · rename_i hcb
      split at h
      · cases h; exact .rejected c hcb (by assumption)
      · cases h; exact .accepted c _ hcb (by assumption)
    · cases h
  case cbTake =>
    split at h
    · split at h
      · cases h; exact .cbTake _ (by assumption) (by assumption)
      · cases h
    · cases h
  case cbMalloc p junk =>
    split at h
    · split at h
      · split at h
        · cases h; exact .cbMalloc _ p junk (by assumption) (by assumption) (by assumption)
        · cases h
      · cases h
    · cases h
  case cbMallocFail =>
    split at h
    · cases h; exact .cbMallocFail _ (by assumption)
    · cases h
  case cbCopy =>
    split at h
    · split at h
      · cases h; exact .cbCopy _ _ _ (by assumption) (by assumption)
      · cases h; exact .cbCopyFault _ _ (by assumption) (by assumption)
    · cases h
  case cbSend =>
    split at h
    · split at h
      · cases h; exact .cbSend _ (by assumption) (by assumption)
      · cases h
    · cases h
  case cbSendFail =>
    split at h
    · cases h; exact .cbSendFail _ (by assumption)
    · cases h
  case cbFree =>
    split at h
    · cases h; exact .cbFree _ (by assumption)
    · cases h
  case cbGive =>
    split at h
    · cases h; exact .cbGive (by assumption)
    · cases h

theorem taskStep_cases {w w' : World} {l : Label} (h : taskStep w l = some w') : Step w l w' := by
  cases l <;> simp only [taskStep, reduceCtorEq] at h
  case taskReceive =>
    split at h
    · split at h
      · cases h; exact .taskSkip _ _ (by assumption) (by assumption) (by assumption)
      · cases h; exact .taskReceive _ _ (by assumption) (by assumption) (by assumption)
    · cases h
  case taskTake =>
    split at h
    · split at h
      · cases h; exact .taskTake _ (by assumption) (by assumption)
      · cases h
    · cases h
  case taskCopy =>
    split at h
    · rename_i e htask
      split at h
      · rename_i d hd
        obtain ⟨m, hm, hc⟩ := Option.bind_eq_some_iff.mp hd
        cases h; exact .taskCopy e m d htask hm hc
      · rename_i hnone
        cases h
        refine .taskCopyFault e htask fun m hm => ?_
        rw [hm] at hnone; exact hnone
    · cases h
  case taskFree =>
    split at h
    · cases h; exact .taskFree _ (by assumption)
    · cases h
  case taskGive =>
    split at h
    · cases h; exact .taskGive _ (by assumption)
    · cases h
  case taskFill =>
    split at h
    · split at h
      · cases h; exact .taskFill _ _ (by assumption) (by assumption)
      · cases h; exact .taskFillFault _ (by assumption) (by assumption)
    · cases h
  case taskOffer =>
    split at h
    · split at h
      · cases h; exact .taskOffer _ (by assumption) (by assumption)
      · cases h; exact .taskDrop _ (by assumption) (by assumption)
    · cases h

theorem pubStep_cases {w w' : World} {l : Label} (h : pubStep w l = some w') : Step w l w' := by
  cases l <;> simp only [pubStep, reduceCtorEq] at h
  case pubConnect =>
    split at h
    · split at h
      · cases h; exact .pubConnect (by assumption) (by assumption)
      · cases h
    · cases h
  case pubReceive =>
    split at h
    · cases h; exact .pubReceive _ _ (by assumption) (by assumption)
    · cases h
  case pubExamine =>
    split at h
    · rename_i m hpub
      split at h
      · split at h
        · cases h; exact .pubExamine m hpub (by assumption) (by assumption)
        · split at h
          · cases h; exact .pubStop m hpub (by assumption) (by assumption)
          · cases h; exact .pubIgnore m hpub (by assumption) (by assumption) (by assumption)
      · rename_i hbit
        cases h; exact .pubDrop m hpub (Bool.eq_false_iff.mpr hbit)
    · cases h
  case pubPublish =>
    split at h
    · split at h
      · cases h; exact .pubPublish _ _ (by assumption) (by assumption)
      · cases h; exact .pubFault _ (by assumption) (by assumption)
    · cases h
  case mqttConnected => cases h; exact .mqttConnected
  case mqttDisconnected => cases h; exact .mqttDisconnected

/-- **Everything a step can do.** Later proofs split on `Step` and never unfold `step`. -/
theorem step_cases {w w' : World} {l : Label} (h : step w l = some w') : Step w l w' := by
  cases l <;> first
    | exact cbStep_cases h
    | exact taskStep_cases h
    | exact pubStep_cases h

/-! ## Runs -/

/-- A run of the pipeline from boot, whose every step meets `C`. -/
def Runs (C : World → Label → Prop) (ls : List Label) (w : World) : Prop :=
  ∃ recvData mqttBuf, TransitionSystem.StepsMeet step C (World.boot recvData mqttBuf) ls
    ∧ TransitionSystem.run step (World.boot recvData mqttBuf) ls = some w

/--
The invariant rule for pipeline runs: true at boot, kept by every `Step`. The
state before the step is itself the end of a run, so what was proved of runs
before may be used of it.
-/
theorem runs_invariant {C : World → Label → Prop} {I : World → Prop} {ls : List Label} {w : World}
    (h₀ : ∀ d b, I (World.boot d b))
    (hstep : ∀ ls w l w', Runs C ls w → I w → C w l → Step w l w' → I w') (hr : Runs C ls w) :
    I w := by
  obtain ⟨d, b, hm, hr⟩ := hr
  exact TransitionSystem.run_induction (P := fun _ w => I w) (h₀ d b)
    (fun ls s l s' hm hr hI hC hs => hstep ls s l s' ⟨d, b, hm, hr⟩ hI hC (step_cases hs)) ls w hm hr

/-- The induction rule for pipeline runs, for what depends on the labels too. -/
theorem runs_induction {C : World → Label → Prop} {P : List Label → World → Prop} {ls : List Label}
    {w : World} (h₀ : ∀ d b, P [] (World.boot d b))
    (hstep : ∀ ls w l w', Runs C ls w → P ls w → C w l → Step w l w' → P (ls ++ [l]) w')
    (hr : Runs C ls w) : P ls w := by
  obtain ⟨d, b, hm, hr⟩ := hr
  exact TransitionSystem.run_induction (h₀ d b)
    (fun ls s l s' hm hr hP hC hs => hstep ls s l s' ⟨d, b, hm, hr⟩ hP hC (step_cases hs)) ls w hm hr

theorem runs_mono {C D : World → Label → Prop} {ls : List Label} {w : World}
    (hCD : ∀ w l, C w l → D w l) (hr : Runs C ls w) : Runs D ls w := by
  obtain ⟨d, b, hm, hr⟩ := hr
  exact ⟨d, b, TransitionSystem.stepsMeet_mono hCD hm, hr⟩

/-- A run goes on from where it stands. -/
theorem runs_append {C : World → Label → Prop} {ls ls' : List Label} {w w' : World}
    (hr : Runs C ls w) (hm : TransitionSystem.StepsMeet step C w ls')
    (hrun : TransitionSystem.run step w ls' = some w') : Runs C (ls ++ ls') w' := by
  obtain ⟨d, b, hm₀, hr₀⟩ := hr
  refine ⟨d, b, TransitionSystem.stepsMeet_append.mpr ⟨hm₀, fun m hm' => ?_⟩,
    TransitionSystem.run_append_eq_some.mpr ⟨w, hr₀, hrun⟩⟩
  rw [hr₀] at hm'; cases hm'; exact hm

/-- And by one step. -/
theorem runs_snoc {C : World → Label → Prop} {ls : List Label} {w w' : World} {l : Label}
    (hr : Runs C ls w) (hC : C w l) (hs : step w l = some w') : Runs C (ls ++ [l]) w' :=
  runs_append hr ⟨hC, fun _ _ => trivial⟩ ((TransitionSystem.run_singleton _ _).trans hs)

/-- Neither queue ever exceeds its capacity. -/
theorem queues_bounded {C : World → Label → Prop} {ls : List Label} {w : World}
    (hr : Runs C ls w) :
    w.sEspnowQueue.length ≤ queueLength ∧ w.xQueuePublish.length ≤ queueLength := by
  refine runs_invariant (I := fun w => w.sEspnowQueue.length ≤ queueLength
    ∧ w.xQueuePublish.length ≤ queueLength) (fun _ _ => ⟨Nat.zero_le _, Nat.zero_le _⟩) ?_ hr
  intro _ w l w' _ ⟨hs, hp⟩ _ hstep
  cases hstep with
  | cbSend e _ hlt => exact ⟨by rw [List.length_append, List.length_singleton]; omega, hp⟩
  | taskSkip e rest _ hq _ => rw [hq, List.length_cons] at hs; exact ⟨Nat.le_of_succ_le hs, hp⟩
  | taskReceive e rest _ hq _ => rw [hq, List.length_cons] at hs; exact ⟨Nat.le_of_succ_le hs, hp⟩
  | taskOffer m _ hlt => exact ⟨hs, by rw [List.length_append, List.length_singleton]; omega⟩
  | pubReceive m rest _ hq => rw [hq, List.length_cons] at hp; exact ⟨hs, Nat.le_of_succ_le hp⟩
  | _ => exact ⟨hs, hp⟩

/-! ## Short schedules -/

/-- An invocation with a frame of one byte. -/
def oneByteCall : RecvCall :=
  { macAddr := some (Buf.fill 6 0), len := 1, data := some ⟨[65], by decide⟩ }

/-- One invocation of the callback that runs to its end, its buffer at `p`. -/
def deliver (p : Ptr) : List Label :=
  [.call oneByteCall, .cbTake, .cbMalloc p [0], .cbCopy, .cbSend, .cbGive]

end EspNowGateway
