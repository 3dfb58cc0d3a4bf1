import EspNowGateway.Lib.Transition

/-!
# The ESP8266 sketches

`setup` runs once and `loop` for ever after. Both sketches clear a flag, send a
packet and wait for the flag, which the SDK's callback sets. The controller sends
whenever its interval has passed, by the millisecond counter; the other one sends
once, goes to deep sleep, and starts anew when it wakes.

The SDK is the environment: whether `esp_now_init` succeeds, whether `esp_now_send`
accepts a packet, and when `OnDataSent` reports on one that was accepted. It accepts
none before it is initialised, and reports once on each.

Time is true time in milliseconds, of which `millis()` is the remainder. `now` is
the latest time it was read at, `stored` has the times of the readings that went to
`lastTime`; both are ghost, and so is `outstanding`.
-/

namespace EspNowGateway

/-- The two sketches. -/
inductive Sketch where
  | controller
  | deepSleep
  deriving DecidableEq, Repr

/-- Where a sketch is; each name is what it is about to do. -/
inductive SketchPc where
  | initialising
  /-- The test of the interval at the top of `loop`. -/
  | checking
  /-- `lastTime = millis()`. -/
  | storing
  /-- `esp_now_send_status = false`. -/
  | clearing
  /-- `esp_now_send`. -/
  | sending
  /-- In the loop "Wait until send complete". -/
  | waiting
  /-- Behind `ESP.deepSleep`. -/
  | sleeping
  deriving DecidableEq, Repr

/-- The globals, the state of the SDK, and the ghost records. -/
structure Board where
  pc : SketchPc
  espNowSendStatus : Bool
  lastTime : UInt32
  espNowReady : Bool
  outstanding : Nat
  now : Nat
  stored : List Nat
  deriving DecidableEq, Repr

/-- Power on, or a wake-up from deep sleep. -/
def Board.boot : Board where
  pc := .initialising
  espNowSendStatus := false
  lastTime := 0
  espNowReady := false
  outstanding := 0
  now := 0
  stored := []

/-- `unsigned long timerDelay = 10000`. -/
def timerDelay : UInt32 := 10000

/-- `millis()` at a true time. -/
def millis (t : Nat) : UInt32 := UInt32.ofNat t

/-- Where `loop` begins. -/
def Sketch.top : Sketch → SketchPc
  | .controller => .checking
  | .deepSleep => .clearing

/-- Where the sketch goes on when its send is complete. -/
def Sketch.afterSend : Sketch → SketchPc
  | .controller => .checking
  | .deepSleep => .sleeping

/-- One statement of a sketch, with the outcome of a call or the time of a reading; or the callback. -/
inductive SketchLabel where
  | init (ok : Bool)
  | check (t : Nat)
  | store (t : Nat)
  | clear
  | send (accepted : Bool)
  | wait
  | onDataSent (sendStatus : UInt8)
  | wakeUp
  | delayOver
  deriving DecidableEq, Repr

/-- The statements of a sketch, and the callback. -/
def sketchStep (sketch : Sketch) (b : Board) : SketchLabel → Option Board
  | .init ok =>
      match b.pc with
      -- "Error initializing ESP-NOW": `setup` returns, and `loop` begins all the same
      | .initialising => some { b with pc := sketch.top, espNowReady := ok, lastTime := 0 }
      | _ => none
  | .check t =>
      match b.pc with
      | .checking =>
          if b.now ≤ t then
            some { b with
              pc := if millis t - b.lastTime > timerDelay then .storing else .checking
              now := t }
          else none
      | _ => none
  | .store t =>
      match b.pc with
      | .storing =>
          if b.now ≤ t then
            some { b with
              pc := .clearing, lastTime := millis t, now := t, stored := b.stored ++ [t] }
          else none
      | _ => none
  | .clear =>
      match b.pc with
      | .clearing => some { b with pc := .sending, espNowSendStatus := false }
      | _ => none
  | .send accepted =>
      match b.pc with
      | .sending =>
          -- the result of `esp_now_send` is not looked at
          if accepted then
            if b.espNowReady then some { b with pc := .waiting, outstanding := b.outstanding + 1 }
            else none
          else some { b with pc := .waiting }
      | _ => none
  | .wait =>
      match b.pc with
      | .waiting => some { b with pc := if b.espNowSendStatus then sketch.afterSend else .waiting }
      | _ => none
  | .onDataSent _ =>
      -- the status is printed, and the flag set whatever it is
      if 0 < b.outstanding then
        some { b with espNowSendStatus := true, outstanding := b.outstanding - 1 }
      else none
  | .wakeUp =>
      match b.pc with
      | .sleeping => some Board.boot
      | _ => none
  | .delayOver =>
      match b.pc with
      -- `delay(1000)` has passed and the board is still awake
      | .sleeping => some { b with pc := sketch.top }
      | _ => none

/-! ## What one step can do -/

/-- Every effect a step can have. -/
inductive SketchStep (sketch : Sketch) (b : Board) : SketchLabel → Board → Prop where
  | init (ok : Bool) : b.pc = .initialising →
      SketchStep sketch b (.init ok) { b with pc := sketch.top, espNowReady := ok, lastTime := 0 }
  | early (t : Nat) : b.pc = .checking → b.now ≤ t → ¬ millis t - b.lastTime > timerDelay →
      SketchStep sketch b (.check t) { b with pc := .checking, now := t }
  | due (t : Nat) : b.pc = .checking → b.now ≤ t → millis t - b.lastTime > timerDelay →
      SketchStep sketch b (.check t) { b with pc := .storing, now := t }
  | store (t : Nat) : b.pc = .storing → b.now ≤ t →
      SketchStep sketch b (.store t)
        { b with pc := .clearing, lastTime := millis t, now := t, stored := b.stored ++ [t] }
  | clear : b.pc = .clearing →
      SketchStep sketch b .clear { b with pc := .sending, espNowSendStatus := false }
  | accepted : b.pc = .sending → b.espNowReady = true →
      SketchStep sketch b (.send true)
        { b with pc := .waiting, outstanding := b.outstanding + 1 }
  | rejected : b.pc = .sending → SketchStep sketch b (.send false) { b with pc := .waiting }
  | wait : b.pc = .waiting → b.espNowSendStatus = false → SketchStep sketch b .wait b
  | complete : b.pc = .waiting → b.espNowSendStatus = true →
      SketchStep sketch b .wait { b with pc := sketch.afterSend }
  | onDataSent (sendStatus : UInt8) : 0 < b.outstanding →
      SketchStep sketch b (.onDataSent sendStatus)
        { b with espNowSendStatus := true, outstanding := b.outstanding - 1 }
  | wakeUp : b.pc = .sleeping → SketchStep sketch b .wakeUp Board.boot
  | delayOver : b.pc = .sleeping → SketchStep sketch b .delayOver { b with pc := sketch.top }

theorem sketchStep_cases {sketch : Sketch} {b b' : Board} {l : SketchLabel}
    (h : sketchStep sketch b l = some b') : SketchStep sketch b l b' := by
  cases l with
  | init ok =>
      rw [sketchStep] at h
      split at h
      · cases h; exact .init ok (by assumption)
      · cases h
  | check t =>
      rw [sketchStep] at h
      split at h
      · rename_i hpc
        split at h
        · rename_i hle
          cases h
          by_cases hdue : millis t - b.lastTime > timerDelay
          · rw [if_pos hdue]; exact .due t hpc hle hdue
          · rw [if_neg hdue]; exact .early t hpc hle hdue
        · cases h
      · cases h
  | store t =>
      rw [sketchStep] at h
      split at h
      · split at h
        · cases h; exact .store t (by assumption) (by assumption)
        · cases h
      · cases h
  | clear =>
      rw [sketchStep] at h
      split at h
      · cases h; exact .clear (by assumption)
      · cases h
  | send accepted =>
      rw [sketchStep] at h
      split at h
      · rename_i hpc
        cases accepted with
        | false => cases h; exact .rejected hpc
        | true =>
            rw [if_pos rfl] at h
            split at h
            · cases h; exact .accepted hpc (by assumption)
            · cases h
      · cases h
  | wait =>
      rw [sketchStep] at h
      split at h
      · rename_i hpc
        cases h
        by_cases hflag : b.espNowSendStatus = true
        · rw [if_pos hflag]
          exact .complete hpc hflag
        · rw [if_neg hflag, ← hpc]
          exact .wait hpc (Bool.eq_false_iff.mpr hflag)
      · cases h
  | onDataSent sendStatus =>
      rw [sketchStep] at h
      split at h
      · cases h; exact .onDataSent sendStatus (by assumption)
      · cases h
  | wakeUp =>
      rw [sketchStep] at h
      split at h
      · cases h; exact .wakeUp (by assumption)
      · cases h
  | delayOver =>
      rw [sketchStep] at h
      split at h
      · cases h; exact .delayOver (by assumption)
      · cases h

end EspNowGateway
