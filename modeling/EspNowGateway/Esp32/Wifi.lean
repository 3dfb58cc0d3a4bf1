import EspNowGateway.Lib.Transition

/-!
# Joining the access point

`wifi_start` waits in `app_main` for one of two bits of `s_wifi_event_group` and
then deletes the group. The bits are set by `event_handler`, which was registered
before and stays registered: the event loop calls it on every link loss and every
new lease for as long as the program runs. If `wifi_start` fails, the program
aborts, and nothing runs any more.

`events` and `staleSets` are ghost: what has been handled so far, and how often a
bit was set in a group that no longer existed.
-/

namespace EspNowGateway

/-- The events `event_handler` has a branch for. -/
inductive WifiEvent where
  | staStart
  | staDisconnected
  | gotIp
  deriving DecidableEq, Repr

/-- `WIFI_CONNECTED_BIT` and `WIFI_FAIL_BIT`. -/
inductive WifiBit where
  | connected
  | fail
  deriving DecidableEq, Repr

/-- What `event_handler` calls, besides the log. -/
inductive HandlerCall where
  | espWifiConnect
  | setBits (b : WifiBit)
  deriving DecidableEq, Repr

/-- `event_handler`: the new `s_retry_num`, and the call it makes. -/
def eventHandler (maximumRetry sRetryNum : Nat) : WifiEvent → Nat × HandlerCall
  | .staStart => (sRetryNum, .espWifiConnect)
  | .staDisconnected =>
      if sRetryNum < maximumRetry then (sRetryNum + 1, .espWifiConnect)
      -- the counter stays where it is, and every further loss sets the bit again
      else (sRetryNum, .setBits .fail)
  | .gotIp => (0, .setBits .connected)

/-- The two bits of `s_wifi_event_group`. -/
structure EventGroup where
  connected : Bool
  fail : Bool
  deriving DecidableEq, Repr

def EventGroup.set (g : EventGroup) : WifiBit → EventGroup
  | .connected => { g with connected := true }
  | .fail => { g with fail := true }

/-- Where `app_main` is. -/
inductive StartPc where
  /-- About to call `xEventGroupWaitBits`. -/
  | calling
  /-- Blocked in it: neither bit was set at the call. -/
  | blocked
  /--
  Its wait is satisfied. It returns the bits as they stood at that moment, however
  late `app_main` comes to run and whatever is set until then.
  -/
  | woken (bits : EventGroup)
  /-- `wifi_start` has returned `ESP_OK` (true) or `ESP_FAIL`. -/
  | returned (ok : Bool)
  | running
  | aborted
  deriving DecidableEq, Repr

/-- A set satisfies a wait that is blocked, with the bits it leaves behind. -/
def StartPc.satisfied (g : EventGroup) : StartPc → StartPc
  | .blocked => .woken g
  | pc => pc

/-- `s_retry_num`, the event group (none once deleted), `app_main`, and the ghost records. -/
structure Station where
  sRetryNum : Nat
  sWifiEventGroup : Option EventGroup
  appMain : StartPc
  events : List WifiEvent
  staleSets : Nat

/-- `initialise_wifi` has created the group and registered the handler. -/
def Station.boot : Station where
  sRetryNum := 0
  sWifiEventGroup := some ⟨false, false⟩
  appMain := .calling
  events := []
  staleSets := 0

/-- `xEventGroupSetBits(s_wifi_event_group, b)`. -/
def Station.setBits (s : Station) (b : WifiBit) : Station :=
  match s.sWifiEventGroup with
  | some g => { s with
      sWifiEventGroup := some (g.set b), appMain := s.appMain.satisfied (g.set b) }
  | none => { s with staleSets := s.staleSets + 1 }

/-- One event handled, or one step of `app_main`. -/
inductive WifiLabel where
  | event (e : WifiEvent)
  | waitBits
  | getChannelFail
  | delete
  | errorCheck
  deriving DecidableEq, Repr

/-- The event loop calls `event_handler`. -/
def handleEvent (maximumRetry : Nat) (s : Station) (e : WifiEvent) : Station :=
  let s' := { s with
    sRetryNum := (eventHandler maximumRetry s.sRetryNum e).1, events := s.events ++ [e] }
  match (eventHandler maximumRetry s.sRetryNum e).2 with
  | .espWifiConnect => s'
  | .setBits b => s'.setBits b

/--
`wifi_start` from `xEventGroupWaitBits` on, and the `ESP_ERROR_CHECK` around it. The
call is a step, and the wait is satisfied there or, later, in `Station.setBits`.
-/
def wifiStep (maximumRetry : Nat) (s : Station) : WifiLabel → Option Station
  | .event e => if s.appMain = .aborted then none else some (handleEvent maximumRetry s e)
  | .waitBits =>
      match s.appMain, s.sWifiEventGroup with
      | .calling, some g =>
          some { s with appMain := if g.connected || g.fail then .woken g else .blocked }
      | _, _ => none
  | .getChannelFail =>
      match s.appMain with
      -- `ESP_ERROR_CHECK(esp_wifi_get_channel(...))` stands in the connected branch only
      | .woken g => if g.connected then some { s with appMain := .aborted } else none
      | _ => none
  | .delete =>
      match s.appMain with
      | .woken g => some { s with sWifiEventGroup := none, appMain := .returned g.connected }
      | _ => none
  | .errorCheck =>
      match s.appMain with
      | .returned ok => some { s with appMain := if ok then .running else .aborted }
      | _ => none

/-! ## What one step can do -/

/-- Every effect a step can have. -/
inductive WifiStep (maximumRetry : Nat) (s : Station) : WifiLabel → Station → Prop where
  | event (e : WifiEvent) : s.appMain ≠ .aborted →
      WifiStep maximumRetry s (.event e) (handleEvent maximumRetry s e)
  | satisfied (g : EventGroup) : s.appMain = .calling → s.sWifiEventGroup = some g →
      (g.connected || g.fail) = true →
      WifiStep maximumRetry s .waitBits { s with appMain := .woken g }
  | blocked : s.appMain = .calling →
      WifiStep maximumRetry s .waitBits { s with appMain := .blocked }
  | getChannelFail (g : EventGroup) : s.appMain = .woken g → g.connected = true →
      WifiStep maximumRetry s .getChannelFail { s with appMain := .aborted }
  | delete (g : EventGroup) : s.appMain = .woken g →
      WifiStep maximumRetry s .delete
        { s with sWifiEventGroup := none, appMain := .returned g.connected }
  | errorCheck (ok : Bool) : s.appMain = .returned ok →
      WifiStep maximumRetry s .errorCheck { s with appMain := if ok then .running else .aborted }

theorem wifiStep_cases {maximumRetry : Nat} {s s' : Station} {l : WifiLabel}
    (h : wifiStep maximumRetry s l = some s') : WifiStep maximumRetry s l s' := by
  cases l with
  | event e =>
      rw [wifiStep] at h
      split at h
      · cases h
      · cases h; exact .event e (by assumption)
  | waitBits =>
      rw [wifiStep] at h
      split at h
      · rename_i g hpc hgroup
        cases h
        by_cases hbits : (g.connected || g.fail) = true
        · rw [if_pos hbits]; exact .satisfied g hpc hgroup hbits
        · rw [if_neg hbits]; exact .blocked hpc
      · cases h
  | getChannelFail =>
      rw [wifiStep] at h
      split at h
      · split at h
        · cases h; exact .getChannelFail _ (by assumption) (by assumption)
        · cases h
      · cases h
  | delete =>
      rw [wifiStep] at h
      split at h
      · cases h; exact .delete _ (by assumption)
      · cases h
  | errorCheck =>
      rw [wifiStep] at h
      split at h
      · cases h; exact .errorCheck _ (by assumption)
      · cases h

/-! ## The retry counter -/

/-- How many `STA_DISCONNECTED` events have come since the last `GOT_IP`, or since boot. -/
def disconnectsSinceIp (events : List WifiEvent) : Nat :=
  events.foldl (fun n e => match e with
    | .staStart => n
    | .staDisconnected => n + 1
    | .gotIp => 0) 0

theorem disconnectsSinceIp_snoc (events : List WifiEvent) (e : WifiEvent) :
    disconnectsSinceIp (events ++ [e]) = match e with
      | .staStart => disconnectsSinceIp events
      | .staDisconnected => disconnectsSinceIp events + 1
      | .gotIp => 0 := by
  rw [disconnectsSinceIp, List.foldl_append]
  cases e <;> rfl

@[simp] theorem Station.setBits_sRetryNum (s : Station) (b : WifiBit) :
    (s.setBits b).sRetryNum = s.sRetryNum := by
  unfold Station.setBits
  split <;> rfl

@[simp] theorem Station.setBits_events (s : Station) (b : WifiBit) :
    (s.setBits b).events = s.events := by
  unfold Station.setBits
  split <;> rfl

theorem handleEvent_sRetryNum (maximumRetry : Nat) (s : Station) (e : WifiEvent) :
    (handleEvent maximumRetry s e).sRetryNum = (eventHandler maximumRetry s.sRetryNum e).1 := by
  unfold handleEvent
  cases (eventHandler maximumRetry s.sRetryNum e).2 <;> simp

theorem handleEvent_events (maximumRetry : Nat) (s : Station) (e : WifiEvent) :
    (handleEvent maximumRetry s e).events = s.events ++ [e] := by
  unfold handleEvent
  cases (eventHandler maximumRetry s.sRetryNum e).2 <;> simp

/-- The counter stands at the number of losses since the last lease, capped by the maximum. -/
def RetryCounted (maximumRetry : Nat) (s : Station) : Prop :=
  s.sRetryNum = min maximumRetry (disconnectsSinceIp s.events)

theorem retryCounted_boot (maximumRetry : Nat) : RetryCounted maximumRetry Station.boot := by
  simp [RetryCounted, Station.boot, disconnectsSinceIp]

theorem retryCounted_step {maximumRetry : Nat} {s s' : Station} {l : WifiLabel}
    (h : RetryCounted maximumRetry s) (hs : WifiStep maximumRetry s l s') :
    RetryCounted maximumRetry s' := by
  unfold RetryCounted at h
  cases hs with
  | event e ha =>
      rw [RetryCounted, handleEvent_sRetryNum, handleEvent_events, disconnectsSinceIp_snoc]
      cases e with
      | staStart => exact h
      | staDisconnected =>
          -- one more loss either raises the counter or finds it at the maximum
          simp only [eventHandler]
          split <;> (simp only; omega)
      | gotIp => simp [eventHandler]
  | satisfied g hw hg hb => exact h
  | blocked hw => exact h
  | getChannelFail g hw hc => exact h
  | delete g hw => exact h
  | errorCheck ok hw => exact h

end EspNowGateway
