import EspNowGateway.Esp32.Startup
import EspNowGateway.Proof.Retries

/-!
# The firmware from power on

The pipeline was taken from the moment at which everything is created, the semaphore
is given and both tasks run, and the station from the moment at which its event group
exists. `firmware_refines` says that the firmware gets there: whatever calls fail and
however the processes run beside `app_main`, the steps of the pipeline among those of
the firmware are a run of it from boot, and so are those of the station.

What makes that true is the order in which `app_main` does things. `mainStep_cases`
says once what its statements do, and `Ordered` what has been created by the time a
process is let in.
-/

namespace EspNowGateway.Proof

open EspNowGateway CObject TransitionSystem

/-! ## What the statements of `app_main` do -/

/-- The place of a statement in `app_main`. -/
def rank : MainPc → Nat
  | .aborted => 0
  | .nvsFlashInit => 1
  | .nvsFlashErase => 2
  | .nvsFlashInitAgain => 3
  | .wifiEventGroupCreate => 4
  | .wifiInit => 5
  | .registerWifiEvent => 6
  | .registerIpEvent => 7
  | .wifiConfigure => 8
  | .wifiSetConfig => 9
  | .wifiStart => 10
  | .joining => 11
  | .mdnsInit => 12
  | .createEspnowQueue => 13
  | .createPublishQueue => 14
  | .createSemaphore => 15
  | .giveSemaphore => 16
  | .espNowInit => 17
  | .registerRecvCb => 18
  | .createEspnowTask => 19
  | .createPubTask => 20
  | .returned => 21

theorem rank_injective {pc pc' : MainPc} (h : rank pc = rank pc') : pc = pc' := by
  cases pc <;> cases pc' <;> first | rfl | cases h

/-- A statement that succeeds: the next one is reached, and a flag is up if its statement was it. -/
structure MainEffect (f f' : Firmware) : Prop where
  next : rank f'.appMain = rank f.appMain + 1
  elsewhere : f.appMain ≠ .joining
  prelude : f'.prelude = f.prelude
    ∨ f.appMain = .createPubTask ∧ (f'.prelude = .absent ∨ f'.prelude = .createGroup)
  wifiHandlers : (f'.wifiHandler || f'.ipHandler) = true →
    (f.wifiHandler || f.ipHandler) = true ∨ 4 < rank f.appMain
  wifiEventGroup : f'.wifiEventGroup = f.wifiEventGroup ∧ f'.station = f.station
      ∧ f.appMain ≠ .wifiEventGroupCreate
    ∨ f.appMain = .wifiEventGroupCreate ∧ f'.wifiEventGroup ≠ none
      ∧ (f'.wifiEventGroup = some true → f'.station = Station.boot)
      ∧ (f'.wifiEventGroup ≠ some true → f'.station = f.station)
  espnowQueue : f'.espnowQueue = (f.espnowQueue || f.appMain = .createEspnowQueue)
  publishQueue : f'.publishQueue = (f.publishQueue || f.appMain = .createPublishQueue)
  semaphore : f'.semaphore = (f.semaphore || f.appMain = .createSemaphore)
  semaphoreGiven : f'.semaphoreGiven = (f.semaphoreGiven || f.appMain = .giveSemaphore)
  recvCb : f'.recvCb = (f.recvCb || f.appMain = .registerRecvCb)
  espnowTask : f'.espnowTask = true → f.espnowTask = true ∨ f.appMain = .createEspnowTask
  mqtt : f'.mqttStatusEventGroup = f.mqttStatusEventGroup ∧ f'.mqttClient = f.mqttClient
    ∧ f'.mqttHandler = f.mqttHandler
  world : f'.world = if f.appMain = .giveSemaphore then { f.world with xSemaphoreData := true }
    else f.world

/-- **What `app_main` can do**, apart from its wait: give up, or go on. -/
theorem mainStep_cases {f f' : Firmware} {ok : Bool} (h : mainStep f ok = some f') :
    f' = f.abort ∨ MainEffect f f' := by
  cases hpc : f.appMain <;> simp only [mainStep, hpc, reduceCtorEq, Option.some.injEq] at h <;>
    cases ok <;> subst h
  all_goals first
    | exact Or.inl rfl
    | refine Or.inr ⟨?_, ?_, ?_, ?_, ?_, ?_, ?_, ?_, ?_, ?_, ?_, ?_, ?_⟩ <;>
        simp [Firmware.checked, hpc, rank]

/-- A statement of `mqtt_pub` that succeeds, before its wait for the broker. -/
structure PreludeEffect (f f' : Firmware) : Prop where
  before : f.prelude ≠ .absent ∧ f.prelude ≠ .done
  after : f'.prelude ≠ .absent ∧ f'.prelude ≠ .createGroup
  statusGroup : f'.mqttStatusEventGroup = (f.mqttStatusEventGroup || f.prelude = .createGroup)
  handler : f.mqttHandler = false → f'.mqttHandler = true →
    f'.prelude = .done ∧ f'.mqttClient = true
  world : f'.world = f.world ∨ f'.world = { f.world with mqttConnectedBit := false }
  rest : f' = { f with
    prelude := f'.prelude, mqttStatusEventGroup := f'.mqttStatusEventGroup
    mqttClient := f'.mqttClient, mqttHandler := f'.mqttHandler, world := f'.world }

/-- **What `mqtt_pub` can do** before it waits: give up, or go on. -/
theorem preludeStep_cases {f f' : Firmware} {ok : Bool} (h : preludeStep f ok = some f') :
    f' = f.abort ∨ PreludeEffect f f' := by
  cases hpc : f.prelude <;> simp only [preludeStep, hpc, reduceCtorEq, Option.some.injEq] at h <;>
    cases ok <;> subst h
  all_goals first
    | exact Or.inl rfl
    | refine Or.inr ⟨?_, ?_, ?_, ?_, ?_, rfl⟩ <;> simp [Firmware.checked, hpc]

/-- Up to "Initialize WiFi" only the place in `app_main` changes. -/
theorem nvsStep_cases {f f' : Firmware} {r : NvsResult} (h : nvsStep f r = some f') :
    rank f.appMain ≤ 4 ∧ ∃ pc, rank pc ≤ 4 ∧ f' = { f with appMain := pc } := by
  unfold nvsStep at h
  split at h
  · rename_i hpc
    refine ⟨by rw [hpc]; decide, ?_⟩
    cases r <;> cases h
    · exact ⟨.wifiEventGroupCreate, Nat.le_refl 4, rfl⟩
    · exact ⟨.nvsFlashErase, by decide, rfl⟩
    · exact ⟨.nvsFlashErase, by decide, rfl⟩
    · exact ⟨.aborted, Nat.zero_le 4, rfl⟩
  · rename_i hpc
    refine ⟨by rw [hpc]; decide, ?_⟩
    cases h
    by_cases hok : r = .ok
    · exact ⟨.wifiEventGroupCreate, Nat.le_refl 4, by simp [Firmware.checked, hok]⟩
    · exact ⟨.aborted, Nat.zero_le 4, by simp [Firmware.checked, hok, Firmware.abort]⟩
  · cases h

/-- A step of the event handler or of `wifi_start` gives up, or is one of the station. -/
theorem joinStep_cases {maximumRetry : Nat} {f f' : Firmware} {l : WifiLabel}
    (h : joinStep maximumRetry f l = some f') :
    f.mayJoin l = true ∧ ((f' = f.abort ∧ f.wifiEventGroup ≠ some true)
      ∨ (usesWifiGroup maximumRetry f.station l = true → f.wifiEventGroup = some true)
        ∧ ∃ s, wifiStep maximumRetry f.station l = some s
          ∧ f' = { f with appMain := f.appMain.afterJoin s.appMain, station := s }) := by
  unfold joinStep at h
  split at h
  · rename_i hmay
    refine ⟨hmay, ?_⟩
    split at h
    · rename_i hnull
      cases h
      simp only [Bool.and_eq_true, bne_iff_ne, ne_eq] at hnull
      exact Or.inl ⟨rfl, hnull.2⟩
    · rename_i hgroup
      simp only [Bool.and_eq_true, bne_iff_ne, ne_eq, not_and, not_not] at hgroup
      obtain ⟨s, hs, hf⟩ := Option.map_eq_some_iff.mp h
      exact Or.inr ⟨hgroup, s, hs, hf.symm⟩
  · cases h

/-! ## What is created when -/

/-- How far `app_main` has come, read off what it has created and let in. -/
structure Ordered (f : Firmware) : Prop where
  wifiEventGroup : f.wifiEventGroup = none ↔ rank f.appMain ≤ 4
  wifiHandlers : (f.wifiHandler || f.ipHandler) = true → 4 < rank f.appMain
  unjoined : f.wifiEventGroup ≠ some true → f.station.appMain = .calling
  joined : 11 < rank f.appMain → f.station.appMain = .running
  espnowQueue : 13 < rank f.appMain → f.espnowQueue = true
  publishQueue : 14 < rank f.appMain → f.publishQueue = true
  semaphore : 15 < rank f.appMain → f.semaphore = true
  given : f.semaphoreGiven = true ↔ 16 < rank f.appMain
  recvCb : f.recvCb = true → 18 < rank f.appMain
  espnowTask : f.espnowTask = true → 19 < rank f.appMain
  pubTask : f.prelude ≠ .absent → 20 < rank f.appMain
  statusGroup : f.prelude ≠ .absent → f.prelude ≠ .createGroup → f.mqttStatusEventGroup = true
  mqttHandler : f.mqttHandler = true → f.prelude = .done ∧ f.mqttClient = true
  /-- Until the client runs, `mqtt_pub` has not seen the broker. -/
  offline : f.mqttHandler = false → f.world.pub = .connecting ∧ f.world.mqttConnectedBit = false

theorem ordered_powerOn (d : ExampleEspnowData) (b : MqttT) : Ordered (Firmware.powerOn d b) := by
  refine ⟨by simp [Firmware.powerOn, rank], ?_, fun _ => rfl, ?_, ?_, ?_, ?_, ?_, ?_, ?_, ?_, ?_, ?_,
    fun _ => ⟨rfl, rfl⟩⟩ <;> simp [Firmware.powerOn, rank]

/-- Up to "Initialize WiFi" there is nothing yet. -/
theorem Ordered.early {f : Firmware} (h : Ordered f) (hf : rank f.appMain ≤ 4) {pc : MainPc}
    (hpc : rank pc ≤ 4) : Ordered { f with appMain := pc } where
  wifiEventGroup := iff_of_true (h.wifiEventGroup.mpr hf) hpc
  wifiHandlers := fun hh => absurd (h.wifiHandlers hh) (by omega)
  unjoined := h.unjoined
  joined := fun hlt => absurd hlt (by show ¬ 11 < rank pc; omega)
  espnowQueue := fun hlt => absurd hlt (by show ¬ 13 < rank pc; omega)
  publishQueue := fun hlt => absurd hlt (by show ¬ 14 < rank pc; omega)
  semaphore := fun hlt => absurd hlt (by show ¬ 15 < rank pc; omega)
  given := iff_of_false (fun hg => absurd (h.given.mp hg) (by omega)) (by show ¬ 16 < rank pc; omega)
  recvCb := fun hc => absurd (h.recvCb hc) (by omega)
  espnowTask := fun ht => absurd (h.espnowTask ht) (by omega)
  pubTask := fun hp => absurd (h.pubTask hp) (by omega)
  statusGroup := h.statusGroup
  mqttHandler := h.mqttHandler
  offline := h.offline

/-- `app_main` goes on by one statement. -/
theorem ordered_main {f f' : Firmware} (h : Ordered f) (he : MainEffect f f') : Ordered f' := by
  have hnext := he.next
  have hat {pc : MainPc} {n : Nat} (hpc : rank pc = n) (hr : rank f.appMain = n) : f.appMain = pc :=
    rank_injective (hr.trans hpc.symm)
  -- a flag is up behind its statement, because it was up before or this is the statement
  have hflag {n : Nat} {pc : MainPc} {b b' : Bool} (hpc : rank pc = n)
      (hb : n < rank f.appMain → b = true) (hb' : b' = (b || f.appMain = pc)) :
      n < rank f'.appMain → b' = true := by
    intro hlt
    rcases Nat.lt_or_ge n (rank f.appMain) with hbefore | hge
    · rw [hb', hb hbefore, Bool.true_or]
    · rw [hb', decide_eq_true (hat hpc (by omega)), Bool.or_true]
  obtain ⟨hstatus, hclient, hhandler⟩ := he.mqtt
  refine ⟨?_, ?_, ?_, ?_, hflag rfl h.espnowQueue he.espnowQueue, hflag rfl h.publishQueue he.publishQueue,
    hflag rfl h.semaphore he.semaphore, ?_, ?_, ?_, ?_, ?_, ?_, ?_⟩
  · rcases he.wifiEventGroup with ⟨hg, _, hpc⟩ | ⟨hpc, hg, _⟩
    · have hne : rank f.appMain ≠ 4 := fun hr => hpc (hat rfl hr)
      rw [hg, h.wifiEventGroup]
      omega
    · rw [hnext, hpc]
      exact iff_of_false hg (by decide)
  · intro hh
    rcases he.wifiHandlers hh with hbefore | hlt
    · have := h.wifiHandlers hbefore
      omega
    · omega
  · intro hnull
    rcases he.wifiEventGroup with ⟨hg, hs, _⟩ | ⟨hpc, _, _, hs⟩
    · rw [hs]
      exact h.unjoined (hg ▸ hnull)
    · rw [hs hnull]
      refine h.unjoined ?_
      rw [h.wifiEventGroup.mpr (by rw [hpc]; decide)]
      nofun
  · intro hlt
    have hne : rank f.appMain ≠ 11 := fun hr => he.elsewhere (hat rfl hr)
    rcases he.wifiEventGroup with ⟨_, hs, _⟩ | ⟨hpc, _⟩
    · rw [hs]
      exact h.joined (by omega)
    · rw [hnext, hpc] at hlt
      exact absurd hlt (by decide)
  · rw [he.semaphoreGiven, Bool.or_eq_true, h.given, decide_eq_true_iff, hnext]
    refine ⟨fun hg => ?_, fun hlt => ?_⟩
    · rcases hg with hlt | hpc
      · omega
      · rw [hpc]; decide
    · by_cases hr : rank f.appMain = 16
      · exact Or.inr (hat rfl hr)
      · exact Or.inl (by omega)
  · intro hc
    rw [he.recvCb, Bool.or_eq_true, decide_eq_true_iff] at hc
    rcases hc with hbefore | hpc
    · have := h.recvCb hbefore
      omega
    · rw [hnext, hpc]; decide
  · intro ht
    rcases he.espnowTask ht with hbefore | hpc
    · have := h.espnowTask hbefore
      omega
    · rw [hnext, hpc]; decide
  · intro hp
    rcases he.prelude with hsame | ⟨hpc, _⟩
    · have := h.pubTask (hsame ▸ hp)
      omega
    · rw [hnext, hpc]; decide
  · intro hp hg
    rw [hstatus]
    rcases he.prelude with hsame | ⟨_, habsent | hgroup⟩
    · exact h.statusGroup (hsame ▸ hp) (hsame ▸ hg)
    · exact absurd habsent hp
    · exact absurd hgroup hg
  · intro hh
    rw [hhandler] at hh
    obtain ⟨hdone, hc⟩ := h.mqttHandler hh
    rcases he.prelude with hsame | ⟨hpc, _⟩
    · exact ⟨hsame.trans hdone, hclient.trans hc⟩
    · -- the task would have been created before
      have hlt := h.pubTask (by rw [hdone]; exact PreludePc.noConfusion)
      rw [hpc] at hlt
      exact absurd hlt (by decide)
  · intro hh
    rw [he.world]
    split <;> exact h.offline (hhandler ▸ hh)

/-- `mqtt_pub` goes on by one statement. -/
theorem ordered_prelude {f f' : Firmware} (h : Ordered f) (he : PreludeEffect f f') : Ordered f' := by
  have hmain : f'.appMain = f.appMain := by rw [he.rest]
  have hoff : f.mqttHandler = false := Bool.eq_false_iff.mpr fun hh => he.before.2 (h.mqttHandler hh).1
  refine ⟨?_, ?_, ?_, ?_, ?_, ?_, ?_, ?_, ?_, ?_, ?_, ?_, ?_, ?_⟩
  · rw [hmain, congrArg Firmware.wifiEventGroup he.rest]
    exact h.wifiEventGroup
  · rw [hmain, congrArg Firmware.wifiHandler he.rest, congrArg Firmware.ipHandler he.rest]
    exact h.wifiHandlers
  · rw [congrArg Firmware.wifiEventGroup he.rest, congrArg Firmware.station he.rest]
    exact h.unjoined
  · rw [hmain, congrArg Firmware.station he.rest]
    exact h.joined
  · rw [hmain, congrArg Firmware.espnowQueue he.rest]
    exact h.espnowQueue
  · rw [hmain, congrArg Firmware.publishQueue he.rest]
    exact h.publishQueue
  · rw [hmain, congrArg Firmware.semaphore he.rest]
    exact h.semaphore
  · rw [hmain, congrArg Firmware.semaphoreGiven he.rest]
    exact h.given
  · rw [hmain, congrArg Firmware.recvCb he.rest]
    exact h.recvCb
  · rw [hmain, congrArg Firmware.espnowTask he.rest]
    exact h.espnowTask
  · rw [hmain]
    exact fun _ => h.pubTask he.before.1
  · intro _ _
    rw [he.statusGroup, Bool.or_eq_true, decide_eq_true_iff]
    by_cases hg : f.prelude = .createGroup
    · exact Or.inr hg
    · exact Or.inl (h.statusGroup he.before.1 hg)
  · exact he.handler hoff
  · intro _
    rcases he.world with hw | hw
    · rw [hw]
      exact h.offline hoff
    · rw [hw]
      exact ⟨(h.offline hoff).1, rfl⟩

/-- A station that runs goes on running. -/
theorem wifiStep_running {maximumRetry : Nat} {s s' : Station} {l : WifiLabel}
    (h : s.appMain = .running) (hs : wifiStep maximumRetry s l = some s') : s'.appMain = .running := by
  cases wifiStep_cases hs with
  | event e hne =>
      rw [handleEvent_unblocked e (by rw [h]; exact StartPc.noConfusion)]
      exact h
  | satisfied g hw hg hb => rw [hw] at h; cases h
  | blocked hw => rw [hw] at h; cases h
  | getChannelFail g hw hc => rw [hw] at h; cases h
  | delete g hw => rw [hw] at h; cases h
  | errorCheck ok hw => rw [hw] at h; cases h

theorem afterJoin_cases (pc : MainPc) (s : StartPc) :
    pc.afterJoin s = .aborted ∨ pc.afterJoin s = pc
      ∨ pc = .joining ∧ s = .running ∧ pc.afterJoin s = .mdnsInit := by
  cases s with
  | running =>
      by_cases hpc : pc = .joining
      · exact Or.inr (Or.inr ⟨hpc, rfl, if_pos hpc⟩)
      · exact Or.inr (Or.inl (if_neg hpc))
  | aborted => exact Or.inl rfl
  | _ => exact Or.inr (Or.inl rfl)

/-- A station whose wait would need a group that is not there never calls for one. -/
theorem wifiStep_calling {maximumRetry : Nat} {s s' : Station} {l : WifiLabel}
    (h : s.appMain = .calling) (hl : usesWifiGroup maximumRetry s l ≠ true)
    (hs : wifiStep maximumRetry s l = some s') : s'.appMain = .calling := by
  cases wifiStep_cases hs with
  | event e hne =>
      rw [handleEvent_unblocked e (by rw [h]; exact StartPc.noConfusion)]
      exact h
  | satisfied g hw hg hb => exact absurd rfl hl
  | blocked hw => exact absurd rfl hl
  | getChannelFail g hw hc => rw [hw] at h; cases h
  | delete g hw => rw [hw] at h; cases h
  | errorCheck ok hw => rw [hw] at h; cases h

/-- An event is handled, or `wifi_start` goes on by one statement. -/
theorem ordered_join {maximumRetry : Nat} {f : Firmware} {s : Station} {l : WifiLabel}
    (h : Ordered f) (hs : wifiStep maximumRetry f.station l = some s)
    (huses : usesWifiGroup maximumRetry f.station l = true → f.wifiEventGroup = some true)
    (hlive : f.appMain.afterJoin s.appMain ≠ .aborted) :
    Ordered { f with appMain := f.appMain.afterJoin s.appMain, station := s } := by
  have hkeep (hlt : 11 < rank f.appMain) : s.appMain = .running := wifiStep_running (h.joined hlt) hs
  have hwait (hnull : f.wifiEventGroup ≠ some true) : s.appMain = .calling :=
    wifiStep_calling (h.unjoined hnull) (fun hu => hnull (huses hu)) hs
  rcases afterJoin_cases f.appMain s.appMain with habort | hsame | ⟨hpc, hrun, hnext⟩
  · exact absurd habort hlive
  · rw [hsame]
    exact ⟨h.wifiEventGroup, h.wifiHandlers, hwait, hkeep, h.espnowQueue, h.publishQueue, h.semaphore,
      h.given, h.recvCb, h.espnowTask, h.pubTask, h.statusGroup, h.mqttHandler, h.offline⟩
  · -- `wifi_start` has returned `ESP_OK`
    rw [hnext]
    have hfrom : rank f.appMain = 11 := by rw [hpc]; rfl
    refine ⟨?_, fun _ => show 4 < 12 by decide, hwait, fun _ => hrun,
      fun hlt => absurd hlt (show ¬ 13 < 12 by decide),
      fun hlt => absurd hlt (show ¬ 14 < 12 by decide),
      fun hlt => absurd hlt (show ¬ 15 < 12 by decide), ?_, ?_, ?_, ?_,
      h.statusGroup, h.mqttHandler, h.offline⟩
    · refine iff_of_false (fun hg => ?_) (show ¬ 12 ≤ 4 by decide)
      have := h.wifiEventGroup.mp hg
      omega
    · refine iff_of_false (fun hg => ?_) (show ¬ 16 < 12 by decide)
      have := h.given.mp hg
      omega
    · intro hc
      have := h.recvCb hc
      omega
    · intro ht
      have := h.espnowTask ht
      omega
    · intro hp
      have := h.pubTask hp
      omega

/-- What the client has not told, `mqtt_pub` has not seen. -/
theorem offline_step {f : Firmware} {w : World} {l : Label} (hl : f.letIn l = true)
    (hoff : f.mqttHandler = false → f.world.pub = .connecting ∧ f.world.mqttConnectedBit = false)
    (hs : Step f.world l w) (hh : f.mqttHandler = false) :
    w.pub = .connecting ∧ w.mqttConnectedBit = false := by
  obtain ⟨hpub, hbit⟩ := hoff hh
  cases hs with
  | pubConnect hp hup => rw [hbit] at hup; cases hup
  | pubReceive m rest hp hq => rw [hpub] at hp; cases hp
  | pubExamine m hp hup htype => rw [hpub] at hp; cases hp
  | pubStop m hp hup htype => rw [hpub] at hp; cases hp
  | pubIgnore m hp hup htype hstop => rw [hpub] at hp; cases hp
  | pubDrop m hp hup => rw [hpub] at hp; cases hp
  | pubPublish m s hp hsent => rw [hpub] at hp; cases hp
  | pubFault m hp hsent => rw [hpub] at hp; cases hp
  | mqttConnected => rw [show f.letIn .mqttConnected = f.mqttHandler from rfl, hh] at hl; cases hl
  | mqttDisconnected => exact ⟨hpub, rfl⟩
  | _ => exact ⟨hpub, hbit⟩

/-- **Every step of the firmware keeps the order**, or is the last one. -/
theorem ordered_step {maximumRetry : Nat} {f f' : Firmware} {l : FirmwareLabel} (h : Ordered f)
    (hs : firmwareStep maximumRetry f l = some f') : f'.appMain = .aborted ∨ Ordered f' := by
  unfold firmwareStep at hs
  split at hs
  · cases hs
  · cases l with
    | nvs r =>
        obtain ⟨hle, pc, hpc, rfl⟩ := nvsStep_cases hs
        exact Or.inr (h.early hle hpc)
    | main ok =>
        rcases mainStep_cases hs with rfl | he
        · exact Or.inl rfl
        · exact Or.inr (ordered_main h he)
    | prelude ok =>
        rcases preludeStep_cases hs with rfl | he
        · exact Or.inl rfl
        · exact Or.inr (ordered_prelude h he)
    | wifi l =>
        obtain ⟨_, ⟨rfl, _⟩ | ⟨huses, s, hstep, rfl⟩⟩ := joinStep_cases hs
        · exact Or.inl rfl
        · by_cases hlive : f.appMain.afterJoin s.appMain = .aborted
          · exact Or.inl hlive
          · exact Or.inr (ordered_join h hstep huses hlive)
    | pipeline l =>
        simp only [Option.ite_none_right_eq_some, Option.map_eq_some_iff] at hs
        obtain ⟨hl, w, hw, rfl⟩ := hs
        have hoffline := offline_step hl h.offline (step_cases hw)
        exact Or.inr ⟨h.wifiEventGroup, h.wifiHandlers, h.unjoined, h.joined, h.espnowQueue,
          h.publishQueue, h.semaphore, h.given, h.recvCb, h.espnowTask, h.pubTask, h.statusGroup,
          h.mqttHandler, hoffline⟩

/-! ## Whole runs -/

/-- A run of the firmware from power on, in which every step of the pipeline meets `C`. -/
def FirmwareRuns (C : World → Label → Prop) (maximumRetry : Nat) (ls : List FirmwareLabel)
    (f : Firmware) : Prop :=
  ∃ d b, StepsMeet (firmwareStep maximumRetry) (fun f l => ∀ p, l = .pipeline p → C f.world p)
      (Firmware.powerOn d b) ls
    ∧ run (firmwareStep maximumRetry) (Firmware.powerOn d b) ls = some f

/-- The steps of the pipeline among those of the firmware. -/
def pipelineLabels (ls : List FirmwareLabel) : List Label :=
  ls.filterMap fun
    | .pipeline l => some l
    | _ => none

/-- The steps of the station. -/
def wifiLabels (ls : List FirmwareLabel) : List WifiLabel :=
  ls.filterMap fun
    | .wifi l => some l
    | _ => none

theorem pipelineLabels_snoc (ls : List FirmwareLabel) (l : FirmwareLabel) :
    pipelineLabels (ls ++ [l]) = pipelineLabels ls ++ pipelineLabels [l] := List.filterMap_append ..

theorem wifiLabels_snoc (ls : List FirmwareLabel) (l : FirmwareLabel) :
    wifiLabels (ls ++ [l]) = wifiLabels ls ++ wifiLabels [l] := List.filterMap_append ..

/-- The two parts of the firmware, as runs of their own. -/
structure Refines (C : World → Label → Prop) (maximumRetry : Nat) (ls : List FirmwareLabel)
    (f : Firmware) : Prop where
  ordered : f.appMain = .aborted ∨ Ordered f
  /-- Until the semaphore is given there is only the rest of boot to do. -/
  fresh : f.semaphoreGiven = false → pipelineLabels ls = []
    ∧ ∃ d b, f.world = { World.boot d b with xSemaphoreData := false }
  world : f.semaphoreGiven = true → Runs C (pipelineLabels ls) f.world
  unjoined : f.wifiEventGroup = none → wifiLabels ls = []
  station : f.wifiEventGroup = some true →
    run (wifiStep maximumRetry) Station.boot (wifiLabels ls) = some f.station

theorem refines_powerOn (C : World → Label → Prop) (maximumRetry : Nat) (d : ExampleEspnowData)
    (b : MqttT) : Refines C maximumRetry [] (Firmware.powerOn d b) where
  ordered := Or.inr (ordered_powerOn d b)
  fresh := fun _ => ⟨rfl, d, b, rfl⟩
  world := fun h => Bool.noConfusion h
  unjoined := fun _ => rfl
  station := fun h => by cases h

/-- A step of neither part. -/
theorem Refines.elsewhere {C : World → Label → Prop} {maximumRetry : Nat} {ls : List FirmwareLabel}
    {f f' : Firmware} {l : FirmwareLabel} (h : Refines C maximumRetry ls f)
    (hord : f'.appMain = .aborted ∨ Ordered f') (hp : pipelineLabels [l] = [])
    (hw : wifiLabels [l] = []) (hgiven : f'.semaphoreGiven = f.semaphoreGiven)
    (hworld : f'.world = f.world) (hgroup : f'.wifiEventGroup = f.wifiEventGroup)
    (hstation : f'.station = f.station) : Refines C maximumRetry (ls ++ [l]) f' := by
  have hpipe : pipelineLabels (ls ++ [l]) = pipelineLabels ls := by
    rw [pipelineLabels_snoc, hp, List.append_nil]
  have hwifi : wifiLabels (ls ++ [l]) = wifiLabels ls := by
    rw [wifiLabels_snoc, hw, List.append_nil]
  refine ⟨hord, ?_, ?_, ?_, ?_⟩
  · rw [hpipe, hgiven, hworld]
    exact h.fresh
  · rw [hpipe, hgiven, hworld]
    exact h.world
  · rw [hwifi, hgroup]
    exact h.unjoined
  · rw [hwifi, hgroup, hstation]
    exact h.station

/-- A statement of `app_main`: two of them bring the parts to where they boot from. -/
theorem Refines.main {C : World → Label → Prop} {maximumRetry : Nat} {ls : List FirmwareLabel}
    {f f' : Firmware} {ok : Bool} (h : Refines C maximumRetry ls f) (ho : Ordered f)
    (he : MainEffect f f') : Refines C maximumRetry (ls ++ [.main ok]) f' := by
  have hpipe : pipelineLabels (ls ++ [.main ok]) = pipelineLabels ls := by
    rw [pipelineLabels_snoc]
    exact List.append_nil _
  have hwifi : wifiLabels (ls ++ [.main ok]) = wifiLabels ls := by
    rw [wifiLabels_snoc]
    exact List.append_nil _
  have hgiving : f.appMain = .giveSemaphore → f.semaphoreGiven = false := by
    intro hpc
    refine Bool.eq_false_iff.mpr fun hg => ?_
    have hlt := ho.given.mp hg
    rw [hpc] at hlt
    exact absurd hlt (by decide)
  refine ⟨Or.inr (ordered_main ho he), ?_, ?_, ?_, ?_⟩
  · intro hg
    rw [he.semaphoreGiven, Bool.or_eq_false_iff, decide_eq_false_iff_not] at hg
    rw [hpipe, he.world, if_neg hg.2]
    exact h.fresh hg.1
  · intro hg
    rw [hpipe, he.world]
    by_cases hpc : f.appMain = .giveSemaphore
    · obtain ⟨hnil, d, b, hworld⟩ := h.fresh (hgiving hpc)
      rw [if_pos hpc, hnil, hworld]
      exact ⟨d, b, trivial, rfl⟩
    · rw [he.semaphoreGiven, decide_eq_false hpc, Bool.or_false] at hg
      rw [if_neg hpc]
      exact h.world hg
  · intro hg
    rw [hwifi]
    rcases he.wifiEventGroup with ⟨hsame, _, _⟩ | ⟨_, hne, _⟩
    · exact h.unjoined (hsame ▸ hg)
    · exact absurd hg hne
  · intro hg
    rw [hwifi]
    rcases he.wifiEventGroup with ⟨hsame, hstation, _⟩ | ⟨hpc, _, hboot, _⟩
    · rw [hstation]
      exact h.station (hsame ▸ hg)
    · have hnone : f.wifiEventGroup = none := ho.wifiEventGroup.mpr (by rw [hpc]; decide)
      rw [h.unjoined hnone, hboot hg]
      rfl

/-- A statement of `mqtt_pub` before its wait. The bit it clears is not set. -/
theorem Refines.prelude {C : World → Label → Prop} {maximumRetry : Nat} {ls : List FirmwareLabel}
    {f f' : Firmware} {ok : Bool} (h : Refines C maximumRetry ls f) (ho : Ordered f)
    (he : PreludeEffect f f') : Refines C maximumRetry (ls ++ [.prelude ok]) f' := by
  have hoff : f.mqttHandler = false :=
    Bool.eq_false_iff.mpr fun hh => he.before.2 (ho.mqttHandler hh).1
  have hworld : f'.world = f.world := by
    rcases he.world with hw | hw
    · exact hw
    · rw [hw, ← (ho.offline hoff).2]
  exact h.elsewhere (Or.inr (ordered_prelude ho he)) rfl rfl
    (by rw [he.rest]) hworld (by rw [he.rest]) (by rw [he.rest])

/-- A step of the station. -/
theorem Refines.join {C : World → Label → Prop} {maximumRetry : Nat} {ls : List FirmwareLabel}
    {f f' : Firmware} {l : WifiLabel} (h : Refines C maximumRetry ls f) (ho : Ordered f)
    (hs : joinStep maximumRetry f l = some f') (hord : f'.appMain = .aborted ∨ Ordered f') :
    Refines C maximumRetry (ls ++ [.wifi l]) f' := by
  have hpipe : pipelineLabels (ls ++ [.wifi l]) = pipelineLabels ls := by
    rw [pipelineLabels_snoc]
    exact List.append_nil _
  obtain ⟨hmay, hcase⟩ := joinStep_cases hs
  have hgroup : f.wifiEventGroup ≠ none := by
    intro hnone
    have hle := ho.wifiEventGroup.mp hnone
    have hhandlers := ho.wifiHandlers
    simp only [Bool.or_eq_true] at hhandlers
    have hlt : 4 < rank f.appMain := by
      cases l with
      | event e =>
          cases e with
          | gotIp => exact hhandlers (Or.inr hmay)
          | _ => exact hhandlers (Or.inl hmay)
      | _ => rw [of_decide_eq_true hmay]; decide
    omega
  rcases hcase with ⟨rfl, hnull⟩ | ⟨_, s, hstep, rfl⟩
  · refine ⟨hord, ?_, ?_, fun hg => absurd hg hgroup, fun hg => absurd hg hnull⟩
    · rw [hpipe]
      exact h.fresh
    · rw [hpipe]
      exact h.world
  · refine ⟨hord, ?_, ?_, fun hg => absurd hg hgroup, fun hg => ?_⟩
    · rw [hpipe]
      exact h.fresh
    · rw [hpipe]
      exact h.world
    · rw [wifiLabels_snoc]
      exact run_append_eq_some.mpr ⟨f.station, h.station hg, (run_singleton _ _).trans hstep⟩

/-- Nothing of the pipeline is let in before the semaphore is given. -/
theorem given_of_letIn {f : Firmware} {l : Label} (h : Ordered f) (hl : f.letIn l = true) :
    f.semaphoreGiven = true := by
  refine h.given.mpr ?_
  have hcb : f.recvCb = true → 16 < rank f.appMain := fun hc => by have := h.recvCb hc; omega
  have htask : f.espnowTask = true → 16 < rank f.appMain := fun ht => by
    have := h.espnowTask ht; omega
  have hpub : f.prelude = .done → 16 < rank f.appMain := fun hp => by
    have := h.pubTask (by rw [hp]; exact PreludePc.noConfusion)
    omega
  cases l <;> first
    | exact hcb hl
    | exact htask hl
    | exact hpub (of_decide_eq_true hl)
    | exact hpub (h.mqttHandler hl).1

/-- A step of the pipeline. -/
theorem Refines.pipeline {C : World → Label → Prop} {maximumRetry : Nat} {ls : List FirmwareLabel}
    {f : Firmware} {w : World} {l : Label} (h : Refines C maximumRetry ls f) (ho : Ordered f)
    (hl : f.letIn l = true) (hC : C f.world l) (hs : step f.world l = some w)
    (hord : Ordered { f with world := w }) :
    Refines C maximumRetry (ls ++ [.pipeline l]) { f with world := w } := by
  have hgiven := given_of_letIn ho hl
  have hwifi : wifiLabels (ls ++ [.pipeline l]) = wifiLabels ls := by
    rw [wifiLabels_snoc]
    exact List.append_nil _
  refine ⟨Or.inr hord, fun hg => ?_, fun _ => ?_, ?_, ?_⟩
  · rw [show f.semaphoreGiven = false from hg] at hgiven
    cases hgiven
  · rw [pipelineLabels_snoc]
    exact runs_snoc (h.world hgiven) hC hs
  · rw [hwifi]
    exact h.unjoined
  · rw [hwifi]
    exact h.station

theorem refines_step {C : World → Label → Prop} {maximumRetry : Nat} {ls : List FirmwareLabel}
    {f f' : Firmware} {l : FirmwareLabel} (h : Refines C maximumRetry ls f)
    (hC : ∀ p, l = .pipeline p → C f.world p) (hs : firmwareStep maximumRetry f l = some f') :
    Refines C maximumRetry (ls ++ [l]) f' := by
  have hlive : f.appMain ≠ .aborted := by
    intro hc
    unfold firmwareStep at hs
    rw [if_pos hc] at hs
    cases hs
  have ho : Ordered f := h.ordered.resolve_left hlive
  have hord := ordered_step ho hs
  unfold firmwareStep at hs
  rw [if_neg hlive] at hs
  cases l with
  | nvs r =>
      obtain ⟨_, pc, _, rfl⟩ := nvsStep_cases hs
      exact h.elsewhere hord rfl rfl rfl rfl rfl rfl
  | main ok =>
      rcases mainStep_cases hs with rfl | he
      · exact h.elsewhere hord rfl rfl rfl rfl rfl rfl
      · exact h.main ho he
  | prelude ok =>
      rcases preludeStep_cases hs with rfl | he
      · exact h.elsewhere hord rfl rfl rfl rfl rfl rfl
      · exact h.prelude ho he
  | wifi l => exact h.join ho hs hord
  | pipeline l =>
      simp only [Option.ite_none_right_eq_some, Option.map_eq_some_iff] at hs
      obtain ⟨hl, w, hw, rfl⟩ := hs
      exact h.pipeline ho hl (hC l rfl) hw (hord.resolve_left hlive)

theorem refines_reachable {C : World → Label → Prop} {maximumRetry : Nat} {ls : List FirmwareLabel}
    {f : Firmware} (hr : FirmwareRuns C maximumRetry ls f) : Refines C maximumRetry ls f := by
  obtain ⟨d, b, hm, hrun⟩ := hr
  exact run_induction (P := fun ls f => Refines C maximumRetry ls f)
    (refines_powerOn C maximumRetry d b)
    (fun _ _ _ _ _ _ h hC hs => refines_step h hC hs) ls f hm hrun

/-- A start on which the flash has to be erased first, as far as the receive callback. -/
def startUp : List FirmwareLabel :=
  [.nvs .newVersionFound, .main true, .nvs .ok] ++ List.replicate 7 (.main true)
    ++ [.wifi (.event .staStart), .wifi (.event .gotIp), .wifi .waitBits, .wifi .delete,
      .wifi .errorCheck] ++ List.replicate 7 (.main true)

/-- The first frame comes in before either task is created. -/
def firstFrame : List FirmwareLabel := startUp ++ [.pipeline (.call oneByteCall)]

theorem firstFrame_runs :
    ∃ f, FirmwareRuns (fun _ _ => True) 5 firstFrame f ∧ f.appMain = .createEspnowTask
      ∧ f.semaphoreGiven = true ∧ f.recvCb = true ∧ f.world.cb.uses = [.semaphoreData]
      ∧ f.world.received.length = 1 :=
  ⟨_, ⟨Buf.fill 128 0, Buf.fill 140 0,
    stepsMeet_mono (fun _ _ _ _ _ => trivial) (stepsMeet_true firstFrame), rfl⟩,
    rfl, rfl, rfl, rfl, rfl⟩

/--
**The firmware is the pipeline and the station.**

In every run of the firmware from power on, whichever calls fail and however the other
processes run beside `app_main`: what the pipeline does is a run of the pipeline from
boot, under the same condition on its steps, and it does nothing before `app_main` has
given the semaphore. What `wifi_start` and the event handler do is a run of the station
from boot, provided its event group was created.
-/
theorem firmware_refines {C : World → Label → Prop} {maximumRetry : Nat} {ls : List FirmwareLabel}
    {f : Firmware} (hr : FirmwareRuns C maximumRetry ls f) :
    (f.semaphoreGiven = true → Runs C (pipelineLabels ls) f.world)
      ∧ (f.semaphoreGiven = false → pipelineLabels ls = [])
      ∧ (f.wifiEventGroup = some true →
        run (wifiStep maximumRetry) Station.boot (wifiLabels ls) = some f.station) := by
  have h := refines_reachable hr
  exact ⟨h.world, fun hg => (h.fresh hg).1, h.station⟩

/-- **The first frame is received by the pipeline as it boots.** -/
theorem firstFrame_refines :
    ∃ f, FirmwareRuns (fun _ _ => True) 5 firstFrame f
      ∧ Runs (fun _ _ => True) [.call oneByteCall] f.world := by
  obtain ⟨f, hr, _, hgiven, _⟩ := firstFrame_runs
  exact ⟨f, hr, (firmware_refines hr).1 hgiven⟩

/-! ## Handles and leases -/

/-- Every handle of the receive path is there once its processes are let in. -/
theorem Ordered.receivePath {f : Firmware} (h : Ordered f) (hlt : 15 < rank f.appMain) {x : Handle}
    (hx : x = .espnowQueue ∨ x = .publishQueue ∨ x = .semaphoreData) : f.created x = true := by
  rcases hx with rfl | rfl | rfl
  · exact h.espnowQueue (by omega)
  · exact h.publishQueue (by omega)
  · exact h.semaphore hlt

theorem cbUses_cases {pc : CbPc} {x : Handle} (h : x ∈ pc.uses) :
    x = .espnowQueue ∨ x = .publishQueue ∨ x = .semaphoreData := by
  cases pc <;> simp only [CbPc.uses, List.mem_singleton, List.not_mem_nil] at h <;> subst h <;> simp

theorem taskUses_cases {pc : TaskPc} {x : Handle} (h : x ∈ pc.uses) :
    x = .espnowQueue ∨ x = .publishQueue ∨ x = .semaphoreData := by
  cases pc <;> simp only [TaskPc.uses, List.mem_singleton, List.not_mem_nil] at h <;> subst h <;> simp

/-- `mqtt_pub` has its group from its first statement, and a client when it has seen the broker. -/
theorem created_of_pubUses {f : Firmware} (h : Ordered f) (hdone : f.prelude = .done) {x : Handle}
    (hx : x ∈ f.world.pub.uses) : f.created x = true := by
  have habsent : f.prelude ≠ .absent := by rw [hdone]; exact PreludePc.noConfusion
  have hstatus : f.created .mqttStatusEventGroup = true :=
    h.statusGroup habsent (by rw [hdone]; exact PreludePc.noConfusion)
  have hclient (hpub : f.world.pub ≠ .connecting) : f.created .mqttClient = true := by
    refine (h.mqttHandler ?_).2
    by_contra hh
    exact hpub (h.offline (Bool.eq_false_iff.mpr hh)).1
  cases hpub : f.world.pub with
  | publishing m =>
      rw [hpub] at hx
      rw [List.mem_singleton.mp hx]
      exact hclient (by rw [hpub]; exact PubPc.noConfusion)
  | connecting => rw [hpub] at hx; rw [List.mem_singleton.mp hx]; exact hstatus
  | examining m => rw [hpub] at hx; rw [List.mem_singleton.mp hx]; exact hstatus
  | receiving =>
      have hlt := h.pubTask habsent
      rw [hpub] at hx
      rw [List.mem_singleton.mp hx]
      exact h.publishQueue (by omega)
  | stopped =>
      rw [hpub] at hx
      rw [List.mem_singleton.mp hx]
      exact hclient (by rw [hpub]; exact PubPc.noConfusion)
  | fault => rw [hpub] at hx; cases hx

/--
**Nothing is used before it is created, but for two handles.**

As long as the firmware has not aborted, every handle that a process may use next is
not NULL, with two exceptions. `s_wifi_event_group` can be NULL, and only if its
creation failed. `mqtt_client` can be where it is handed to
`esp_mqtt_client_register_event` and `esp_mqtt_client_start`, and nowhere else.
-/
theorem handles_created {maximumRetry : Nat} {ls : List FirmwareLabel} {f : Firmware}
    (hr : FirmwareRuns (fun _ _ => True) maximumRetry ls f) (hlive : f.appMain ≠ .aborted)
    (x : Handle) (hx : x ∈ f.uses) :
    f.created x = true ∨ x = .wifiEventGroup ∧ f.wifiEventGroup = some false
      ∨ x = .mqttClient ∧ f.prelude = .clientStart ∧ f.mqttClient = false := by
  have h : Ordered f := (refines_reachable hr).ordered.resolve_left hlive
  have hgroup (hlt : 4 < rank f.appMain) (hx : x = .wifiEventGroup) :
      f.created x = true ∨ x = .wifiEventGroup ∧ f.wifiEventGroup = some false
        ∨ x = .mqttClient ∧ f.prelude = .clientStart ∧ f.mqttClient = false := by
    subst hx
    cases hg : f.wifiEventGroup with
    | none => exact absurd (h.wifiEventGroup.mp hg) (by omega)
    | some ok =>
        cases ok with
        | false => exact Or.inr (Or.inl ⟨rfl, rfl⟩)
        | true => exact Or.inl (decide_eq_true hg)
  simp only [Firmware.uses, List.mem_append] at hx
  rcases hx with (((((hmain | hprelude) | hwifi) | hcb) | htask) | hpub) | hmqtt
  · cases hpc : f.appMain <;> rw [hpc] at hmain <;>
      simp only [MainPc.uses, List.mem_singleton, List.not_mem_nil] at hmain
    · exact hgroup (by rw [hpc]; decide) hmain
    · exact Or.inl (h.receivePath (by rw [hpc]; decide) (Or.inr (Or.inr hmain)))
  · cases hpc : f.prelude <;> rw [hpc] at hprelude <;>
      simp only [PreludePc.uses, List.mem_singleton, List.not_mem_nil] at hprelude
    · rw [hprelude]
      exact Or.inl (h.statusGroup (by rw [hpc]; decide) (by rw [hpc]; decide))
    · -- the client may have failed to come about
      rw [hprelude]
      cases hclient : f.mqttClient with
      | false => exact Or.inr (Or.inr ⟨rfl, rfl, rfl⟩)
      | true => exact Or.inl hclient
  · split at hwifi
    · rename_i hh
      exact hgroup (h.wifiHandlers hh) (List.mem_singleton.mp hwifi)
    · cases hwifi
  · split at hcb
    · rename_i hc
      have hlt := h.recvCb hc
      exact Or.inl (h.receivePath (by omega) (cbUses_cases hcb))
    · cases hcb
  · split at htask
    · rename_i ht
      have hlt := h.espnowTask ht
      exact Or.inl (h.receivePath (by omega) (taskUses_cases htask))
    · cases htask
  · split at hpub
    · rename_i hdone
      exact Or.inl (created_of_pubUses h hdone hpub)
    · cases hpub
  · split at hmqtt
    · rename_i hh
      have hdone := (h.mqttHandler hh).1
      rw [List.mem_singleton.mp hmqtt]
      exact Or.inl (h.statusGroup (by rw [hdone]; decide) (by rw [hdone]; decide))
    · cases hmqtt

/-- **The semaphore that the first frame waits for has been created.** -/
theorem firstFrame_handle :
    ∃ f, FirmwareRuns (fun _ _ => True) 5 firstFrame f ∧ Handle.semaphoreData ∈ f.uses
      ∧ f.created .semaphoreData = true := by
  obtain ⟨f, hr, hpc, _, hcb, huses, _⟩ := firstFrame_runs
  have hx : Handle.semaphoreData ∈ f.uses := by
    simp [Firmware.uses, hcb, huses]
  refine ⟨f, hr, hx, ?_⟩
  rcases handles_created hr (by rw [hpc]; decide) .semaphoreData hx with h | ⟨hne, _⟩ | ⟨hne, _⟩
  · exact h
  · cases hne
  · cases hne

/-- A wait that was satisfied with `WIFI_CONNECTED_BIT` set came after a lease. -/
theorem leased_of_woken {maximumRetry : Nat} {ls : List WifiLabel} {s : Station} {g : EventGroup}
    (hr : run (wifiStep maximumRetry) Station.boot ls = some s) (hw : s.appMain = .woken g)
    (hg : g.connected = true) : .gotIp ∈ eventsOf ls := by
  obtain ⟨before, after, rfl, _, _, htell⟩ := (accounts_run hr).woken g hw
  rw [eventsOf, List.filterMap_append]
  exact List.mem_append_left _ (htell.1.mp hg)

/-- `wifi_start` has returned `ESP_OK`. -/
def Joined (s : Station) : Prop := s.appMain = .returned true ∨ s.appMain = .running

theorem not_joined {s : Station} {pc : StartPc} (hpc : s.appMain = pc) (hret : pc ≠ .returned true)
    (hrun : pc ≠ .running) : ¬ Joined s := by
  rw [Joined, hpc]
  exact not_or.mpr ⟨hret, hrun⟩

/-- The one step of the station that gets there is the return. -/
theorem wifiStep_joined {maximumRetry : Nat} {s s' : Station} {l : WifiLabel}
    (hs : wifiStep maximumRetry s l = some s') (hbefore : ¬ Joined s) (hafter : Joined s') :
    l = .delete ∧ s'.appMain = .returned true ∧ ∃ g, s.appMain = .woken g ∧ g.connected = true := by
  cases wifiStep_cases hs with
  | event e hne =>
      -- an event may end the wait, but not the function
      rcases handleEvent_appMain maximumRetry s e with hpc | ⟨_, g, _, _, hpc⟩
      · rw [Joined, hpc] at hafter
        exact absurd hafter hbefore
      · exact absurd hafter (not_joined hpc StartPc.noConfusion StartPc.noConfusion)
  | satisfied g hw hg hb =>
      exact absurd hafter (not_joined rfl StartPc.noConfusion StartPc.noConfusion)
  | blocked hw => exact absurd hafter (not_joined rfl StartPc.noConfusion StartPc.noConfusion)
  | getChannelFail g hw hc =>
      exact absurd hafter (not_joined rfl StartPc.noConfusion StartPc.noConfusion)
  | delete g hw =>
      have hret := hafter.resolve_right StartPc.noConfusion
      exact ⟨rfl, hret, g, hw, StartPc.returned.inj hret⟩
  | errorCheck ok hw =>
      cases ok with
      | true => exact absurd (Or.inl hw) hbefore
      | false => exact absurd hafter (not_joined rfl StartPc.noConfusion StartPc.noConfusion)

/-- And so it is of the firmware. -/
theorem firmwareStep_joined {maximumRetry : Nat} {f f' : Firmware} {l : FirmwareLabel}
    (hs : firmwareStep maximumRetry f l = some f') (hbefore : ¬ Joined f.station)
    (hafter : Joined f'.station) :
    l = .wifi .delete ∧ f'.station.appMain = .returned true ∧ f'.world = f.world
      ∧ ∃ g, f.station.appMain = .woken g ∧ g.connected = true := by
  have hsame (h : f'.station = f.station) : False := hbefore (h ▸ hafter)
  unfold firmwareStep at hs
  split at hs
  · cases hs
  · cases l with
    | nvs r =>
        obtain ⟨_, pc, _, rfl⟩ := nvsStep_cases hs
        exact (hsame rfl).elim
    | main ok =>
        rcases mainStep_cases hs with rfl | he
        · exact (hsame rfl).elim
        · rcases he.wifiEventGroup with ⟨_, hkept, _⟩ | ⟨_, _, hboot, hkept⟩
          · exact (hsame hkept).elim
          · by_cases hg : f'.wifiEventGroup = some true
            · -- the station has only just booted
              rw [hboot hg] at hafter
              exact absurd hafter (not_joined rfl StartPc.noConfusion StartPc.noConfusion)
            · exact (hsame (hkept hg)).elim
    | prelude ok =>
        rcases preludeStep_cases hs with rfl | he
        · exact (hsame rfl).elim
        · exact (hsame (by rw [he.rest])).elim
    | pipeline l =>
        simp only [Option.ite_none_right_eq_some, Option.map_eq_some_iff] at hs
        obtain ⟨_, w, _, rfl⟩ := hs
        exact (hsame rfl).elim
    | wifi l =>
        obtain ⟨_, ⟨rfl, _⟩ | ⟨_, s, hstep, rfl⟩⟩ := joinStep_cases hs
        · exact (hsame rfl).elim
        · obtain ⟨rfl, hret, hwoken⟩ := wifiStep_joined hstep hbefore hafter
          exact ⟨rfl, hret, rfl, hwoken⟩

/--
**No frame before a lease.**

If the firmware has accepted a frame and not aborted, then at some step before that
`wifi_start` returned `ESP_OK`: by that step the station had been given an address,
and no frame had been accepted.
-/
theorem frame_after_lease {maximumRetry : Nat} {ls : List FirmwareLabel} {f : Firmware}
    (hr : FirmwareRuns (fun _ _ => True) maximumRetry ls f) (hlive : f.appMain ≠ .aborted)
    (hframe : f.world.received ≠ []) :
    f.station.appMain = .running
      ∧ ∃ before after f₁ f₂, ls = before ++ .wifi .delete :: after
        ∧ FirmwareRuns (fun _ _ => True) maximumRetry before f₁
        ∧ firmwareStep maximumRetry f₁ (.wifi .delete) = some f₂
        ∧ f₂.station.appMain = .returned true
        ∧ .gotIp ∈ eventsOf (wifiLabels before)
        ∧ f₂.world.received = [] := by
  have h := refines_reachable hr
  have ho : Ordered f := h.ordered.resolve_left hlive
  have hgiven : f.semaphoreGiven = true := by
    by_contra hg
    obtain ⟨_, d, b, hworld⟩ := h.fresh (Bool.eq_false_iff.mpr hg)
    rw [hworld] at hframe
    exact hframe rfl
  have hlt := ho.given.mp hgiven
  have hrun := ho.joined (by omega)
  obtain ⟨d, b, hm, hpower⟩ := hr
  have hnot : ¬ Joined (Firmware.powerOn d b).station :=
    not_joined rfl StartPc.noConfusion StartPc.noConfusion
  obtain ⟨before, l, after, f₁, f₂, rfl, hbefore, hstep, hn, hj⟩ :=
    run_exists_flip (P := fun f => Joined f.station) hnot hpower (Or.inr hrun)
  have hr₁ : FirmwareRuns (fun _ _ => True) maximumRetry before f₁ :=
    ⟨d, b, (stepsMeet_append.mp hm).1, hbefore⟩
  have h₁ := refines_reachable hr₁
  obtain ⟨rfl, hret, hworld, g, hw, hg⟩ := firmwareStep_joined hstep hn hj
  have hlive₁ : f₁.appMain ≠ .aborted := by
    intro hc
    unfold firmwareStep at hstep
    rw [if_pos hc] at hstep
    cases hstep
  have ho₁ : Ordered f₁ := h₁.ordered.resolve_left hlive₁
  have hgroup : f₁.wifiEventGroup = some true := by
    by_contra hnull
    rw [ho₁.unjoined hnull] at hw
    cases hw
  refine ⟨hrun, before, after, f₁, f₂, rfl, hr₁, hstep, hret,
    leased_of_woken (h₁.station hgroup) hw hg, ?_⟩
  -- nothing of the pipeline has been let in yet
  have hungiven : f₁.semaphoreGiven = false := by
    refine Bool.eq_false_iff.mpr fun hc => hn (Or.inr (ho₁.joined ?_))
    have := ho₁.given.mp hc
    omega
  obtain ⟨_, d', b', hboot⟩ := h₁.fresh hungiven
  rw [hworld, hboot]
  rfl

/-- **The first frame comes in after the return, and that after the lease.** -/
theorem firstFrame_after_lease :
    ∃ f, FirmwareRuns (fun _ _ => True) 5 firstFrame f ∧ f.world.received.length = 1
      ∧ f.station.appMain = .running
      ∧ ∃ before after f₁ f₂, firstFrame = before ++ .wifi .delete :: after
        ∧ FirmwareRuns (fun _ _ => True) 5 before f₁
        ∧ firmwareStep 5 f₁ (.wifi .delete) = some f₂ ∧ f₂.station.appMain = .returned true
        ∧ .gotIp ∈ eventsOf (wifiLabels before) ∧ f₂.world.received = [] := by
  obtain ⟨f, hr, hpc, _, _, _, hlen⟩ := firstFrame_runs
  have hframe : f.world.received ≠ [] := by
    intro hc
    rw [hc] at hlen
    cases hlen
  exact ⟨f, hr, hlen, frame_after_lease hr (by rw [hpc]; decide) hframe⟩

end EspNowGateway.Proof
