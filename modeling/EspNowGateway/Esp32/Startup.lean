import EspNowGateway.Esp32.Pipeline
import EspNowGateway.Esp32.Wifi

/-!
# Start-up

`app_main` creates what the processes of the firmware share, one handle after the
other, and lets the processes in as it goes: the event handler with its registration,
the receive callback with its own, the two tasks with `xTaskCreate`. Nothing waits for
`app_main` to be through, so a process runs beside the rest of it as soon as it is let
in. `mqtt_pub` has a start of its own, at the end of which the MQTT client runs and
calls its handler.

A result is checked with `ESP_ERROR_CHECK`, `configASSERT` or `assert`, which abort, or
it is not looked at. Where calls stand in a row, each checked and none with an effect
on what is modelled here, they are one step.

The two models of what runs then are parts of this one: `Station` for joining the
access point, and `World` for the path of a frame.
-/

namespace EspNowGateway

/-- What `nvs_flash_init` returns. -/
inductive NvsResult where
  | ok
  | noFreePages
  | newVersionFound
  | other
  deriving DecidableEq, Repr

/-- Where `app_main` is; each name is the call it is about to make. -/
inductive MainPc where
  | nvsFlashInit
  | nvsFlashErase
  | nvsFlashInitAgain
  | wifiEventGroupCreate
  /-- From `esp_netif_init` to `esp_wifi_init`. -/
  | wifiInit
  | registerWifiEvent
  | registerIpEvent
  /-- From `esp_wifi_set_storage` to the end of `initialise_wifi`. -/
  | wifiConfigure
  | wifiSetConfig
  | wifiStart
  /-- In `wifi_start` from `xEventGroupWaitBits` on, and the check around it. -/
  | joining
  | mdnsInit
  | createEspnowQueue
  | createPublishQueue
  | createSemaphore
  | giveSemaphore
  | espNowInit
  | registerRecvCb
  | createEspnowTask
  | createPubTask
  | returned
  | aborted
  deriving DecidableEq, Repr

/-- Where `mqtt_pub` is before it waits for the broker. -/
inductive PreludePc where
  /-- There is no such task. -/
  | absent
  | createGroup
  | clearBits
  /-- `esp_base_mac_addr_get`, and then the names, which touch nothing shared. -/
  | readMac
  | clientInit
  /-- `esp_mqtt_client_register_event` and `esp_mqtt_client_start`. -/
  | clientStart
  | done
  deriving DecidableEq, Repr

/-- The whole firmware: what `app_main` has created and let in so far, and what runs. -/
structure Firmware where
  appMain : MainPc
  prelude : PreludePc
  /-- `event_handler` is registered for `WIFI_EVENT`, and for `IP_EVENT`. -/
  wifiHandler : Bool
  ipHandler : Bool
  /-- Whether `s_wifi_event_group` was assigned, and a group and not NULL. -/
  wifiEventGroup : Option Bool
  espnowQueue : Bool
  publishQueue : Bool
  semaphore : Bool
  semaphoreGiven : Bool
  /-- `example_espnow_recv_cb` is registered. -/
  recvCb : Bool
  espnowTask : Bool
  mqttStatusEventGroup : Bool
  mqttClient : Bool
  /-- The client runs, and calls `mqtt_event_handler`. -/
  mqttHandler : Bool
  station : Station
  world : World

/-- Nothing is created, and what will be in `recv_data` and `mqttBuf` is not known. -/
def Firmware.powerOn (recvData : ExampleEspnowData) (mqttBuf : MqttT) : Firmware where
  appMain := .nvsFlashInit
  prelude := .absent
  wifiHandler := false
  ipHandler := false
  wifiEventGroup := none
  espnowQueue := false
  publishQueue := false
  semaphore := false
  semaphoreGiven := false
  recvCb := false
  espnowTask := false
  mqttStatusEventGroup := false
  mqttClient := false
  mqttHandler := false
  station := { Station.boot with sWifiEventGroup := none }
  world := { World.boot recvData mqttBuf with xSemaphoreData := false }

/-- A call returns, with `ok` for what its check asks for, or one of the parts takes a step. -/
inductive FirmwareLabel where
  | nvs (r : NvsResult)
  | main (ok : Bool)
  | prelude (ok : Bool)
  | wifi (l : WifiLabel)
  | pipeline (l : Label)

def Firmware.abort (f : Firmware) : Firmware := { f with appMain := .aborted }

/-- `ESP_ERROR_CHECK`, `configASSERT` and `assert`. -/
def Firmware.checked (f : Firmware) (ok : Bool) (next : Firmware) : Firmware :=
  if ok then next else f.abort

/-- `app_main` up to "Initialize WiFi". -/
def nvsStep (f : Firmware) (r : NvsResult) : Option Firmware :=
  match f.appMain with
  | .nvsFlashInit =>
      match r with
      | .ok => some { f with appMain := .wifiEventGroupCreate }
      | .noFreePages | .newVersionFound => some { f with appMain := .nvsFlashErase }
      | .other => some f.abort
  | .nvsFlashInitAgain =>
      some (f.checked (r = .ok) { f with appMain := .wifiEventGroupCreate })
  | _ => none

/-- The other statements of `app_main`, but for the wait in `wifi_start`. -/
def mainStep (f : Firmware) (ok : Bool) : Option Firmware :=
  match f.appMain with
  | .nvsFlashErase => some (f.checked ok { f with appMain := .nvsFlashInitAgain })
  | .wifiEventGroupCreate =>
      -- whether there is a group now is not looked at
      some { f with
        appMain := .wifiInit, wifiEventGroup := some ok
        station := if ok then Station.boot else f.station }
  | .wifiInit => some (f.checked ok { f with appMain := .registerWifiEvent })
  | .registerWifiEvent =>
      some (f.checked ok { f with appMain := .registerIpEvent, wifiHandler := true })
  | .registerIpEvent => some (f.checked ok { f with appMain := .wifiConfigure, ipHandler := true })
  | .wifiConfigure => some (f.checked ok { f with appMain := .wifiSetConfig })
  | .wifiSetConfig => some (f.checked ok { f with appMain := .wifiStart })
  | .wifiStart => some (f.checked ok { f with appMain := .joining })
  | .mdnsInit => some (f.checked ok { f with appMain := .createEspnowQueue })
  | .createEspnowQueue =>
      some (f.checked ok { f with appMain := .createPublishQueue, espnowQueue := true })
  | .createPublishQueue =>
      some (f.checked ok { f with appMain := .createSemaphore, publishQueue := true })
  | .createSemaphore => some (f.checked ok { f with appMain := .giveSemaphore, semaphore := true })
  | .giveSemaphore =>
      some { f with
        appMain := .espNowInit, semaphoreGiven := true
        world := { f.world with xSemaphoreData := true } }
  | .espNowInit => some (f.checked ok { f with appMain := .registerRecvCb })
  | .registerRecvCb => some (f.checked ok { f with appMain := .createEspnowTask, recvCb := true })
  -- what `xTaskCreate` returns is not looked at
  | .createEspnowTask => some { f with appMain := .createPubTask, espnowTask := ok }
  | .createPubTask =>
      some { f with appMain := .returned, prelude := if ok then .createGroup else .absent }
  | .nvsFlashInit | .nvsFlashInitAgain | .joining | .returned | .aborted => none

/-- `mqtt_pub` up to its wait for the broker. -/
def preludeStep (f : Firmware) (ok : Bool) : Option Firmware :=
  match f.prelude with
  | .createGroup => some (f.checked ok { f with prelude := .clearBits, mqttStatusEventGroup := true })
  | .clearBits =>
      some { f with prelude := .readMac, world := { f.world with mqttConnectedBit := false } }
  | .readMac => some (f.checked ok { f with prelude := .clientInit })
  -- whether there is a client now is not looked at either
  | .clientInit => some { f with prelude := .clientStart, mqttClient := ok }
  -- both calls are handed what there is, and start nothing without a client
  | .clientStart => some { f with prelude := .done, mqttHandler := ok && f.mqttClient }
  | .absent | .done => none

/-- Whether `event_handler` can be called for the event, or `app_main` is in `wifi_start`. -/
def Firmware.mayJoin (f : Firmware) : WifiLabel → Bool
  | .event .gotIp => f.ipHandler
  | .event _ => f.wifiHandler
  | _ => f.appMain = .joining

/-- Whether `s_wifi_event_group` is handed to FreeRTOS, which asserts that it is not NULL. -/
def usesWifiGroup (maximumRetry : Nat) (s : Station) : WifiLabel → Bool
  | .event e =>
      match (eventHandler maximumRetry s.sRetryNum e).2 with
      | .espWifiConnect => false
      | .setBits _ => true
  | .waitBits | .delete => true
  | .getChannelFail | .errorCheck => false

/-- Where the check around `wifi_start` leaves `app_main`. -/
def MainPc.afterJoin (pc : MainPc) : StartPc → MainPc
  | .running => if pc = .joining then .mdnsInit else pc
  | .aborted => .aborted
  | _ => pc

/-- The event handler, and `wifi_start`. -/
def joinStep (maximumRetry : Nat) (f : Firmware) (l : WifiLabel) : Option Firmware :=
  if f.mayJoin l then
    if usesWifiGroup maximumRetry f.station l && f.wifiEventGroup != some true then some f.abort
    else
      (wifiStep maximumRetry f.station l).map fun s =>
        { f with appMain := f.appMain.afterJoin s.appMain, station := s }
  else none

/-- Whether the process the label belongs to has been let in. -/
def Firmware.letIn (f : Firmware) : Label → Bool
  | .call _ | .cbTake | .cbMalloc _ _ | .cbMallocFail | .cbCopy | .cbSend | .cbSendFail
  | .cbFree | .cbGive => f.recvCb
  | .taskReceive | .taskTake | .taskCopy | .taskFree | .taskGive | .taskFill
  | .taskOffer => f.espnowTask
  | .pubConnect | .pubReceive | .pubExamine | .pubPublish => f.prelude = .done
  | .mqttConnected | .mqttDisconnected => f.mqttHandler

/-- One step of the firmware. After an abort there is none. -/
def firmwareStep (maximumRetry : Nat) (f : Firmware) (l : FirmwareLabel) : Option Firmware :=
  if f.appMain = .aborted then none
  else
    match l with
    | .nvs r => nvsStep f r
    | .main ok => mainStep f ok
    | .prelude ok => preludeStep f ok
    | .wifi l => joinStep maximumRetry f l
    | .pipeline l =>
        if f.letIn l then (step f.world l).map fun w => { f with world := w } else none

/-! ## Handles -/

/-- What is created by one process and used by others. -/
inductive Handle where
  | wifiEventGroup
  | espnowQueue
  | publishQueue
  | semaphoreData
  | mqttStatusEventGroup
  | mqttClient
  deriving DecidableEq, Repr

/-- The handle is not NULL. -/
def Firmware.created (f : Firmware) : Handle → Bool
  | .wifiEventGroup => f.wifiEventGroup = some true
  | .espnowQueue => f.espnowQueue
  | .publishQueue => f.publishQueue
  | .semaphoreData => f.semaphore
  | .mqttStatusEventGroup => f.mqttStatusEventGroup
  | .mqttClient => f.mqttClient

/-- What the next statement of each process hands to FreeRTOS or to the client. -/
def MainPc.uses : MainPc → List Handle
  | .joining => [.wifiEventGroup]
  | .giveSemaphore => [.semaphoreData]
  | _ => []

def PreludePc.uses : PreludePc → List Handle
  | .clearBits => [.mqttStatusEventGroup]
  | .clientStart => [.mqttClient]
  | _ => []

def CbPc.uses : CbPc → List Handle
  | .taking _ | .giving => [.semaphoreData]
  | .sending _ => [.espnowQueue]
  | _ => []

def TaskPc.uses : TaskPc → List Handle
  | .receiving => [.espnowQueue]
  | .taking _ | .giving _ => [.semaphoreData]
  | .offering _ => [.publishQueue]
  | _ => []

def PubPc.uses : PubPc → List Handle
  | .connecting | .examining _ => [.mqttStatusEventGroup]
  | .receiving => [.publishQueue]
  -- behind the loop `esp_mqtt_client_stop` is still to come
  | .publishing _ | .stopped => [.mqttClient]
  | .fault => []

/-- What may be used next, by any process that has been let in. -/
def Firmware.uses (f : Firmware) : List Handle :=
  f.appMain.uses ++ f.prelude.uses
    ++ (if f.wifiHandler || f.ipHandler then [.wifiEventGroup] else [])
    ++ (if f.recvCb then f.world.cb.uses else [])
    ++ (if f.espnowTask then f.world.task.uses else [])
    ++ (if f.prelude = .done then f.world.pub.uses else [])
    ++ if f.mqttHandler then [.mqttStatusEventGroup] else []

end EspNowGateway
