import EspNowGateway.Proof.Deadlock
import EspNowGateway.Proof.Ownership
import EspNowGateway.Proof.Order
import EspNowGateway.Proof.Copies
import EspNowGateway.Proof.Residue
import EspNowGateway.Proof.EventGroup
import EspNowGateway.Proof.Agree
import EspNowGateway.Proof.Leftover
import EspNowGateway.Proof.FrameBegin
import EspNowGateway.Proof.Reassembly
import EspNowGateway.Proof.Malformed
import EspNowGateway.Proof.Allocator
import EspNowGateway.Proof.Balance
import EspNowGateway.Proof.FilterExact
import EspNowGateway.Proof.Transparent
import EspNowGateway.Esp32.Broker
import EspNowGateway.Proof.LocalNames
import EspNowGateway.Proof.Retries
import EspNowGateway.Proof.SendWait
import EspNowGateway.Proof.Interval
import EspNowGateway.Lib.ShiftRegister
import EspNowGateway.Proof.Corruption
import EspNowGateway.Lib.LineLog
import EspNowGateway.Linux.MqttRecorder
import EspNowGateway.Proof.Recorder
import EspNowGateway.Proof.BrokerUri
import EspNowGateway.Proof.Semaphore
import EspNowGateway.Proof.Drain
import EspNowGateway.Esp32.Startup
import EspNowGateway.Proof.Startup
import EspNowGateway.Esp8266.MyData
import EspNowGateway.Proof.Readings
import EspNowGateway.Lib.ServerLoop
import EspNowGateway.Linux.MainLoops
import EspNowGateway.Proof.MainLoops
import EspNowGateway.Network
import EspNowGateway.Proof.Network
import EspNowGateway.Lib.CyclicCode
import EspNowGateway.Linux.RomCrc
import EspNowGateway.Proof.RomCrc
import EspNowGateway.Linux.Socket
import EspNowGateway.Proof.Socket
import EspNowGateway.ClientId
import EspNowGateway.Proof.ClientIds
