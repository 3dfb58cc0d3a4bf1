import EspNowGateway.Lib.ServerLoop
import EspNowGateway.Linux.Checksum
import EspNowGateway.Linux.Gateway

/-!
# The loops of the Linux programs

`main` of the C gateway connects to the broker, or exits; then it waits with `select` for
ten seconds at a time, and receives and publishes a packet after each wait that was not
in vain. It looks at neither the result of a publication nor that of its completion.
`main` of the Receiver receives and prints. Both leave their loop when `recvfrom` fails,
and never otherwise.

An error of `select` is not told from a packet: `recvfrom` follows it all the same, and
waits for one, or fails.
-/

namespace EspNowGateway

open CObject CHeap ServerLoop

namespace Gateway

/-- How far `main` has come: its exit code, if it is through, and what it has published. -/
structure Progress where
  exitCode : Option Int
  published : List (List UInt8 × List UInt8)

/-- `main`, with the outcome of `MQTTClient_connect` and what each turn of its loop gets. -/
def main (connected : Bool) (turns : List (Turn (List UInt8))) : Option Progress :=
  if connected then
    (loop onPacket State.boot turns).map fun r =>
      { exitCode := if r.left then some 0 else none, published := r.answers }
  else some { exitCode := some (-1), published := [] }

end Gateway

namespace Receiver

/-- `recv_data` of `main`, and the heap. -/
structure State where
  recvData : Buf maxPacketLen
  heap : Heap

/--
A packet, and what the allocator does while it is printed: the block that `malloc(1)`
returns, the byte found in it, and each `realloc`. A `malloc(1)` that fails, which
`print_packet` does not look at, is left out.
-/
structure Reception where
  packet : List UInt8
  totalBody : Ptr
  first : UInt8
  oracle : Nat → Heap.Realloc

/-- What is printed of a packet. -/
structure Printed where
  /-- The packet in hexadecimal. -/
  dump : List UInt8
  /-- The MAC header, the category code, the organization identifier and the random values. -/
  header : List UInt8
  /-- What follows the walk, if a `realloc` has not prevented it. -/
  report : Option Report

/--
`recvfrom` and `print_packet`. With `MSG_TRUNC` the length is that of the packet, also when
not all of it is in the buffer.
-/
def onPacket (s : State) (r : Reception) : Option (State × Printed) :=
  let recvData := s.recvData.recvInto r.packet
  if fresh : r.totalBody ∉ s.heap.live then do
    let dump ← recvData.read 0 r.packet.length
    let header ← recvData.read 24 32
    let shown ← printPacket recvData r.oracle (s.heap.malloc r.totalBody [r.first] fresh) r.totalBody
    match shown with
    | .report report => some (⟨recvData, report.heap⟩, ⟨dump, header, some report⟩)
    | .reallocFail heap => some (⟨recvData, heap⟩, ⟨dump, header, none⟩)
    | .fault => none
  else none

/-- `main`, from the first `recvfrom` on. -/
def main (heap : Heap) (turns : List (Turn Reception)) : Option (Served State Printed) :=
  ServerLoop.loop onPacket ⟨Buf.fill maxPacketLen 0, heap⟩ turns

end Receiver

end EspNowGateway
