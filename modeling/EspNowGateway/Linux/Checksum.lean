import EspNowGateway.Linux.Receiver

/-!
# The Receiver's checksum

Behind its walk `print_packet` copies the first ten bytes of the body into an
`example_espnow_data_t`, prints the fields, clears the `crc` field and puts the ten
bytes over the front of the block. The CRC of the block is what the sender should
have stored in the field.
-/

namespace EspNowGateway.Receiver

open CObject CHeap

/-- `crc16_le_table`. -/
def crc16LeTable : List UInt16 :=
  [0x0000, 0x1189, 0x2312, 0x329b, 0x4624, 0x57ad, 0x6536, 0x74bf,
   0x8c48, 0x9dc1, 0xaf5a, 0xbed3, 0xca6c, 0xdbe5, 0xe97e, 0xf8f7,
   0x1081, 0x0108, 0x3393, 0x221a, 0x56a5, 0x472c, 0x75b7, 0x643e,
   0x9cc9, 0x8d40, 0xbfdb, 0xae52, 0xdaed, 0xcb64, 0xf9ff, 0xe876,
   0x2102, 0x308b, 0x0210, 0x1399, 0x6726, 0x76af, 0x4434, 0x55bd,
   0xad4a, 0xbcc3, 0x8e58, 0x9fd1, 0xeb6e, 0xfae7, 0xc87c, 0xd9f5,
   0x3183, 0x200a, 0x1291, 0x0318, 0x77a7, 0x662e, 0x54b5, 0x453c,
   0xbdcb, 0xac42, 0x9ed9, 0x8f50, 0xfbef, 0xea66, 0xd8fd, 0xc974,
   0x4204, 0x538d, 0x6116, 0x709f, 0x0420, 0x15a9, 0x2732, 0x36bb,
   0xce4c, 0xdfc5, 0xed5e, 0xfcd7, 0x8868, 0x99e1, 0xab7a, 0xbaf3,
   0x5285, 0x430c, 0x7197, 0x601e, 0x14a1, 0x0528, 0x37b3, 0x263a,
   0xdecd, 0xcf44, 0xfddf, 0xec56, 0x98e9, 0x8960, 0xbbfb, 0xaa72,
   0x6306, 0x728f, 0x4014, 0x519d, 0x2522, 0x34ab, 0x0630, 0x17b9,
   0xef4e, 0xfec7, 0xcc5c, 0xddd5, 0xa96a, 0xb8e3, 0x8a78, 0x9bf1,
   0x7387, 0x620e, 0x5095, 0x411c, 0x35a3, 0x242a, 0x16b1, 0x0738,
   0xffcf, 0xee46, 0xdcdd, 0xcd54, 0xb9eb, 0xa862, 0x9af9, 0x8b70,
   0x8408, 0x9581, 0xa71a, 0xb693, 0xc22c, 0xd3a5, 0xe13e, 0xf0b7,
   0x0840, 0x19c9, 0x2b52, 0x3adb, 0x4e64, 0x5fed, 0x6d76, 0x7cff,
   0x9489, 0x8500, 0xb79b, 0xa612, 0xd2ad, 0xc324, 0xf1bf, 0xe036,
   0x18c1, 0x0948, 0x3bd3, 0x2a5a, 0x5ee5, 0x4f6c, 0x7df7, 0x6c7e,
   0xa50a, 0xb483, 0x8618, 0x9791, 0xe32e, 0xf2a7, 0xc03c, 0xd1b5,
   0x2942, 0x38cb, 0x0a50, 0x1bd9, 0x6f66, 0x7eef, 0x4c74, 0x5dfd,
   0xb58b, 0xa402, 0x9699, 0x8710, 0xf3af, 0xe226, 0xd0bd, 0xc134,
   0x39c3, 0x284a, 0x1ad1, 0x0b58, 0x7fe7, 0x6e6e, 0x5cf5, 0x4d7c,
   0xc60c, 0xd785, 0xe51e, 0xf497, 0x8028, 0x91a1, 0xa33a, 0xb2b3,
   0x4a44, 0x5bcd, 0x6956, 0x78df, 0x0c60, 0x1de9, 0x2f72, 0x3efb,
   0xd68d, 0xc704, 0xf59f, 0xe416, 0x90a9, 0x8120, 0xb3bb, 0xa232,
   0x5ac5, 0x4b4c, 0x79d7, 0x685e, 0x1ce1, 0x0d68, 0x3ff3, 0x2e7a,
   0xe70e, 0xf687, 0xc41c, 0xd595, 0xa12a, 0xb0a3, 0x8238, 0x93b1,
   0x6b46, 0x7acf, 0x4854, 0x59dd, 0x2d62, 0x3ceb, 0x0e70, 0x1ff9,
   0xf78f, 0xe606, 0xd49d, 0xc514, 0xb1ab, 0xa022, 0x92b9, 0x8330,
   0x7bc7, 0x6a4e, 0x58d5, 0x495c, 0x3de3, 0x2c6a, 0x1ef1, 0x0f78]

/-- One turn of the loop of `esp_rom_crc16_le`. -/
def crc16LeStep (crc : UInt16) (b : UInt8) : UInt16 :=
  crc16LeTable.getD ((crc ^^^ b.toUInt16) &&& 0xff).toNat 0 ^^^ (crc >>> 8)

/-- `esp_rom_crc16_le(crc, buf, sizeof buf)`. -/
def espRomCrc16Le (crc : UInt16) (buf : List UInt8) : UInt16 := ~~~ buf.foldl crc16LeStep (~~~ crc)

/-- `example_espnow_data.crc`: a little-endian field at offset 4. -/
def crcField (m : List UInt8) : UInt16 := (m.getD 4 0).toUInt16 ||| ((m.getD 5 0).toUInt16 <<< 8)

/-- `example_espnow_data.crc = 0`. -/
def clearCrc (m : List UInt8) : List UInt8 := m.take 4 ++ [0, 0] ++ m.drop 6

/-- What `print_packet` shows of a packet, and the heap it leaves. -/
structure Report where
  /-- The ten bytes of `example_espnow_data` whose fields are printed. -/
  exampleEspnowData : List UInt8
  /-- The bytes handed to `esp_rom_crc16_le`. -/
  covered : List UInt8
  heap : Heap

/-- `example_espnow_data.crc`, as it is printed. -/
def Report.embedded (r : Report) : UInt16 := crcField r.exampleEspnowData

/-- The "calculated crc", as it is printed. -/
def Report.calculated (r : Report) : UInt16 := espRomCrc16Le 0xffff r.covered

/-- An `int` passed where a `uint32_t` is expected. -/
def uint32 (n : Int) : Nat := (n % 0x100000000).toNat

/-- The tail of `print_packet`, behind the walk. -/
def checksum (data : Buf maxPacketLen) (s : LoopState) : Option Report := do
  let header ← data.read 63 10
  let heap ← s.heap.memcpy s.totalBody 0 (clearCrc header)
  let block ← heap.get s.totalBody
  if uint32 s.totalBodyLength ≤ block.length then
    some {
      exampleEspnowData := header
      covered := block.take (uint32 s.totalBodyLength)
      heap := heap.free s.totalBody }
  else none

/-- How `print_packet` leaves. -/
inductive Shown where
  | report (r : Report)
  | reallocFail (heap : Heap)
  | fault

/-- `print_packet`, from the `malloc(1)` that returned `totalBody` on. -/
def printPacket (data : Buf maxPacketLen) (oracle : Nat → Heap.Realloc) (heap : Heap)
    (totalBody : Ptr) : Option Shown :=
  (elementLoop data oracle heap totalBody).map fun
    | .finished s =>
        match checksum data s with
        | some r => .report r
        | none => .fault
    | .reallocFail s => .reallocFail s.heap
    | .fault _ => .fault

/-! ## The tail over a body that was brought together -/

theorem clearCrc_length {m : List UInt8} (h : 6 ≤ m.length) : (clearCrc m).length = m.length := by
  simp only [clearCrc, List.length_append, List.length_take, List.length_drop, List.length_cons,
    List.length_nil]
  omega

/-- Clearing the field in the front of a body clears it in the body. -/
theorem clearCrc_take_append (body : List UInt8) :
    clearCrc (body.take 10) ++ body.drop 10 = clearCrc body := by
  have htake : (body.take 10).take 4 = body.take 4 := by rw [List.take_take]; rfl
  have hdrop : (body.take 10).drop 6 ++ body.drop 10 = body.drop 6 := by
    have hten : body.drop 10 = (body.drop 6).drop 4 := by rw [List.drop_drop]
    rw [List.drop_take, hten]
    exact List.take_append_drop 4 (body.drop 6)
  rw [clearCrc, htake, List.append_assoc, hdrop, clearCrc]

/-- The block holds just a body, and the first ten bytes of it stand at byte 63. -/
structure Brought (body : List UInt8) (data : Buf maxPacketLen) (s : LoopState) : Prop where
  front : data.read 63 10 = some (body.take 10)
  total : s.totalBodyLength = body.length
  block : s.heap.get s.totalBody = some body

/-- The tail, when the walk has brought a body together. -/
theorem checksum_body {data : Buf maxPacketLen} {s : LoopState} {body : List UInt8}
    (hlen : 10 ≤ body.length) (hmax : body.length < 0x100000000) (h : Brought body data s) :
    ∃ r, checksum data s = some r ∧ r.exampleEspnowData = body.take 10
      ∧ r.covered = clearCrc body ∧ r.heap.live = s.heap.live.erase s.totalBody := by
  have hten : (body.take 10).length = 10 := by rw [List.length_take]; omega
  have hclear := clearCrc_length (show 6 ≤ (body.take 10).length by omega)
  obtain ⟨heap, hput, hget⟩ := Heap.memcpy_of_get h.block
    (show 0 + (clearCrc (body.take 10)).length ≤ body.length by omega)
  rw [List.take_zero, List.nil_append, Nat.zero_add, hclear, hten,
    clearCrc_take_append body] at hget
  have hsize : uint32 s.totalBodyLength = body.length := by
    rw [h.total, uint32]
    omega
  have hwhole := clearCrc_length (show 6 ≤ body.length by omega)
  refine ⟨{
    exampleEspnowData := body.take 10
    covered := (clearCrc body).take body.length
    heap := heap.free s.totalBody }, ?_, rfl, ?_, ?_⟩
  · simp only [checksum, h.front, hput, hget, hsize, bind, Option.bind]
    exact if_pos (Nat.le_of_eq hwhole.symm)
  · exact List.take_of_length_le (Nat.le_of_eq hwhole)
  · show heap.live.erase s.totalBody = _
    rw [Heap.memcpy_live hput]

theorem printPacket_finished {data : Buf maxPacketLen} {oracle : Nat → Heap.Realloc} {heap : Heap}
    {totalBody : Ptr} {s : LoopState} {r : Report}
    (hrun : elementLoop data oracle heap totalBody = some (.finished s))
    (hr : checksum data s = some r) : printPacket data oracle heap totalBody = some (.report r) := by
  simp only [printPacket, hrun, Option.map_some, hr]

end EspNowGateway.Receiver
