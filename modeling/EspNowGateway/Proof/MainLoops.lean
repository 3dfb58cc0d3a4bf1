import EspNowGateway.Linux.MainLoops
import EspNowGateway.Proof.Corruption
import EspNowGateway.Proof.Leftover
import EspNowGateway.Proof.Readings

/-!
# What the loops of the Linux programs do in the long run

A packet is handled in the buffer that the packets before it were received into, and by
a heap that they have used. As long as each packet brings what is read of it, and no
block is moved, none of that is to be noticed: a program serves its packets one by one,
as if each were the first, for as long as it receives any.
-/

namespace EspNowGateway.Proof

open EspNowGateway CObject CHeap Receiver ServerLoop StaleBuffer

/-! ## The gateway -/

/-- A packet that brings a terminator for its payload. -/
def Terminated (p : List UInt8) : Prop := 0 ∈ (p.take 191).drop 127

/-- A packet that brings its terminator is published as it would be by a gateway just started. -/
theorem onPacket_of_terminated {p : List UInt8} (h : Terminated p) (s : Gateway.State) :
    ∃ t m, Gateway.onPacket s p = some (t, m) ∧ True
      ∧ Gateway.message Gateway.State.boot p = some m := by
  obtain ⟨m, hm, hboot⟩ := determined_of_nul packetReader (fun _ => True) h s.buff
    Gateway.State.boot.buff trivial trivial
  rw [← message_eq_read] at hm hboot
  obtain ⟨⟨t, m'⟩, hserved, hm'⟩ := Option.map_eq_some_iff.mp hm
  obtain rfl : m' = m := hm'
  exact ⟨t, m', hserved, trivial, hboot⟩

/-- A connected gateway publishes each packet, and returns when `recvfrom` fails. -/
theorem main_of_terminated {turns : List (Turn (List UInt8))}
    (h : ∀ p ∈ requests turns, Terminated p) :
    ∃ r, Gateway.main true turns = some r
      ∧ (requests turns).map (Gateway.message Gateway.State.boot) = r.published.map some
      ∧ (r.exitCode = some 0 ↔ .failed ∈ turns) ∧ (r.exitCode = none ↔ .failed ∉ turns) := by
  obtain ⟨r, hr, _, hanswers, hleft⟩ := loop_of_served Gateway.onPacket (fun _ => True)
    (fun p m => Gateway.message Gateway.State.boot p = some m)
    (fun p hp s _ => onPacket_of_terminated (h p hp) s) (s := Gateway.State.boot) trivial
  have hexit : Gateway.main true turns
      = some ⟨if r.left then some 0 else none, r.answers⟩ := by
    rw [Gateway.main, if_pos rfl, hr, Option.map_some]
  refine ⟨_, hexit, ?_, ?_, ?_⟩
  · exact List.forall₂_eq_eq_eq ▸ (List.forall₂_map_left_iff.mpr (List.forall₂_map_right_iff.mpr hanswers))
  · rw [← hleft]
    cases r.left <;> simp
  · rw [← hleft]
    cases r.left <;> simp

/--
**The gateway publishes what it receives, packet by packet.**

However `select` and `recvfrom` go: if it has no connection, `main` publishes nothing and
exits. Otherwise, of packets that bring their terminators, it publishes each one as if it
were the first, in order; and it returns, with 0, if and only if `recvfrom` fails.
-/
theorem gateway_serves {turns : List (Turn (List UInt8))}
    (h : ∀ p ∈ requests turns, Terminated p) :
    Gateway.main false turns = some ⟨some (-1), []⟩
      ∧ ∃ r, Gateway.main true turns = some r
        ∧ (requests turns).map (Gateway.message Gateway.State.boot) = r.published.map some
        ∧ (r.exitCode = some 0 ↔ .failed ∈ turns) ∧ (r.exitCode = none ↔ .failed ∉ turns) :=
  ⟨rfl, main_of_terminated h⟩

/-- The air is quiet for a while, the first packet comes in, and the interface goes down. -/
def firstTurns : List (Turn (List UInt8)) := [.idle, .request (frameHead ++ firstBytes), .failed]

theorem terminated_firstPacket : Terminated (frameHead ++ firstBytes) := by
  rw [Terminated, show ((frameHead ++ firstBytes).take 191).drop 127 = firstBytes.drop 64 from rfl]
  exact firstPacket_sentBy.spells.payload.1

theorem message_firstPacket :
    Gateway.message Gateway.State.boot (frameHead ++ firstBytes) = some (pair firstReading) :=
  gateway_message_of_spells firstPacket_sentBy.spells _ (by rw [drop_frameHead]; rfl)

/-- **The first packet is published, and the gateway returns.** -/
theorem gateway_serves_firstTurns :
    ∃ r, Gateway.main true firstTurns = some r ∧ r.published = [pair firstReading]
      ∧ r.exitCode = some 0 := by
  have hterminated : ∀ p ∈ requests firstTurns, Terminated p := by
    intro p hp
    obtain rfl : p = frameHead ++ firstBytes := List.mem_singleton.mp hp
    exact terminated_firstPacket
  obtain ⟨_, r, hr, hpublished, hexit, _⟩ := gateway_serves hterminated
  refine ⟨r, hr, ?_, hexit.mpr (by simp [firstTurns])⟩
  have hmap : [some (pair firstReading)] = r.published.map some := by
    rw [← hpublished, ← message_firstPacket]
    rfl
  exact List.map_injective_iff.mpr (fun _ _ => Option.some.inj) hmap.symm

/-! ## The Receiver -/

/-- A body with its checksum in it. -/
def Sealed (body : List UInt8) : Prop := crcField body = espRomCrc16Le 0xffff (clearCrc body)

/-- The body of a frame, and an allocator that does not move the block. -/
structure Handled (live : List Ptr) (r : Reception) (body : List UInt8) : Prop where
  frame : IsFrame body r.packet
  header : 10 ≤ body.length
  fits : body.length ≤ 1414
  fresh : r.totalBody ∉ live
  unmoved : Unmoved (r.totalBody :: live) r.oracle (elementCount body.length) 0

/-- What should be printed of a body: its own header, and the checksum of the whole. -/
structure PrintedOf (body : List UInt8) (report : Report) : Prop where
  header : report.exampleEspnowData = body.take 10
  covered : report.covered = clearCrc body
  checked : report.embedded = report.calculated ↔ Sealed body

/-- A packet is printed as it is, and as its body says, unless a `realloc` was refused. -/
structure Prints (r : Reception) (a : Printed) : Prop where
  dump : a.dump = r.packet
  header : a.header = (r.packet.drop 24).take 32
  report : ∃ body, IsFrame body r.packet ∧ (∀ report, a.report = some report → PrintedOf body report)
    ∧ ((∀ i, i < elementCount body.length → ∃ junk, r.oracle i = .inPlace junk) →
      a.report.isSome = true)

/-- What is printed of a body that was brought together. -/
theorem printedOf_checksum {data : Buf maxPacketLen} {t : LoopState} {body : List UInt8}
    (hmin : 10 ≤ body.length) (hmax : body.length ≤ 1414) (hbrought : Brought body data t) :
    ∃ report, checksum data t = some report ∧ PrintedOf body report
      ∧ report.heap.live = t.heap.live.erase t.totalBody := by
  obtain ⟨report, hr, hheader, hcovered, hlive⟩ := checksum_body hmin (by omega) hbrought
  have hshows : Shows body report := ⟨data, t, hbrought, hr⟩
  obtain ⟨hembedded, hcalculated⟩ := hshows.fields hmin (by omega)
  exact ⟨report, hr, ⟨hheader, hcovered, by rw [hembedded, hcalculated, Sealed]⟩, hlive⟩

/-- A packet that fits is printed up to the walk. -/
theorem onPacket_eq {s : Receiver.State} {r : Reception} (hfresh : r.totalBody ∉ s.heap.live)
    (hmin : 56 ≤ r.packet.length) (hmax : r.packet.length ≤ maxPacketLen) :
    Receiver.onPacket s r = (printPacket (s.recvData.recvInto r.packet) r.oracle
        (s.heap.malloc r.totalBody [r.first] hfresh) r.totalBody).bind fun
      | .report report => some (⟨s.recvData.recvInto r.packet, report.heap⟩,
          ⟨r.packet, (r.packet.drop 24).take 32, some report⟩)
      | .reallocFail heap => some (⟨s.recvData.recvInto r.packet, heap⟩,
          ⟨r.packet, (r.packet.drop 24).take 32, none⟩)
      | .fault => none := by
  have hsize : maxPacketLen = 1512 := rfl
  have hdump : (s.recvData.recvInto r.packet).read 0 r.packet.length = some r.packet := by
    rw [Buf.read_recvInto _ (by omega) (by omega), List.drop_zero, List.take_length]
  have hheader : (s.recvData.recvInto r.packet).read 24 32 = some ((r.packet.drop 24).take 32) :=
    Buf.read_recvInto _ (by omega) (by omega)
  rw [Receiver.onPacket, dif_pos hfresh, hdump, hheader]
  rfl

theorem onPacket_of_handled {s : Receiver.State} {r : Reception} {body : List UInt8}
    (h : Handled s.heap.live r body) :
    ∃ t a, Receiver.onPacket s r = some (t, a) ∧ t.heap.live = s.heap.live ∧ Prints r a := by
  have hp := h.frame.fits h.fits
  have hpacket := onPacket_eq h.fresh (by have := h.frame.length_eq; omega) hp
  obtain ⟨_, o, hrun, hacc⟩ := elementLoop_accounted h.frame h.header hp s.recvData r.oracle s.heap
    r.totalBody h.fresh r.first
  have herase : (r.totalBody :: s.heap.live).erase r.totalBody = s.heap.live :=
    List.erase_cons_head ..
  cases hacc with
  | finished hun hptr hlive htotal hblock =>
      rename_i t
      obtain ⟨report, hr, hprinted, hfreed⟩ := printedOf_checksum h.header h.fits
        (h.frame.brought h.header hp s.recvData htotal hblock)
      rw [printPacket_finished hrun hr] at hpacket
      refine ⟨_, _, hpacket, ?_, rfl, rfl, body, h.frame, ?_, fun _ => rfl⟩
      · show report.heap.live = _
        rw [hfreed, hlive, hptr]
        exact herase
      · intro report' hsame
        cases hsame
        exact hprinted
  | refused hun hrefusal hlive =>
      rename_i t
      have hshown : printPacket (s.recvData.recvInto r.packet) r.oracle
          (s.heap.malloc r.totalBody [r.first] h.fresh) r.totalBody = some (.reallocFail t.heap) := by
        rw [printPacket, hrun]
        rfl
      rw [hshown] at hpacket
      refine ⟨_, _, hpacket, hlive.trans herase, rfl, rfl, body, h.frame,
        fun _ hc => absurd hc (Option.some_ne_none _).symm, fun hgrows => ?_⟩
      -- an allocator that only extends blocks refuses nothing
      obtain ⟨k, _, hlt, hne⟩ := hrefusal
      obtain ⟨junk, hjunk⟩ := hgrows k (by omega)
      exact absurd hjunk (hne junk)
  | lost hmoved => exact absurd h.unmoved hmoved

/--
**The Receiver prints what it receives, packet by packet.**

Of frames that carry a body of 10 to 1414 bytes, and with an allocator that moves no
block, `main` prints each one for itself, whatever was received before: all its bytes, the
header of its body, and a checksum that is calculated over the body, and agrees exactly for
the bodies that carry their checksum. Where a `realloc` is refused nothing is printed. In
either case every block is freed, and `main` goes on until `recvfrom` fails.
-/
theorem receiver_serves {heap : Heap} {turns : List (Turn Reception)}
    (h : ∀ r ∈ requests turns, ∃ body, Handled heap.live r body) :
    ∃ served, Receiver.main heap turns = some served ∧ served.state.heap.live = heap.live
      ∧ List.Forall₂ Prints (requests turns) served.answers
      ∧ (served.left = true ↔ .failed ∈ turns) := by
  refine loop_of_served Receiver.onPacket (fun s => s.heap.live = heap.live) Prints ?_ rfl
  intro r hr s hlive
  obtain ⟨body, hbody⟩ := h r hr
  rw [← hlive] at hbody
  obtain ⟨t, a, hserved, ht, hprints⟩ := onPacket_of_handled hbody
  exact ⟨t, a, hserved, ht.trans hlive, hprints⟩

/-- Two frames of the air: the same body, sealed, and with one bit of its field flipped. -/
def twoFrames : List (Turn Reception) :=
  [.request ⟨frameOf 0 goodBody, 0, 0, fun _ => .inPlace fun _ => 0⟩,
    .request ⟨frameOf 0 badBody, 0, 0, fun _ => .inPlace fun _ => 0⟩]

/-- **Two frames are printed, and nothing is left behind.** -/
theorem receiver_serves_twoFrames :
    ∃ served, Receiver.main Heap.empty twoFrames = some served ∧ served.state.heap.live = []
      ∧ served.answers.length = 2 ∧ served.left = false := by
  have hhandled : ∀ r ∈ requests twoFrames, ∃ body, Handled Heap.empty.live r body := by
    intro r hr
    have hone {body : List UInt8} (hlen : body.length = 12) : Handled Heap.empty.live
        ⟨frameOf 0 body, 0, 0, fun _ => .inPlace fun _ => 0⟩ body := by
      refine ⟨frameOf_isFrame (by omega) (by omega), by omega, by omega, List.not_mem_nil, ?_⟩
      rw [hlen, show elementCount 12 = 1 from rfl]
      trivial
    rcases List.mem_cons.mp hr with rfl | hr
    · exact ⟨goodBody, hone rfl⟩
    · obtain rfl := List.mem_singleton.mp hr
      exact ⟨badBody, hone rfl⟩
  obtain ⟨served, hserved, hlive, hprints, hleft⟩ := receiver_serves hhandled
  refine ⟨served, hserved, hlive, hprints.length_eq.symm, Bool.eq_false_iff.mpr fun hc => ?_⟩
  exact absurd (hleft.mp hc) (by simp [twoFrames])

/-! ## Packets that are too long -/

/-- The packet is longer than the buffer, and the dump runs past its end. -/
theorem onPacket_of_long {r : Reception} (h : maxPacketLen < r.packet.length) (s : Receiver.State) :
    Receiver.onPacket s r = none := by
  have hdump : (s.recvData.recvInto r.packet).read 0 r.packet.length = none :=
    if_neg (by rw [Nat.zero_add]; exact Nat.not_le.mpr h)
  rw [Receiver.onPacket]
  split
  · rw [hdump]
    rfl
  · rfl

/--
**The Receiver does not survive a packet that is longer than its buffer.**

`recvfrom` gives the length of the packet, not of what is in the buffer, and the dump takes
it for the latter. The filter is no protection: it lets packets of every such length pass.
-/
theorem long_packet_faults :
    (∀ heap turns, (∃ r ∈ requests turns, maxPacketLen < r.packet.length) →
        Receiver.main heap turns = none)
      ∧ ∀ n, maxPacketLen < n → ∃ p : List UInt8, p.length = n ∧ EspNowAction p := by
  refine ⟨fun heap turns hlong => ?_, fun n hn => ?_⟩
  · obtain ⟨r, hr, hlen⟩ := hlong
    exact loop_eq_none Receiver.onPacket ⟨r, hr, onPacket_of_long hlen⟩ _
  · have hhead : frameHead.length = 63 := rfl
    have hsize : maxPacketLen = 1512 := rfl
    refine ⟨frameHead ++ List.replicate (n - 63) 0, ?_, (accepts_iff _).mp (frameHead_accepts _).1⟩
    rw [List.length_append, List.length_replicate, hhead]
    omega

end EspNowGateway.Proof
