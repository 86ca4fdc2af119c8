import NetworkTest.FieldReads
import NetworkTest.PingLoop
import NetworkTest.PingRequests
import NetworkTest.PortScan

/-!
What the four programs with a raw socket read of a datagram: myping and my_ping2 of
fri/raw, port_scan_sys of fri/port_stat and read_packet of fri/read. All find the second
header by the length field of the first, and none looks at how many bytes it has
received.
-/

namespace NetworkTest.RawDatagrams

open CBuffer (Bytes Memory)
open Checksum (LongWidth)
open FieldReads (Confined Reads)
open FieldReads.Reads
open Halfwords (Endian)
open Machine (Along Step exec)
open MemoryBytes (decode htons)
open Packets
open TimeOfDay (Time Timeval tv_sub)

/-! The loads of the host. -/

def load16 (order : Endian) (i : Nat) : Reads UInt8 (BitVec 16) := do
  let first ← cell i
  let second ← cell (i + 1)
  return BitVec.ofNat 16 (order.word first second)

def load32 (order : Endian) (i : Nat) : Reads UInt8 (BitVec 32) := do
  let bytes ← block i 4
  return BitVec.ofNat 32 (decode order bytes)

def loadTimeval (width : LongWidth) (order : Endian) (i : Nat) : Reads UInt8 (Timeval width) := do
  let tv_sec ← block i (width.size / 8)
  let tv_usec ← block (i + width.size / 8) (width.size / 8)
  return ⟨BitVec.ofNat _ (decode order tv_sec), BitVec.ofNat _ (decode order tv_usec)⟩

section Loads

variable {length : Nat} {memory : Nat → UInt8} (order : Endian) (i : Nat)

@[simp] theorem run_load16 :
    (load16 order i).run memory = MemoryBytes.load16 order memory i := by
  rw [load16, run_bind, run_bind, run_cell, run_cell, run_pure, MemoryBytes.load16]

@[simp] theorem within_load16 : Within length memory (load16 order i) ↔ i + 2 ≤ length := by
  simp [load16]
  omega

@[simp] theorem run_load32 :
    (load32 order i).run memory = MemoryBytes.load32 order memory i := by
  rw [load32, run_bind, run_block, run_pure, MemoryBytes.load32]
  rfl

@[simp] theorem within_load32 : Within length memory (load32 order i) ↔ i + 4 ≤ length := by
  simp [load32]

@[simp] theorem run_loadTimeval (width : LongWidth) :
    (loadTimeval width order i).run memory = Timeval.load width order memory i := by
  simp [loadTimeval, Timeval.load, MemoryBytes.load]

def sizeof_timeval (width : LongWidth) : Nat := 2 * (width.size / 8)

@[simp] theorem within_loadTimeval (width : LongWidth) :
    Within length memory (loadTimeval width order i) ↔ i + sizeof_timeval width ≤ length := by
  cases width <;> simp [loadTimeval, sizeof_timeval, LongWidth.size] <;> omega

end Loads

/-- The bytes of a datagram that a buffer takes, received over what was in it. -/
theorem byteAt_received {size : Nat} (memory : Memory size) (data : Bytes) {i : Nat}
    (inside : i < (data.take size).length) :
    byteAt (memory.store (data.take size) (List.length_take_le ..)).val i =
      byteAt (data.take size) i :=
  CBuffer.overwrite_getD inside

/-- What a program reads in a memory that holds the datagram is decided by the datagram. -/
theorem confined_received {Value : Type} {look : Reads UInt8 (Option Value)} {received : Bytes}
    {memory : Nat → UInt8} (same : ∀ i, i < received.length → memory i = byteAt received i) :
    Confined received.length memory look ↔ Within received.length (byteAt received) look :=
  FieldReads.confined_iff.trans (within_congr same)

/-! myping: `recvsize` is only subtracted from. -/

namespace Myping

open PingRequests (BUFSIZE Fields Pass Pinger Printed Wait)

def prn_icmp (order : Endian) (icmp : Nat) : Reads UInt8 Fields := do
  let id ← load16 order (icmp + 4)
  let sequence ← load16 order (icmp + 6)
  let code ← cell (icmp + 1)
  let type ← cell icmp
  return ⟨id, sequence, code, type⟩

def prn_rcvping (order : Endian) (recvsize : Nat) : Reads UInt8 (Option Printed) := do
  let ihl ← cell 0
  let ip_headlen := ihl.toNat % 16 * 4
  let type ← cell ip_headlen
  if type ≠ ICMP_ECHOREPLY then return none
  else
    let saddr ← block 12 4
    let icmp ← prn_icmp order ip_headlen
    return some (.reply ((recvsize : Int) - ip_headlen) saddr icmp)

theorem prn_rcvping_run (order : Endian) (ipdata : Memory BUFSIZE) (recvsize : Nat) :
    (PingRequests.prn_rcvping order ipdata recvsize).2 =
      ((prn_rcvping order recvsize).run (byteAt ipdata.val)).toList := by
  have long : 20 ≤ ipdata.val.length := by
    rw [ipdata.property]
    decide
  have saddr := Ipv4.source_eq ipdata.val long
  rw [Ipv4.source] at saddr
  simp only [PingRequests.prn_rcvping, prn_rcvping, run_bind,
    run_cell, run_ite]
  split
  · rfl
  · rw [saddr]
    rfl

/-- The type is in the datagram, and if it is that of an echo reply, so are the source
address and the first 8 bytes of the message. -/
def Complete (received : Bytes) : Prop :=
  Ipv4.headerLength received < received.length ∧
    (byteAt received (Ipv4.headerLength received) = ICMP_ECHOREPLY →
      16 ≤ received.length ∧ Ipv4.headerLength received + 8 ≤ received.length)

theorem within_iff (order : Endian) (recvsize : Nat) (received : Bytes) :
    Within received.length (byteAt received) (prn_rcvping order recvsize) ↔
      Complete received := by
  simp only [prn_rcvping, prn_icmp, within_bind, within_cell,
    run_cell, within_ite, within_pure,
    within_block, within_load16, Complete, Ipv4.headerLength, and_true,
    implies_true, true_and, ne_eq, Decidable.not_not]
  constructor
  · rintro ⟨_, inside, reply⟩
    refine ⟨inside, fun echo => ?_⟩
    have := reply echo
    omega
  · rintro ⟨inside, reply⟩
    refine ⟨by omega, inside, fun echo => ?_⟩
    have := reply echo
    omega

/-- The line for a message is what the function reads, and it keeps to the message. -/
def Sound (order : Endian) (pinger : Pinger) : Wait → Prop
  | .message data =>
      let recvbuf := PingRequests.stored pinger.recvbuf data
      let recvsize := (data.take BUFSIZE).length
      (PingRequests.prn_rcvping order recvbuf recvsize).2 =
          ((prn_rcvping order recvsize).run (byteAt recvbuf.val)).toList ∧
        Confined recvsize (byteAt recvbuf.val) (prn_rcvping order recvsize)
  | _ => True

def Meets : Wait → Prop
  | .message data => Complete (data.take BUFSIZE)
  | _ => True

theorem sound_iff (order : Endian) (pinger : Pinger) (wait : Wait) :
    Sound order pinger wait ↔ Meets wait := by
  cases wait with
  | message data =>
      rw [Meets, ← within_iff order (data.take BUFSIZE).length]
      apply (and_iff_right (prn_rcvping_run ..)).trans
      exact confined_received fun i => byteAt_received pinger.recvbuf data
  | _ => rfl

end Myping

/-! my_ping2: the line of a reply shows the time that the reply brings back. -/

namespace MyPing2

open PingLoop (Event Line Pinger rbufSize)

variable {width : LongWidth}

/-- What `handlePing` reads for the line of a reply. -/
structure Reply (width : LongWidth) where
  icmplen : Int
  icmp_seq : BitVec 16
  ttl : UInt8
  tvsend : Timeval width
  deriving DecidableEq

def Reply.line (reply : Reply width) (now : Time width) : Line width :=
  let tvrecv := tv_sub now.timeval reply.tvsend
  { icmplen := reply.icmplen
    icmp_seq := reply.icmp_seq
    ttl := reply.ttl
    tvrecv := tvrecv
    rtt := tvrecv.milliseconds }

section

variable (order : Endian) (pid : BitVec 16) (s_addr : BitVec 32)

/-- The loop of `handlePing` behind `recvfrom`. -/
def handlePing (len : Nat) : Reads UInt8 (Option (Reply width)) := do
  let ihl ← cell 0
  let hlen := ihl.toNat % 16 * 4
  let protocol ← cell 9
  if protocol ≠ IPPROTO_ICMP then return none
  else
    let saddr ← load32 order 12
    if saddr ≠ s_addr then return none
    else
      let type ← cell hlen
      if type ≠ ICMP_ECHOREPLY then return none
      else
        let id ← load16 order (hlen + 4)
        if id ≠ pid then return none
        else
          let tvsend ← loadTimeval width order (hlen + 8)
          let icmp_seq ← load16 order (hlen + 6)
          let ttl ← cell 8
          return some ⟨(len : Int) - hlen, icmp_seq, ttl, tvsend⟩

theorem handlePing_run (pinger : Pinger width) (data : Bytes) (now : Time width)
    (here : pinger.pc = .looping) :
    ((handlePing order pid s_addr (data.take rbufSize).length).run
        (byteAt (PingLoop.stored pinger.rbuf data).val)).map (Reply.line · now) =
      if (PingLoop.received order pid s_addr pinger data).pc = .timing data then
        some (PingLoop.line order (PingLoop.received order pid s_addr pinger data) now)
      else none := by
  simp only [handlePing, run_bind, run_cell, run_ite, run_pure, run_load32, run_load16,
    run_loadTimeval, PingLoop.received, PingLoop.hlen]
  by_cases icmp : byteAt (PingLoop.stored pinger.rbuf data).val 9 = IPPROTO_ICMP
  · by_cases source : MemoryBytes.load32 order (byteAt (PingLoop.stored pinger.rbuf data).val) 12 =
        s_addr
    · by_cases reply : byteAt (PingLoop.stored pinger.rbuf data).val
          ((byteAt (PingLoop.stored pinger.rbuf data).val 0).toNat % 16 * 4) = ICMP_ECHOREPLY
      · by_cases own : MemoryBytes.load16 order (byteAt (PingLoop.stored pinger.rbuf data).val)
            ((byteAt (PingLoop.stored pinger.rbuf data).val 0).toNat % 16 * 4 + 4) = pid
        · simp [icmp, source, reply, own, Reply.line, PingLoop.line, PingLoop.hlen]
        · simp [icmp, source, reply, own]
      · simp [icmp, source, reply, here]
    · simp [icmp, source, here]
  · simp [icmp]

/-- The protocol is in the datagram; in one with an ICMP message the source address; in
one from the target the type; in an echo reply the identifier; and in one to this
process the time that it brings back. -/
def Complete (width : LongWidth) (received : Bytes) : Prop :=
  10 ≤ received.length ∧ (Ipv4.protocol received = IPPROTO_ICMP → 16 ≤ received.length ∧
    (MemoryBytes.load32 order (byteAt received) 12 = s_addr →
      Ipv4.headerLength received < received.length ∧
        (byteAt received (Ipv4.headerLength received) = ICMP_ECHOREPLY →
          Ipv4.headerLength received + 6 ≤ received.length ∧
            (MemoryBytes.load16 order (byteAt received) (Ipv4.headerLength received + 4) = pid →
              Ipv4.headerLength received + 8 + sizeof_timeval width ≤ received.length))))

theorem within_iff (len : Nat) (received : Bytes) :
    Within received.length (byteAt received)
        (handlePing order pid s_addr len : Reads UInt8 (Option (Reply width))) ↔
      Complete order pid s_addr width received := by
  simp only [handlePing, within_bind, within_cell, run_cell, within_ite, within_pure,
    within_load16, within_load32, run_load16, run_load32, within_loadTimeval, Complete,
    Ipv4.headerLength, Ipv4.protocol, and_true, implies_true, true_and, ne_eq, Decidable.not_not]
  constructor
  · rintro ⟨_, ten, icmp⟩
    refine ⟨ten, fun protocol => ?_⟩
    obtain ⟨sixteen, source⟩ := icmp protocol
    refine ⟨sixteen, fun address => ?_⟩
    obtain ⟨type, reply⟩ := source address
    refine ⟨type, fun echo => ?_⟩
    obtain ⟨six, own⟩ := reply echo
    exact ⟨six, fun id => (own id).1⟩
  · rintro ⟨ten, icmp⟩
    refine ⟨by omega, ten, fun protocol => ?_⟩
    obtain ⟨sixteen, source⟩ := icmp protocol
    refine ⟨sixteen, fun address => ?_⟩
    obtain ⟨type, reply⟩ := source address
    refine ⟨type, fun echo => ?_⟩
    obtain ⟨six, own⟩ := reply echo
    refine ⟨six, fun id => ?_⟩
    have whole := own id
    exact ⟨whole, by omega, by omega⟩

/-- The line for a datagram is what the loop reads, and it keeps to the datagram. -/
def Sound (pinger : Pinger width) : Event width → Prop
  | .recvfrom data =>
      let rbuf := PingLoop.stored pinger.rbuf data
      let next := PingLoop.received order pid s_addr pinger data
      let look : Reads UInt8 (Option (Reply width)) :=
        handlePing order pid s_addr (data.take rbufSize).length
      (∀ now, pinger.pc = .looping → (look.run (byteAt rbuf.val)).map (Reply.line · now) =
          if next.pc = .timing data then some (PingLoop.line order next now) else none) ∧
        Confined (data.take rbufSize).length (byteAt rbuf.val) look
  | _ => True

def Meets : Event width → Prop
  | .recvfrom data => Complete order pid s_addr width (data.take rbufSize)
  | _ => True

theorem sound_iff (pinger : Pinger width) (event : Event width) :
    Sound order pid s_addr pinger event ↔ Meets order pid s_addr event := by
  cases event with
  | recvfrom data =>
      rw [Meets, ← within_iff order pid s_addr (data.take rbufSize).length]
      apply (and_iff_right (handlePing_run order pid s_addr pinger data)).trans
      exact confined_received fun i => byteAt_received pinger.rbuf data
  | _ => rfl

end

end MyPing2

/-! port_scan_sys: the buffer has 40 bytes, and the memory behind it is the heap. -/

namespace PortScanSys

open PortScan (Call Event Scanner rxByte rx_packet_size)
open SynProbe (LOCAL_PORT)

structure Segment where
  source : BitVec 16
  dest : BitVec 16
  flags : BitVec 8
  deriving DecidableEq

section

variable (order : Endian) (daddr : BitVec 32) (port : BitVec 16)

/-- The body of the loop; `&&` looks at the second port only where the first is right. -/
def scan_syn_port : Reads UInt8 (Option Segment) := do
  let ihl ← cell 0
  let tcp := ihl.toNat % 16 * 4
  let saddr ← load32 order 12
  if saddr ≠ daddr then return none
  else
    let dest ← load16 order (tcp + 2)
    if htons order (htons order LOCAL_PORT) = htons order dest then
      let source ← load16 order tcp
      if htons order (htons order port) = htons order source then
        let flags ← cell (tcp + 13)
        return some ⟨htons order source, htons order dest, flags.toBitVec⟩
      else return none
    else return none

def answered (scanner : Scanner) : Option Segment → Scanner × List Call
  | none => (scanner, [])
  | some segment =>
      let printed := Call.rx segment.source segment.dest (segment.flags.setWidth 6)
      if segment.flags.getLsbD 1 = true ∧ segment.flags.getLsbD 4 = true then
        ({ scanner with pc := .looking }, [printed])
      else if segment.flags.getLsbD 2 = true then
        (scanner.next, [printed, .verdict scanner.portNum scanner.heard .closed])
      else ({ scanner with pc := .exited }, [printed, .protocolError scanner.portNum scanner.heard])

theorem scan_run (heap : Nat → UInt8) (scanner : Scanner) (data : Bytes) :
    PortScan.received order heap daddr scanner data =
      answered
        { scanner with
          rx_packet := PortScan.stored scanner data, heard := scanner.heard ++ [data] }
        ((scan_syn_port order daddr (BitVec.ofNat 16 scanner.portNum)).run
          (rxByte heap (PortScan.stored scanner data))) := by
  simp only [scan_syn_port, run_bind, run_cell, run_ite, run_pure, run_load32, run_load16,
    PortScan.received]
  generalize rxByte heap (PortScan.stored scanner data) = byte
  by_cases source : MemoryBytes.load32 order byte 12 = daddr
  · by_cases dest : htons order (htons order LOCAL_PORT) =
        htons order (MemoryBytes.load16 order byte ((byte 0).toNat % 16 * 4 + 2))
    · by_cases port : htons order (htons order (BitVec.ofNat 16 scanner.portNum)) =
          htons order (MemoryBytes.load16 order byte ((byte 0).toNat % 16 * 4))
      · simp [source, dest, port, answered, Scanner.next]
      · simp [source, dest, port, answered]
    · simp [source, dest, answered]
  · simp [source, answered]

/-- The source address is in the segment; in one from the target the ports are; and in
one to this probe the control bits. -/
def Complete (received : Bytes) : Prop :=
  16 ≤ received.length ∧ (MemoryBytes.load32 order (byteAt received) 12 = daddr →
    Ipv4.headerLength received + 4 ≤ received.length ∧
      (htons order (htons order LOCAL_PORT) = htons order
          (MemoryBytes.load16 order (byteAt received) (Ipv4.headerLength received + 2)) ∧
        htons order (htons order port) = htons order
          (MemoryBytes.load16 order (byteAt received) (Ipv4.headerLength received)) →
        Ipv4.headerLength received + 14 ≤ received.length))

theorem within_iff (received : Bytes) :
    Within received.length (byteAt received) (scan_syn_port order daddr port) ↔
      Complete order daddr port received := by
  simp only [scan_syn_port, within_bind, within_cell, run_cell, within_ite, within_pure,
    within_load16, within_load32, run_load16, run_load32, Complete, Ipv4.headerLength, and_true,
    implies_true, true_and, ne_eq, Decidable.not_not]
  constructor
  · rintro ⟨_, sixteen, from_target⟩
    refine ⟨sixteen, fun address => ?_⟩
    obtain ⟨ports, answer⟩ := from_target address
    exact ⟨ports, fun both => ((answer both.1).2 both.2)⟩
  · rintro ⟨sixteen, from_target⟩
    refine ⟨by omega, sixteen, fun address => ?_⟩
    obtain ⟨ports, answer⟩ := from_target address
    refine ⟨ports, fun dest => ⟨by omega, fun source => ?_⟩⟩
    exact answer ⟨dest, source⟩

theorem rxByte_received (heap : Nat → UInt8) (scanner : Scanner) (data : Bytes) {i : Nat}
    (inside : i < (data.take rx_packet_size).length) :
    rxByte heap (PortScan.stored scanner data) i = byteAt (data.take rx_packet_size) i := by
  rw [rxByte, if_pos (Nat.lt_of_lt_of_le inside (List.length_take_le ..))]
  exact byteAt_received scanner.rx_packet data inside

/-- What becomes of a segment is decided by what the loop reads, and it keeps to the
segment. -/
def Sound (heap : Nat → UInt8) (scanner : Scanner) : Event → Prop
  | .recvfrom data =>
      let rx_packet := PortScan.stored scanner data
      let look := scan_syn_port order daddr (BitVec.ofNat 16 scanner.portNum)
      PortScan.received order heap daddr scanner data =
          answered { scanner with rx_packet := rx_packet, heard := scanner.heard ++ [data] }
            (look.run (rxByte heap rx_packet)) ∧
        Confined (data.take rx_packet_size).length (rxByte heap rx_packet) look
  | _ => True

def Meets (scanner : Scanner) : Event → Prop
  | .recvfrom data =>
      Complete order daddr (BitVec.ofNat 16 scanner.portNum) (data.take rx_packet_size)
  | _ => True

theorem sound_iff (heap : Nat → UInt8) (scanner : Scanner) (event : Event) :
    Sound order daddr heap scanner event ↔ Meets order daddr scanner event := by
  cases event with
  | recvfrom data =>
      rw [Meets, ← within_iff order daddr]
      apply (and_iff_right (scan_run order daddr heap scanner data)).trans
      exact confined_received fun i => rxByte_received heap scanner data
  | _ => rfl

end

end PortScanSys

/-! read_packet, which shows the headers of every segment. -/

namespace ReadPacket

open PortScan (rxByte rx_packet_size)

structure IpHeader where
  version : Nat
  ihl : Nat
  protocol : UInt8
  saddr : Bytes
  daddr : Bytes
  deriving DecidableEq

structure TcpHeader where
  source : BitVec 16
  dest : BitVec 16
  control : BitVec 6
  deriving DecidableEq

def print_ip : Reads UInt8 IpHeader := do
  let first ← cell 0
  let protocol ← cell 9
  let saddr ← block 12 4
  let daddr ← block 16 4
  return ⟨first.toNat / 16, first.toNat % 16, protocol, saddr, daddr⟩

def print_tcp (order : Endian) (tcph : Nat) : Reads UInt8 TcpHeader := do
  let source ← load16 order tcph
  let dest ← load16 order (tcph + 2)
  let flags ← cell (tcph + 13)
  return ⟨htons order source, htons order dest, flags.toBitVec.setWidth 6⟩

/-- The body of the loop behind `recvfrom`. -/
def shown (order : Endian) : Reads UInt8 (Option (IpHeader × TcpHeader)) := do
  let ihl ← cell 0
  let ip ← print_ip
  let tcp ← print_tcp order (ihl.toNat % 16 * 4)
  return some (ip, tcp)

inductive Pc where
  | receiving
  | exited
  deriving DecidableEq

structure Reader where
  pc : Pc
  rx_packet : Memory rx_packet_size
  deriving DecidableEq

inductive Event where
  | recvfrom (data : Bytes)
  | recvFails

inductive Call where
  | headers (ip : IpHeader) (tcp : TcpHeader)
  | recvfromError
  deriving DecidableEq

def stored (data : Bytes) : Memory rx_packet_size :=
  (Memory.zeros rx_packet_size).store (data.take rx_packet_size) (List.length_take_le ..)

/-- A pass of the loop of `main`; `heap` is the memory behind the packet. -/
def step (order : Endian) (heap : Nat → UInt8) : Step Reader Event Call := fun reader event =>
  match reader.pc, event with
  | .receiving, .recvfrom data =>
      let printed := (shown order).run (rxByte heap (stored data))
      some ({ reader with rx_packet := stored data },
        (printed.map fun (ip, tcp) => Call.headers ip tcp).toList)
  | .receiving, .recvFails => some ({ reader with pc := .exited }, [.recvfromError])
  | .exited, _ => none

/-- Both addresses are in the segment, and the ports and the control bits. -/
def Complete (received : Bytes) : Prop :=
  20 ≤ received.length ∧ Ipv4.headerLength received + 14 ≤ received.length

instance (received : Bytes) : Decidable (Complete received) := inferInstanceAs (Decidable (_ ∧ _))

theorem within_iff (order : Endian) (received : Bytes) :
    Within received.length (byteAt received) (shown order) ↔ Complete received := by
  simp only [shown, print_ip, print_tcp, within_bind, within_cell, run_cell, within_block,
    within_pure, within_load16, Complete, Ipv4.headerLength, and_true]
  omega

/-- Both lines keep to the segment. -/
def Sound (order : Endian) (heap : Nat → UInt8) : Event → Prop
  | .recvfrom data =>
      Confined (data.take rx_packet_size).length (rxByte heap (stored data)) (shown order)
  | .recvFails => True

def Meets : Event → Prop
  | .recvfrom data => Complete (data.take rx_packet_size)
  | .recvFails => True

theorem sound_iff (order : Endian) (heap : Nat → UInt8) (event : Event) :
    Sound order heap event ↔ Meets event := by
  cases event with
  | recvfrom data =>
      rw [Sound, Meets, ← within_iff order]
      apply confined_received
      intro i inside
      rw [rxByte, if_pos (Nat.lt_of_lt_of_le inside (List.length_take_le ..))]
      exact byteAt_received (Memory.zeros rx_packet_size) data inside
  | recvFails => rfl

end ReadPacket

/-- In every run of each of the four programs, from any state, all datagrams are read
within their bytes, reported only when they have the fields, and reported the same
whatever was in the buffer, just when each of them is complete for the program. -/
theorem datagrams_confined_iff (order : Endian) (width : LongWidth) :
    (∀ (pid : BitVec 32) (pinger : PingRequests.Pinger) (waits : List PingRequests.Wait),
      Along (PingRequests.step order pid) (Myping.Sound order) pinger waits ↔
        Along (PingRequests.step order pid) (fun _ wait => Myping.Meets wait) pinger waits) ∧
    (∀ (pid : BitVec 16) (s_addr : BitVec 32) (pinger : PingLoop.Pinger width)
        (events : List (PingLoop.Event width)),
      Along (PingLoop.step order pid s_addr) (MyPing2.Sound order pid s_addr) pinger events ↔
        Along (PingLoop.step order pid s_addr) (fun _ event => MyPing2.Meets order pid s_addr event)
          pinger events) ∧
    (∀ (heap : Nat → UInt8) (daddr : BitVec 32) (scanner : PortScan.Scanner)
        (events : List PortScan.Event),
      Along (PortScan.step order heap daddr) (PortScanSys.Sound order daddr heap) scanner events ↔
        Along (PortScan.step order heap daddr) (PortScanSys.Meets order daddr) scanner events) ∧
    (∀ (heap : Nat → UInt8) (reader : ReadPacket.Reader) (events : List ReadPacket.Event),
      Along (ReadPacket.step order heap) (fun _ event => ReadPacket.Sound order heap event)
          reader events ↔
        Along (ReadPacket.step order heap) (fun _ event => ReadPacket.Meets event)
          reader events) := by
  refine ⟨?_, ?_, ?_, ?_⟩
  · intro pid pinger waits
    exact Machine.along_congr pinger waits (Myping.sound_iff order)
  · intro pid s_addr pinger events
    exact Machine.along_congr pinger events (MyPing2.sound_iff order pid s_addr)
  · intro heap daddr scanner events
    exact Machine.along_congr scanner events (PortScanSys.sound_iff order daddr heap)
  · intro heap reader events
    exact Machine.along_congr reader events fun _ => ReadPacket.sound_iff order heap

/-- A segment from port 80 of 10.0.0.1 with SYN and ACK, whose header carries 20 bytes of
options. -/
def withOptions : Bytes :=
  [74, 0, 0, 60, 0, 0, 0, 0, 64, 6, 87, 176, 10, 0, 0, 1, 10, 0, 0, 2] ++ List.replicate 20 1 ++
    [0, 80, 4, 210, 0, 0, 0, 0, 0, 0, 0, 0, 80, 18, 4, 0, 146, 174, 0, 0]

/-- read_packet takes 40 bytes of it, all of the first header, and reads the second one
behind its buffer. -/
theorem options_behind : ¬ ∀ (order : Endian) (heap : Nat → UInt8) (reader : ReadPacket.Reader)
    (events : List ReadPacket.Event),
    Along (ReadPacket.step order heap) (fun _ event => ReadPacket.Sound order heap event)
      reader events := by
  intro all
  have confined := (all .little (fun _ => 0) ⟨.receiving, Memory.zeros _⟩
    [.recvfrom withOptions]).1
  have complete : ReadPacket.Complete (withOptions.take PortScan.rx_packet_size) :=
    (ReadPacket.sound_iff ..).mp confined
  exact absurd complete (by decide)

end NetworkTest.RawDatagrams
