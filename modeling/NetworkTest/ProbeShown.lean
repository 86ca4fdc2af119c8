import NetworkTest.Precedence
import NetworkTest.RawDatagrams

/-!
What read_packet of fri/read shows of the probes of fri/port_stat/port_scan_sys.c:
the addresses, ports and control bits that the scanner has put into them, whatever
the byte orders of the two hosts.
-/

namespace NetworkTest.ProbeShown

open CBuffer (Bytes Memory)
open Checksum (LongWidth Long)
open Halfwords (Endian)
open Machine (Step exec)
open MemoryBytes (encode htons)
open Packets
open PortScan (rxByte rx_packet_size)
open Precedence (Preceded)
open RawDatagrams.ReadPacket (IpHeader TcpHeader Reader shown)
open SynProbe (Iphdr Tcphdr LOCAL_IP LOCAL_PORT inet_addr d_addr)

def ipLine (order : Endian) (header : Iphdr) : IpHeader where
  version := header.version.toNat
  ihl := header.ihl.toNat
  protocol := header.protocol
  saddr := encode order 4 header.saddr.toNat
  daddr := encode order 4 header.daddr.toNat

/-- The `[tx]` line of `scan_syn_port`, which prints what `print_tcp` does. -/
def tcpLine (order : Endian) (segment : Tcphdr) : TcpHeader where
  source := htons order segment.source
  dest := htons order segment.dest
  control := segment.urg ++ segment.ack ++ segment.psh ++ segment.rst ++ segment.syn ++ segment.fin

theorem setWidth_append_bit {size : Nat} (upper : BitVec size) (bit : BitVec 1) (width : Nat) :
    (upper ++ bit).setWidth (width + 1) = upper.setWidth width ++ bit := by
  rw [BitVec.setWidth_append_of_eq rfl, BitVec.setWidth_eq]

/-! A packet of two headers without options. -/

section Headers

variable (tx rx : Endian) (header : Iphdr) (segment : Tcphdr)

theorem length_headers : (header.bytes tx ++ segment.bytes tx).length = rx_packet_size := by
  rw [List.length_append, SynProbe.Iphdr.length_bytes, SynProbe.Tcphdr.length_bytes]
  rfl

theorem rxByte_headers (heap : Nat → UInt8) {i : Nat} (inside : i < 40) :
    rxByte heap (RawDatagrams.ReadPacket.stored (header.bytes tx ++ segment.bytes tx)) i =
      byteAt (header.bytes tx ++ segment.bytes tx) i := by
  have length := length_headers tx header segment
  rw [rxByte, if_pos (by exact inside)]
  exact byteAt_store _ inside (by rw [length]; exact inside)

theorem nibbles_headers :
    (byteAt (header.bytes tx ++ segment.bytes tx) 0).toNat =
      16 * header.version.toNat + header.ihl.toNat :=
  SynProbe.toNat_nibbles header.version header.ihl

theorem control_headers :
    (byteAt (segment.bytes tx) 13).toBitVec.setWidth 6 = (tcpLine tx segment).control := by
  have flags : (byteAt (segment.bytes tx) 13).toBitVec =
      segment.res2 ++ segment.urg ++ segment.ack ++ segment.psh ++ segment.rst ++ segment.syn ++
        segment.fin := by
    cases tx <;> rfl
  rw [flags, setWidth_append_bit, setWidth_append_bit, setWidth_append_bit, setWidth_append_bit,
    setWidth_append_bit, BitVec.setWidth_append_eq_right]
  rfl

theorem port_headers {port : BitVec 16} {first second : UInt8}
    (bytes : [first, second] = tx.bytes port) :
    htons rx (BitVec.ofNat 16 (rx.word first second)) = htons tx port := by
  have word := MemoryBytes.big_word_bytes tx port
  rw [← bytes] at word
  apply BitVec.eq_of_toNat_eq
  rw [MemoryBytes.ntohs_word, ← word]
  rfl

theorem fields_headers :
    byteAt (header.bytes tx ++ segment.bytes tx) 9 = header.protocol ∧
      (List.range 4).map (fun k => byteAt (header.bytes tx ++ segment.bytes tx) (12 + k)) =
        encode tx 4 header.saddr.toNat ∧
      (List.range 4).map (fun k => byteAt (header.bytes tx ++ segment.bytes tx) (16 + k)) =
        encode tx 4 header.daddr.toNat ∧
      [byteAt (header.bytes tx ++ segment.bytes tx) 20,
        byteAt (header.bytes tx ++ segment.bytes tx) 21] = tx.bytes segment.source ∧
      [byteAt (header.bytes tx ++ segment.bytes tx) 22,
        byteAt (header.bytes tx ++ segment.bytes tx) 23] = tx.bytes segment.dest ∧
      byteAt (header.bytes tx ++ segment.bytes tx) 33 = byteAt (segment.bytes tx) 13 := by
  cases tx <;> exact ⟨rfl, rfl, rfl, rfl, rfl, rfl⟩

/-- read_packet shows of two headers what the sender has stored in them. -/
theorem shown_headers (heap : Nat → UInt8) (ihl : header.ihl = 5) :
    (shown rx).run (rxByte heap
        (RawDatagrams.ReadPacket.stored (header.bytes tx ++ segment.bytes tx))) =
      some (ipLine tx header, tcpLine tx segment) := by
  have same := fun i inside => @rxByte_headers tx header segment heap i inside
  have nibbles := nibbles_headers tx header segment
  have five : header.ihl.toNat = 5 := congrArg BitVec.toNat ihl
  obtain ⟨protocol, saddr, daddr, source, dest, flags⟩ := fields_headers tx header segment
  have block : ∀ i, i + 4 ≤ 40 →
      (List.range 4).map (fun k => rxByte heap
        (RawDatagrams.ReadPacket.stored (header.bytes tx ++ segment.bytes tx)) (i + k)) =
      (List.range 4).map (fun k => byteAt (header.bytes tx ++ segment.bytes tx) (i + k)) := by
    intro i inside
    apply List.map_congr_left
    intro k member
    have small := List.mem_range.mp member
    exact same (i + k) (by omega)
  have lengths : (16 * header.version.toNat + header.ihl.toNat) / 16 = header.version.toNat ∧
      (16 * header.version.toNat + header.ihl.toNat) % 16 = 5 := by omega
  simp only [shown, RawDatagrams.ReadPacket.print_ip, RawDatagrams.ReadPacket.print_tcp,
    FieldReads.Reads.run_bind, FieldReads.Reads.run_cell, FieldReads.Reads.run_block,
    FieldReads.Reads.run_pure, RawDatagrams.run_load16, MemoryBytes.load16, block 12 (by decide),
    block 16 (by decide), same 0 (by decide), same 9 (by decide), nibbles, lengths]
  simp only [Nat.reduceMul, Nat.reduceAdd, same 20 (by decide), same 21 (by decide),
    same 22 (by decide), same 23 (by decide), same 33 (by decide), protocol, saddr, daddr, flags,
    port_headers tx rx source, port_headers tx rx dest, control_headers]
  rw [ipLine, five]
  rfl

end Headers

/-! A scan, and read_packet on a host that its probes come to. -/

/-- `wire` holds the probes that have been sent. Between `sendto` and the `[tx]` line,
`sending` is the packet that the scanner is going to receive into. -/
structure System where
  scanner : PortScan.Scanner
  sending : Option (Memory rx_packet_size)
  wire : List Bytes
  reader : Reader

/-- `random` is what `random()%time(NULL)` gives; a `sendto` that fails, or a call
before it, is the scanner's own event. The probes arrive in any order, any number of
times or never, also before the scanner has printed their line. -/
inductive Event (width : LongWidth) where
  | sendto (rx_packet : Memory rx_packet_size) (random : Long width)
  | prints
  | scan (event : PortScan.Event)
  | arrives (place : Nat)

/-- `sendto` sends `packet` for `port`. -/
inductive Call where
  | sendto (port : BitVec 16) (packet : Bytes)
  | scan (call : PortScan.Call)
  | shows (call : RawDatagrams.ReadPacket.Call)
  deriving DecidableEq

section

variable {width : LongWidth} (tx rx : Endian) (heap other : Nat → UInt8) (target : Long width)

def probe (port : BitVec 32) (random : Long width) : Bytes :=
  SynProbe.sent tx (inet_addr tx LOCAL_IP) target port random

def step : Step System (Event width) Call := fun system event =>
  match event with
  | .sendto rx_packet random =>
      if system.scanner.pc = .scanning ∧ system.sending = none then
        let packet := probe tx target (BitVec.ofNat 32 system.scanner.portNum) random
        some ({ system with sending := some rx_packet, wire := system.wire ++ [packet] },
          [.sendto (BitVec.ofNat 16 system.scanner.portNum) packet])
      else none
  | .prints =>
      match system.sending with
      | none => none
      | some rx_packet =>
          match PortScan.step tx heap (d_addr target) system.scanner (.probe rx_packet true) with
          | none => none
          | some (scanner, made) =>
              some ({ system with scanner := scanner, sending := none }, made.map .scan)
  -- the packet is out with the event above, and not with the scanner's own
  | .scan (.probe _ true) => none
  | .scan event =>
      if system.sending = none then
        match PortScan.step tx heap (d_addr target) system.scanner event with
        | none => none
        | some (scanner, made) => some ({ system with scanner := scanner }, made.map .scan)
      else none
  | .arrives place =>
      match system.wire[place]? with
      | none => none
      | some packet =>
          match RawDatagrams.ReadPacket.step rx other system.reader (.recvfrom packet) with
          | none => none
          | some (reader, made) => some ({ system with reader := reader }, made.map .shows)

def start (rx_packet buffer : Memory rx_packet_size) : System where
  scanner := PortScan.start rx_packet
  sending := none
  wire := []
  reader := ⟨.receiving, buffer⟩

def probeLines (port : BitVec 16) : RawDatagrams.ReadPacket.Call :=
  .headers ⟨4, 5, SynProbe.IPPROTO_TCP, LOCAL_IP, encode tx 4 (d_addr target).toNat⟩
    ⟨LOCAL_PORT, port, 2⟩

theorem shown_probe (port : BitVec 32) (random : Long width) (reader : Reader)
    (here : reader.pc = .receiving) :
    ∃ next, RawDatagrams.ReadPacket.step rx other reader (.recvfrom (probe tx target port random)) =
      some (next, [probeLines tx target (port.setWidth 16)]) ∧ next.pc = .receiving := by
  have shows := shown_headers tx rx (SynProbe.iph tx (inet_addr tx LOCAL_IP) target)
    (SynProbe.tcph tx (inet_addr tx LOCAL_IP) target port random) other rfl
  have ip : ipLine tx (SynProbe.iph tx (inet_addr tx LOCAL_IP) target) =
      ⟨4, 5, SynProbe.IPPROTO_TCP, LOCAL_IP, encode tx 4 (d_addr target).toNat⟩ := by
    rw [ipLine, SynProbe.iph, SynProbe.iphUnchecked]
    simp only [SynProbe.encode_inet_addr tx (rfl : LOCAL_IP.length = 4)]
    rfl
  have tcp : tcpLine tx (SynProbe.tcph tx (inet_addr tx LOCAL_IP) target port random) =
      ⟨LOCAL_PORT, port.setWidth 16, 2⟩ := by
    rw [tcpLine, SynProbe.tcph, SynProbe.tcphUnchecked]
    simp only [MemoryBytes.htons_htons]
    rfl
  rw [probe, SynProbe.sent_eq]
  simp only [RawDatagrams.ReadPacket.step, here, shows, ip, tcp]
  exact ⟨_, rfl, rfl⟩

def sentPort : Call → List (BitVec 16)
  | .sendto port _ => [port]
  | _ => []

def announcedPort : Call → List (BitVec 16)
  | .scan (.tx _ dest) => [dest]
  | _ => []

def sentPorts (calls : List Call) : List (BitVec 16) := calls.flatMap sentPort

def announcedPorts (calls : List Call) : List (BitVec 16) := calls.flatMap announcedPort

/-- A probe is sent when all before it have been announced, and the next `[tx]` line is
the one of the probe sent last. What read_packet shows are the lines of a port that a
probe has been sent to, and the scanner has printed that port or is about to. -/
def Good (before : List Call) : Call → Prop
  | .sendto port packet => sentPorts before = announcedPorts before ∧
      ∃ asked random, packet = probe tx target asked random ∧ port = asked.setWidth 16
  | .scan (.tx source dest) =>
      source = LOCAL_PORT ∧ sentPorts before = announcedPorts before ++ [dest]
  | .scan _ => True
  | .shows call => ∃ port ∈ sentPorts before, call = probeLines tx target port ∧
      (port ∈ announcedPorts before ∨ sentPorts before = announcedPorts before ++ [port])

/-- The port whose probe is out without its line. -/
def unannounced (system : System) : List (BitVec 16) :=
  match system.sending with
  | none => []
  | some _ => [BitVec.ofNat 16 system.scanner.portNum]

structure Inv (calls : List Call) (system : System) : Prop where
  wire : ∀ packet ∈ system.wire, ∃ asked random,
    packet = probe tx target asked random ∧ asked.setWidth 16 ∈ sentPorts calls
  ports : sentPorts calls = announcedPorts calls ++ unannounced system
  reading : system.reader.pc = .receiving

@[simp] theorem sentPorts_append (calls made : List Call) :
    sentPorts (calls ++ made) = sentPorts calls ++ sentPorts made := List.flatMap_append

@[simp] theorem announcedPorts_append (calls made : List Call) :
    announcedPorts (calls ++ made) = announcedPorts calls ++ announcedPorts made :=
  List.flatMap_append

@[simp] theorem sentPorts_one (call : Call) : sentPorts [call] = sentPort call := by
  simp [sentPorts]

@[simp] theorem announcedPorts_one (call : Call) : announcedPorts [call] = announcedPort call := by
  simp [announcedPorts]

@[simp] theorem sentPorts_scan (made : List PortScan.Call) : sentPorts (made.map .scan) = [] := by
  induction made with
  | nil => rfl
  | cons call rest ih => exact ih

def Quiet : PortScan.Call → Prop
  | .tx _ _ => False
  | _ => True

theorem announcedPorts_quiet {made : List PortScan.Call} (quiet : ∀ call ∈ made, Quiet call) :
    announcedPorts (made.map .scan) = [] := by
  induction made with
  | nil => rfl
  | cons call rest ih =>
      obtain ⟨first, others⟩ := List.forall_mem_cons.mp quiet
      cases call with
      | tx source dest => exact absurd first id
      | _ => exact ih others

/-- Only a probe that is out makes the scanner print a `[tx]` line. -/
theorem quiet_of_step {scanner next : PortScan.Scanner} {event : PortScan.Event}
    {made : List PortScan.Call} (unsent : ∀ rx_packet, event ≠ .probe rx_packet true)
    (taken : PortScan.step tx heap (d_addr target) scanner event = some (next, made)) :
    ∀ call ∈ made, Quiet call := by
  unfold PortScan.step at taken
  split at taken
  case h_1 rx_packet ok here =>
      cases ok with
      | true => exact absurd rfl (unsent rx_packet)
      | false =>
          cases taken
          simp
  case h_2 data here =>
      rw [Option.ite_none_left_eq_some] at taken
      have turn := Option.some.inj taken.2
      unfold PortScan.received at turn
      simp only at turn
      split at turn
      · cases turn
        simp
      · split at turn
        · split at turn
          · cases turn
            simp [Quiet]
          · split at turn <;> cases turn <;> simp [Quiet]
        · cases turn
          simp
  case h_3 =>
      cases taken
      simp
  case h_4 =>
      cases taken
      simp [Quiet]
  case h_5 =>
      cases taken
      simp
  case h_6 => contradiction

theorem good_of_quiet {call : PortScan.Call} (quiet : Quiet call) (before : List Call) :
    Good tx target before (.scan call) := by
  cases call with
  | tx source dest => exact absurd quiet id
  | _ => trivial

theorem wire_append {calls : List Call} {wire : List Bytes}
    (inv : ∀ packet ∈ wire, ∃ asked random,
      packet = probe tx target asked random ∧ asked.setWidth 16 ∈ sentPorts calls)
    (made : List Call) : ∀ packet ∈ wire, ∃ asked random,
      packet = probe tx target asked random ∧ asked.setWidth 16 ∈ sentPorts (calls ++ made) := by
  intro packet member
  obtain ⟨asked, random, same, sent⟩ := inv packet member
  exact ⟨asked, random, same, by simp [sent]⟩

theorem inv_sendto {system : System} {before : List Call} (inv : Inv tx target before system)
    (settled : system.sending = none) (rx_packet : Memory rx_packet_size) (random : Long width) :
    let packet := probe tx target (BitVec.ofNat 32 system.scanner.portNum) random
    let call := Call.sendto (BitVec.ofNat 16 system.scanner.portNum) packet
    Good tx target before call ∧
      Inv tx target (before ++ [call])
        { system with sending := some rx_packet, wire := system.wire ++ [packet] } := by
  intro packet call
  have port : (BitVec.ofNat 32 system.scanner.portNum).setWidth 16 =
      BitVec.ofNat 16 system.scanner.portNum := BitVec.setWidth_ofNat_of_le (by decide) _
  have ports : sentPorts before = announcedPorts before := by
    rw [inv.ports, unannounced, settled, List.append_nil]
  refine ⟨⟨ports, _, random, rfl, port.symm⟩, ?_, ?_, inv.reading⟩
  · intro other member
    rcases List.mem_append.mp member with old | new
    · exact wire_append tx target inv.wire _ other old
    · rw [List.mem_singleton.mp new]
      exact ⟨_, random, rfl, by simp [call, sentPort, port]⟩
  · simp [ports, call, sentPort, announcedPort, unannounced]

theorem inv_prints {system : System} {before : List Call} {rx_packet : Memory rx_packet_size}
    {scanner : PortScan.Scanner} {made : List PortScan.Call} (inv : Inv tx target before system)
    (out : system.sending = some rx_packet)
    (taken : PortScan.step tx heap (d_addr target) system.scanner (.probe rx_packet true) =
      some (scanner, made)) :
    made = [.tx LOCAL_PORT (BitVec.ofNat 16 system.scanner.portNum)] ∧
      Good tx target before (.scan (.tx LOCAL_PORT (BitVec.ofNat 16 system.scanner.portNum))) ∧
      Inv tx target (before ++ made.map .scan)
        { system with scanner := scanner, sending := none } := by
  have ports : sentPorts before =
      announcedPorts before ++ [BitVec.ofNat 16 system.scanner.portNum] := by
    rw [inv.ports, unannounced, out]
  have printed : made = [.tx LOCAL_PORT (BitVec.ofNat 16 system.scanner.portNum)] := by
    cases pc : system.scanner.pc with
    | scanning =>
        simp only [PortScan.step, pc, if_true, Option.some.injEq, Prod.mk.injEq] at taken
        exact taken.2.symm
    | _ => simp [PortScan.step, pc] at taken
  refine ⟨printed, ⟨rfl, ports⟩, ?_, ?_, inv.reading⟩
  · exact wire_append tx target inv.wire _
  · rw [sentPorts_append, sentPorts_scan, ports, announcedPorts_append, printed]
    simp [announcedPort, unannounced]

/-- All ports sent have been announced, but for the one whose line is to come. -/
theorem announced_or_next {system : System} {before : List Call}
    (inv : Inv tx target before system) {port : BitVec 16} (sent : port ∈ sentPorts before) :
    port ∈ announcedPorts before ∨ sentPorts before = announcedPorts before ++ [port] := by
  have ports := inv.ports
  rw [ports] at sent
  rcases List.mem_append.mp sent with old | new
  · exact .inl old
  · right
    unfold unannounced at ports new
    cases out : system.sending with
    | none => simp [out] at new
    | some rx_packet =>
        rw [out] at ports new
        rw [ports, List.mem_singleton.mp new]

theorem inv_step {system next : System} {event : Event width} {before made : List Call}
    (inv : Inv tx target before system) (earlier : Preceded (Good tx target) before)
    (taken : step tx rx heap other target system event = some (next, made)) :
    Inv tx target (before ++ made) next ∧ Preceded (Good tx target) (before ++ made) := by
  unfold step at taken
  split at taken
  case h_1 rx_packet random =>
      rw [Option.ite_none_right_eq_some] at taken
      obtain ⟨⟨_, settled⟩, taken⟩ := taken
      cases taken
      obtain ⟨good, kept⟩ := inv_sendto tx target inv settled rx_packet random
      exact ⟨kept, Precedence.preceded_concat earlier good⟩
  case h_2 =>
      split at taken
      case h_1 => contradiction
      case h_2 rx_packet out =>
          split at taken
          case h_1 => contradiction
          case h_2 scanner calls scanned =>
              cases taken
              obtain ⟨printed, good, kept⟩ := inv_prints tx heap target inv out scanned
              refine ⟨kept, ?_⟩
              rw [printed]
              exact Precedence.preceded_concat earlier good
  case h_3 => contradiction
  case h_4 event unsent =>
      rw [Option.ite_none_right_eq_some] at taken
      obtain ⟨settled, taken⟩ := taken
      split at taken
      case h_1 => contradiction
      case h_2 scanner calls scanned =>
          cases taken
          have quiet := quiet_of_step tx heap target (fun rx_packet => unsent rx_packet) scanned
          refine ⟨⟨wire_append tx target inv.wire _, ?_, inv.reading⟩, ?_⟩
          · rw [sentPorts_append, sentPorts_scan, announcedPorts_append,
              announcedPorts_quiet quiet, inv.ports, unannounced, settled]
            simp [unannounced]
          · apply Precedence.preceded_of_forall earlier
            intro call member front
            obtain ⟨printed, inside, rfl⟩ := List.mem_map.mp member
            exact good_of_quiet tx target (quiet printed inside) front
  case h_5 place =>
      split at taken
      case h_1 => contradiction
      case h_2 packet found =>
          obtain ⟨asked, random, rfl, sent⟩ := inv.wire packet (List.mem_of_getElem? found)
          obtain ⟨reader, shows, reading⟩ :=
            shown_probe tx rx other target asked random system.reader inv.reading
          simp only [shows, Option.some.injEq, Prod.mk.injEq] at taken
          obtain ⟨rfl, rfl⟩ := taken
          refine ⟨⟨wire_append tx target inv.wire _, ?_, reading⟩, ?_⟩
          · simp only [List.map_cons, List.map_nil, sentPorts_append, sentPorts_one,
              announcedPorts_append, announcedPorts_one, sentPort, announcedPort, List.append_nil]
            exact inv.ports
          · exact Precedence.preceded_concat earlier
              ⟨_, sent, rfl, announced_or_next tx target inv sent⟩

end

def scanned : Long .bits64 := 0x0100000a#64

/-- The probes for ports 80 and 81 arrive at a big-endian host, the second one first and
before its line is printed. -/
def swapped : List (Event .bits64) :=
  [.sendto (Memory.zeros _) 12345#64, .prints, .scan .recvEnds, .sendto (Memory.zeros _) 77#64,
    .arrives 1, .prints, .arrives 0]

end NetworkTest.ProbeShown
