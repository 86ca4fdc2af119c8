import NetworkTest.Machine
import NetworkTest.SynProbe

/-!
The scan of fri/port_stat/port_scan_sys.c: `main` calls `scan_syn_port` for one
port after the other, which sends its probe and looks in all TCP segments of
the raw socket for the answer.
-/

namespace NetworkTest.PortScan

open CBuffer (Bytes Memory)
open Halfwords (Endian)
open Machine (Step exec Along)
open MemoryBytes (encode htons load16 load32)
open Packets
open SynProbe (LOCAL_PORT)

def START_PORT : Nat := 80

def END_PORT : Nat := 90

def rx_packet_size : Nat := 40

inductive Verdict where
  | opened (name : Bytes)
  | closed
  deriving DecidableEq

/-- `looking` waits for `getservbyport`; `faulted` has gone through the null
pointer it returned. -/
inductive Pc where
  | scanning
  | receiving
  | looking
  | finished
  | exited
  | faulted
  deriving DecidableEq

/-- `heard` are the segments received for the present port. -/
structure Scanner where
  pc : Pc
  portNum : Nat
  rx_packet : Memory rx_packet_size
  heard : List Bytes

inductive Event where
  /-- The packet is allocated; `ok` tells whether the calls up to `sendto` succeed. -/
  | probe (rx_packet : Memory rx_packet_size) (ok : Bool)
  | recvfrom (data : Bytes)
  /-- `recvfrom` returned 0 or -1, as it may where `len`, which nothing has set, is
  negative. -/
  | recvEnds
  | getservbyport (name : Option Bytes)

/-- The lines printed, with what they are about; `rx` shows the six control
bits. -/
inductive Call where
  | tx (source dest : BitVec 16)
  | rx (source dest : BitVec 16) (control : BitVec 6)
  | verdict (port : Nat) (heard : List Bytes) (verdict : Verdict)
  | protocolError (port : Nat) (heard : List Bytes)
  deriving DecidableEq

/-- `rx_packet[i]`, and what lies behind the packet. -/
def rxByte (heap : Nat → UInt8) (rx_packet : Memory rx_packet_size) (i : Nat) : UInt8 :=
  if i < rx_packet_size then byteAt rx_packet.val i else heap i

def stored (scanner : Scanner) (data : Bytes) : Memory rx_packet_size :=
  scanner.rx_packet.store (data.take rx_packet_size) (List.length_take_le ..)

/-- The loop ends, and `main` goes on. -/
def Scanner.next (scanner : Scanner) : Scanner :=
  { scanner with
    portNum := scanner.portNum + 1
    heard := []
    pc := if scanner.portNum + 1 ≤ END_PORT then .scanning else .finished }

section

variable (order : Endian) (heap : Nat → UInt8) (daddr : BitVec 32)

/-- The body of the loop, for the received `data`. -/
def received (scanner : Scanner) (data : Bytes) : Scanner × List Call :=
  let rx_packet := stored scanner data
  let byte := rxByte heap rx_packet
  let tcp := (byte 0).toNat % 16 * 4
  let scanner := { scanner with rx_packet := rx_packet, heard := scanner.heard ++ [data] }
  if load32 order byte 12 ≠ daddr then (scanner, [])
  else
    let port := BitVec.ofNat 16 scanner.portNum
    let source := htons order (load16 order byte tcp)
    let dest := htons order (load16 order byte (tcp + 2))
    if htons order (htons order LOCAL_PORT) = dest ∧ htons order (htons order port) = source then
      let flags := (byte (tcp + 13)).toBitVec
      let printed := Call.rx source dest (flags.setWidth 6)
      -- SYN and ACK, then RST
      if flags.getLsbD 1 = true ∧ flags.getLsbD 4 = true then
        ({ scanner with pc := .looking }, [printed])
      else if flags.getLsbD 2 = true then
        (scanner.next, [printed, .verdict scanner.portNum scanner.heard .closed])
      else ({ scanner with pc := .exited }, [printed, .protocolError scanner.portNum scanner.heard])
    else (scanner, [])

def step : Step Scanner Event Call := fun scanner event =>
  match scanner.pc, event with
  | .scanning, .probe rx_packet ok =>
      if ok then
        some ({ scanner with rx_packet := rx_packet, heard := [], pc := .receiving },
          [.tx LOCAL_PORT (BitVec.ofNat 16 scanner.portNum)])
      else some ({ scanner with pc := .exited }, [])
  | .receiving, .recvfrom data =>
      if data = [] then none else some (received order heap daddr scanner data)
  | .receiving, .recvEnds => some (scanner.next, [])
  | .looking, .getservbyport (some name) =>
      some (scanner.next, [.verdict scanner.portNum scanner.heard (.opened name)])
  -- `serv->s_name` without a look at `serv`
  | .looking, .getservbyport none => some ({ scanner with pc := .faulted }, [])
  | _, _ => none

end

def start (rx_packet : Memory rx_packet_size) : Scanner where
  pc := .scanning
  portNum := START_PORT
  rx_packet := rx_packet
  heard := []

/-! What a segment is, whatever the scanner reads of it. -/

structure IsSegment (data : Bytes) : Prop where
  protocol : Ipv4.protocol data = 6
  header : 20 ≤ Ipv4.headerLength data
  tcp : Ipv4.headerLength data + 20 ≤ data.length

instance (data : Bytes) : Decidable (IsSegment data) :=
  decidable_of_iff (Ipv4.protocol data = 6 ∧ 20 ≤ Ipv4.headerLength data ∧
      Ipv4.headerLength data + 20 ≤ data.length)
    ⟨fun ⟨protocol, header, tcp⟩ => ⟨protocol, header, tcp⟩,
      fun ⟨protocol, header, tcp⟩ => ⟨protocol, header, tcp⟩⟩

/-- It comes from `address` with the two ports of the probe swapped. -/
def Answers (address : Bytes) (port : Nat) (data : Bytes) : Prop :=
  Ipv4.source data = address ∧ Tcp.sourcePort (Ipv4.payload data) = port ∧
    Tcp.destinationPort (Ipv4.payload data) = LOCAL_PORT.toNat

instance (address : Bytes) (port : Nat) (data : Bytes) : Decidable (Answers address port data) :=
  inferInstanceAs (Decidable (_ ∧ _ ∧ _))

inductive Finding where
  | opened
  | closed
  | neither
  deriving DecidableEq

def finding (data : Bytes) : Finding :=
  if Tcp.syn (Ipv4.payload data) = true ∧ Tcp.ack (Ipv4.payload data) = true then .opened
  else if Tcp.rst (Ipv4.payload data) = true then .closed
  else .neither

/-- The last segment heard is the first one that answers, and this is what it
says. -/
def Decides (address : Bytes) (port : Nat) (heard : List Bytes) (found : Finding) : Prop :=
  ∃ front data, heard = front ++ [data] ∧ (∀ earlier ∈ front, ¬ Answers address port earlier) ∧
    Answers address port data ∧ finding data = found

/-- No `recvfrom` fails, whatever is in `len`: each brings a segment; one from `address`
has its flags in the 40 bytes that are received; and the service is known. -/
def Expected (address : Bytes) (_ : Scanner) : Event → Prop
  | .probe _ _ => True
  | .recvfrom data => IsSegment data ∧
      (Ipv4.source data = address → Ipv4.headerLength data + 14 ≤ rx_packet_size)
  | .recvEnds => False
  | .getservbyport name => name.isSome = true

instance (address : Bytes) (scanner : Scanner) :
    (event : Event) → Decidable (Expected address scanner event)
  | .probe _ _ => isTrue trivial
  | .recvfrom data => inferInstanceAs (Decidable (IsSegment data ∧
      (Ipv4.source data = address → Ipv4.headerLength data + 14 ≤ rx_packet_size)))
  | .recvEnds => isFalse id
  | .getservbyport name => inferInstanceAs (Decidable (name.isSome = true))

section Reading

variable {order : Endian} {heap : Nat → UInt8} {data : Bytes}

theorem rxByte_stored (scanner : Scanner) {i : Nat} (inside : i < rx_packet_size)
    (known : i < data.length) : rxByte heap (stored scanner data) i = byteAt data i := by
  rw [rxByte, if_pos inside, stored, byteAt_store _ inside known]

theorem fields_stored (scanner : Scanner) (segment : IsSegment data)
    (inside : Ipv4.headerLength data + 14 ≤ rx_packet_size) :
    (rxByte heap (stored scanner data) 0).toNat % 16 * 4 = Ipv4.headerLength data ∧
      (htons order (load16 order (rxByte heap (stored scanner data))
        (Ipv4.headerLength data))).toNat = Tcp.sourcePort (Ipv4.payload data) ∧
      (htons order (load16 order (rxByte heap (stored scanner data))
        (Ipv4.headerLength data + 2))).toNat = Tcp.destinationPort (Ipv4.payload data) ∧
      rxByte heap (stored scanner data) (Ipv4.headerLength data + 13) =
        byteAt (Ipv4.payload data) 13 := by
  have long := segment.tcp
  have known : ∀ i, i < Ipv4.headerLength data + 14 →
      rxByte heap (stored scanner data) i = byteAt data i :=
    fun i before => rxByte_stored scanner (by omega) (by omega)
  refine ⟨?_, ?_, ?_, ?_⟩
  · rw [known 0 (by omega), Ipv4.headerLength]
  · rw [load16, MemoryBytes.ntohs_word, known _ (by omega), known _ (by omega), Tcp.sourcePort,
      field, Ipv4.byteAt_payload, Ipv4.byteAt_payload]
    rfl
  · rw [load16, MemoryBytes.ntohs_word, known _ (by omega), known _ (by omega),
      Tcp.destinationPort, field, Ipv4.byteAt_payload, Ipv4.byteAt_payload]
  · rw [known _ (by omega), Ipv4.byteAt_payload]

theorem saddr_stored (scanner : Scanner) (segment : IsSegment data) (daddr : BitVec 32) :
    load32 order (rxByte heap (stored scanner data)) 12 = daddr ↔
      Ipv4.source data = encode order 4 daddr.toNat := by
  have header := segment.header
  have tcp := segment.tcp
  have known : ∀ i, i < 20 → rxByte heap (stored scanner data) i = byteAt data i :=
    fun i before => rxByte_stored scanner (Nat.lt_trans before (by decide)) (by omega)
  exact Ipv4.load_source_iff (by omega) known daddr

inductive Received (address : Bytes) (scanner : Scanner) (data : Bytes) :
    Scanner → List Call → Prop where
  | ignored (rx_packet : Memory rx_packet_size)
      (foreign : ¬ Answers address scanner.portNum data) :
      Received address scanner data
        { scanner with rx_packet := rx_packet, heard := scanner.heard ++ [data] } []
  | accepted (rx_packet : Memory rx_packet_size) (source dest : BitVec 16) (control : BitVec 6)
      (answers : Answers address scanner.portNum data) (found : finding data = .opened) :
      Received address scanner data
        { scanner with
          rx_packet := rx_packet, heard := scanner.heard ++ [data], pc := .looking }
        [.rx source dest control]
  | reset (rx_packet : Memory rx_packet_size) (source dest : BitVec 16) (control : BitVec 6)
      (answers : Answers address scanner.portNum data) (found : finding data = .closed) :
      Received address scanner data { scanner with rx_packet := rx_packet }.next
        [.rx source dest control, .verdict scanner.portNum (scanner.heard ++ [data]) .closed]
  | odd (rx_packet : Memory rx_packet_size) (source dest : BitVec 16) (control : BitVec 6)
      (answers : Answers address scanner.portNum data) (found : finding data = .neither) :
      Received address scanner data
        { scanner with
          rx_packet := rx_packet, heard := scanner.heard ++ [data], pc := .exited }
        [.rx source dest control, .protocolError scanner.portNum (scanner.heard ++ [data])]

theorem received_expected {daddr : BitVec 32} {scanner next : Scanner} {made : List Call}
    (segment : IsSegment data) (port : scanner.portNum < 65536)
    (inside : Ipv4.source data = encode order 4 daddr.toNat →
      Ipv4.headerLength data + 14 ≤ rx_packet_size)
    (taken : received order heap daddr scanner data = (next, made)) :
    Received (encode order 4 daddr.toNat) scanner data next made := by
  have saddr := @saddr_stored order heap data scanner segment daddr
  unfold received at taken
  simp only at taken
  split at taken
  case isTrue foreign =>
      cases taken
      exact .ignored _ fun answers => foreign (saddr.mpr answers.1)
  case isFalse same =>
      rw [ne_eq, not_not, saddr] at same
      obtain ⟨tcp, source, dest, flags⟩ := @fields_stored order heap data scanner segment
        (inside same)
      have answers : (htons order (htons order LOCAL_PORT) =
          htons order (load16 order (rxByte heap (stored scanner data))
            (Ipv4.headerLength data + 2)) ∧
          htons order (htons order (BitVec.ofNat 16 scanner.portNum)) =
          htons order (load16 order (rxByte heap (stored scanner data))
            (Ipv4.headerLength data))) ↔
          Answers (encode order 4 daddr.toNat) scanner.portNum data := by
        rw [MemoryBytes.htons_htons, MemoryBytes.htons_htons, ← BitVec.toNat_inj,
          ← BitVec.toNat_inj, source, dest, BitVec.toNat_ofNat, Nat.mod_eq_of_lt port, Answers]
        exact ⟨fun ⟨own, asked⟩ => ⟨same, asked.symm, own.symm⟩,
          fun ⟨_, asked, own⟩ => ⟨own.symm, asked.symm⟩⟩
      rw [tcp, flags] at taken
      split at taken
      case isFalse foreign =>
          cases taken
          exact .ignored _ fun asked => foreign (answers.mpr asked)
      case isTrue asked =>
          have found := answers.mp asked
          split at taken
          case isTrue both =>
              cases taken
              exact .accepted _ _ _ _ found (if_pos both)
          case isFalse other =>
              split at taken
              case isTrue reset =>
                  cases taken
                  exact .reset _ _ _ _ found ((if_neg other).trans (if_pos reset))
              case isFalse neither =>
                  cases taken
                  exact .odd _ _ _ _ found ((if_neg other).trans (if_neg neither))

end Reading

/-! One verdict for each port, in order. -/

def verdictPort : Call → List Nat
  | .verdict port _ _ => [port]
  | _ => []

def verdictPorts (calls : List Call) : List Nat := calls.flatMap verdictPort

/-- The line says what the first answer says. -/
def Sound (address : Bytes) : Call → Prop
  | .verdict port heard (.opened _) => Decides address port heard .opened
  | .verdict port heard .closed => Decides address port heard .closed
  | .protocolError port heard => Decides address port heard .neither
  | .tx _ _ => True
  | .rx _ _ _ => True

/-- What has been heard of the present port. -/
def Standing (address : Bytes) (scanner : Scanner) : Prop :=
  match scanner.pc with
  | .scanning => scanner.heard = []
  | .receiving => ∀ data ∈ scanner.heard, ¬ Answers address scanner.portNum data
  | .looking => Decides address scanner.portNum scanner.heard .opened
  | .finished => scanner.portNum = END_PORT + 1
  | .exited => scanner.heard = [] ∨ Decides address scanner.portNum scanner.heard .neither
  | .faulted => False

/-- Every port before the present one has got its verdict and no other has; the
scan stops before its end only where no probe was sent or the answer is neither
of the two. -/
structure Scanned (address : Bytes) (calls : List Call) (scanner : Scanner) : Prop where
  first : START_PORT ≤ scanner.portNum
  last : scanner.pc ≠ .finished → scanner.portNum ≤ END_PORT
  verdicts : verdictPorts calls = List.range' START_PORT (scanner.portNum - START_PORT)
  sound : ∀ call ∈ calls, Sound address call
  standing : Standing address scanner

theorem scanned_start (address : Bytes) (rx_packet : Memory rx_packet_size) :
    Scanned address [] (start rx_packet) := by
  constructor <;> simp [start, verdictPorts, Standing, START_PORT, END_PORT]

theorem verdictPorts_append (calls made : List Call) :
    verdictPorts (calls ++ made) = verdictPorts calls ++ verdictPorts made := List.flatMap_append

section Steps

variable {address : Bytes} {calls made : List Call} {scanner after : Scanner}

theorem scanned_next (inv : Scanned address calls scanner) (unfinished : scanner.pc ≠ .finished)
    (same : after.portNum = scanner.portNum) (one : verdictPorts made = [scanner.portNum])
    (sound : ∀ call ∈ made, Sound address call) :
    Scanned address (calls ++ made) after.next := by
  have first := inv.first
  have last := inv.last unfinished
  have portNum : after.next.portNum = scanner.portNum + 1 := by rw [Scanner.next, same]
  have pc : after.next.pc = if scanner.portNum + 1 ≤ END_PORT then .scanning else .finished := by
    rw [Scanner.next, same]
  constructor
  case first => omega
  case last =>
      intro more
      rw [pc] at more
      split at more
      · omega
      · exact absurd rfl more
  case verdicts =>
      rw [verdictPorts_append, inv.verdicts, one, portNum, Nat.sub_add_comm first,
        List.range'_1_concat, Nat.add_sub_cancel' first]
  case sound => exact List.forall_mem_append.mpr ⟨inv.sound, sound⟩
  case standing =>
      by_cases more : scanner.portNum + 1 ≤ END_PORT
      · rw [if_pos more] at pc
        rw [Standing, pc]
        rfl
      · rw [if_neg more] at pc
        rw [Standing, pc]
        simp only [portNum]
        omega

theorem scanned_stays (inv : Scanned address calls scanner) (unfinished : scanner.pc ≠ .finished)
    (same : after.portNum = scanner.portNum) (none : verdictPorts made = [])
    (sound : ∀ call ∈ made, Sound address call) (standing : Standing address after) :
    Scanned address (calls ++ made) after := by
  constructor
  case first => exact same ▸ inv.first
  case last => exact fun _ => same ▸ inv.last unfinished
  case verdicts => rw [verdictPorts_append, none, List.append_nil, same, inv.verdicts]
  case sound => exact List.forall_mem_append.mpr ⟨inv.sound, sound⟩
  case standing => exact standing

theorem decides_first {port : Nat} {heard : List Bytes} {data : Bytes} {found : Finding}
    (before : ∀ earlier ∈ heard, ¬ Answers address port earlier)
    (answers : Answers address port data) (what : finding data = found) :
    Decides address port (heard ++ [data]) found :=
  ⟨heard, data, rfl, before, answers, what⟩

theorem scanned_received {data : Bytes} (inv : Scanned address calls scanner)
    (here : scanner.pc = .receiving) (turn : Received address scanner data after made) :
    Scanned address (calls ++ made) after := by
  have before := inv.standing
  rw [Standing, here] at before
  have unfinished : scanner.pc ≠ .finished := by rw [here]; nofun
  cases turn with
  | ignored rx_packet foreign =>
      refine scanned_stays inv unfinished (by rfl) (by rfl) (by simp) ?_
      rw [Standing]
      simp only [here]
      intro other member
      rcases List.mem_append.mp member with old | new
      · exact before other old
      · rw [List.mem_singleton.mp new]
        exact foreign
  | accepted rx_packet source dest control answers found =>
      exact scanned_stays inv unfinished rfl rfl (by simp [Sound])
        (decides_first before answers found)
  | reset rx_packet source dest control answers found =>
      exact scanned_next inv unfinished rfl rfl
        (by simpa [Sound] using decides_first before answers found)
  | odd rx_packet source dest control answers found =>
      exact scanned_stays inv unfinished rfl rfl
        (by simpa [Sound] using decides_first before answers found)
        (.inr (decides_first before answers found))

end Steps

theorem scanned_turn {order : Endian} {heap : Nat → UInt8} {daddr : BitVec 32}
    {calls made : List Call} {scanner next : Scanner} {event : Event}
    (inv : Scanned (encode order 4 daddr.toNat) calls scanner)
    (expected : Expected (encode order 4 daddr.toNat) scanner event)
    (taken : step order heap daddr scanner event = some (next, made)) :
    Scanned (encode order 4 daddr.toNat) (calls ++ made) next := by
  have standing := inv.standing
  unfold step at taken
  split at taken
  case h_1 rx_packet ok here =>
      have unfinished : scanner.pc ≠ .finished := by rw [here]; nofun
      rw [Standing, here] at standing
      split at taken
      case isTrue =>
          cases taken
          exact scanned_stays inv unfinished rfl rfl (by simp [Sound]) (by simp [Standing])
      case isFalse =>
          cases taken
          exact scanned_stays inv unfinished rfl rfl (by simp) (.inl standing)
  case h_2 data here =>
      split at taken
      case isTrue => contradiction
      case isFalse =>
          have last := inv.last (by rw [here]; nofun)
          have small : END_PORT + 1 < 65536 := by decide
          exact scanned_received inv here (received_expected expected.1 (by omega) expected.2
            (Option.some.inj taken))
  case h_3 here => exact absurd expected id
  case h_4 name here =>
      cases taken
      rw [Standing, here] at standing
      exact scanned_next inv (by rw [here]; nofun) rfl rfl (by simpa [Sound] using standing)
  case h_5 here => cases expected
  case h_6 => contradiction

/-- As long as no `recvfrom` fails: for each port in turn, the first segment from the
target with the ports of the probe swapped decides what is printed, once; then the next
port is scanned, unless that segment is neither a SYN with ACK nor an RST. -/
theorem verdicts_decided (order : Endian) (heap : Nat → UInt8) (daddr : BitVec 32)
    (rx_packet : Memory rx_packet_size) (events : List Event) (scanner : Scanner)
    (calls : List Call)
    (expected : Along (step order heap daddr) (Expected (encode order 4 daddr.toNat))
      (start rx_packet) events)
    (ran : exec (step order heap daddr) (start rx_packet) events = some (scanner, calls)) :
    Scanned (encode order 4 daddr.toNat) calls scanner :=
  Machine.exec_invariant_along (Scanned (encode order 4 daddr.toNat))
    (fun _ _ _ _ _ inv allowed taken => scanned_turn inv allowed taken)
    (scanned_start _ rx_packet) expected ran

def segmentFrom (address : Bytes) (control : UInt8) : Bytes :=
  [0x45, 0, 0, 40, 0, 0, 0, 0, 64, 6, 0, 0] ++ address ++ [192, 168, 100, 2] ++
    [0, 80, 35, 40, 0, 0, 0, 0, 0, 0, 0, 0, 0x50, control, 4, 0, 0, 0, 0, 0]

/-- A foreign RST, then the answer of the target: SYN and ACK. -/
def webServer : List Event :=
  [.probe (.zeros _) true, .recvfrom (segmentFrom [10, 0, 0, 2] 4),
    .recvfrom (segmentFrom [10, 0, 0, 1] 18), .getservbyport (some [119, 119, 119])]

theorem verdicts_decided_webServer :
    ∃ scanner calls, exec (step .little (fun _ => 0) 0x0100000a#32) (start (.zeros _)) webServer =
        some (scanner, calls) ∧
      verdictPorts calls = [80] ∧ scanner.portNum = 81 ∧
      Scanned [10, 0, 0, 1] calls scanner := by
  refine ⟨_, _, rfl, rfl, rfl, ?_⟩
  exact verdicts_decided .little (fun _ => 0) 0x0100000a#32 (.zeros _) webServer _ _
    ((Machine.misses_zero_iff _ _).mp (by decide)) rfl

/-- The target answers with ACK alone, or with SYN and ACK where no service is
known: no verdict, and the other ports are not scanned. -/
theorem scan_stops :
    (∃ scanner calls, exec (step .little (fun _ => 0) 0x0100000a#32) (start (.zeros _))
        [.probe (.zeros _) true, .recvfrom (segmentFrom [10, 0, 0, 1] 16)] =
          some (scanner, calls) ∧
        Answers [10, 0, 0, 1] 80 (segmentFrom [10, 0, 0, 1] 16) ∧
        verdictPorts calls = [] ∧ scanner.pc = .exited ∧ scanner.portNum = 80) ∧
      ∃ scanner calls, exec (step .little (fun _ => 0) 0x0100000a#32) (start (.zeros _))
        [.probe (.zeros _) true, .recvfrom (segmentFrom [10, 0, 0, 1] 18),
          .getservbyport none] = some (scanner, calls) ∧
        Answers [10, 0, 0, 1] 80 (segmentFrom [10, 0, 0, 1] 18) ∧
        verdictPorts calls = [] ∧ scanner.pc = .faulted ∧ scanner.portNum = 80 :=
  ⟨⟨_, _, rfl, by decide, by decide, rfl, rfl⟩, ⟨_, _, rfl, by decide, by decide, rfl, rfl⟩⟩

end NetworkTest.PortScan
