import NetworkTest.Checksum
import NetworkTest.Packets

/-!
The probe of fri/port_stat/port_scan_sys.c: the IP and TCP headers that
`scan_syn_port` puts together in `tx_packet`, with a pseudo header behind them
that only the checksum is meant for. Structures are laid out as the host lays
them out, with its byte order and its `unsigned long`.
-/

namespace NetworkTest.SynProbe

open CBuffer (Bytes)
open Checksum (LongWidth Long cksum_in)
open Halfwords (Endian words wordSum)
open MemoryBytes (encode htons)
open Packets

def LOCAL_IP : Bytes := [192, 168, 100, 2]

def LOCAL_PORT : BitVec 16 := 9000#16

def IPDEFTTL : UInt8 := 64

def IPPROTO_TCP : UInt8 := 6

/-- `inet_addr`, whose result holds the bytes of the address in their order. -/
def inet_addr (order : Endian) (address : Bytes) : BitVec 32 :=
  BitVec.ofNat 32 (MemoryBytes.decode order address)

structure Iphdr where
  ihl : BitVec 4
  version : BitVec 4
  tos : UInt8
  tot_len : BitVec 16
  id : BitVec 16
  frag_off : BitVec 16
  ttl : UInt8
  protocol : UInt8
  check : BitVec 16
  saddr : BitVec 32
  daddr : BitVec 32

def Iphdr.bytes (order : Endian) (header : Iphdr) : Bytes :=
  ⟨header.version ++ header.ihl⟩ :: header.tos :: (order.bytes header.tot_len ++
    order.bytes header.id ++ order.bytes header.frag_off ++ [header.ttl, header.protocol] ++
    order.bytes header.check ++ encode order 4 header.saddr.toNat ++
    encode order 4 header.daddr.toNat)

structure Tcphdr where
  source : BitVec 16
  dest : BitVec 16
  seq : BitVec 32
  ack_seq : BitVec 32
  doff : BitVec 4
  res1 : BitVec 4
  res2 : BitVec 2
  urg : BitVec 1
  ack : BitVec 1
  psh : BitVec 1
  rst : BitVec 1
  syn : BitVec 1
  fin : BitVec 1
  window : BitVec 16
  check : BitVec 16
  urg_ptr : BitVec 16

def Tcphdr.bytes (order : Endian) (header : Tcphdr) : Bytes :=
  order.bytes header.source ++ order.bytes header.dest ++ encode order 4 header.seq.toNat ++
    encode order 4 header.ack_seq.toNat ++
    [⟨header.doff ++ header.res1⟩,
      ⟨header.res2 ++ header.urg ++ header.ack ++ header.psh ++ header.rst ++ header.syn ++
        header.fin⟩] ++
    order.bytes header.window ++ order.bytes header.check ++ order.bytes header.urg_ptr

structure Pseudohdr (width : LongWidth) where
  s_addr : Long width
  d_addr : Long width
  zero : UInt8
  protocol : UInt8
  length : BitVec 16

/-- The bytes that a structure ends with to be a multiple of its longs. -/
def padding : LongWidth → Nat
  | .bits32 => 0
  | .bits64 => 4

/-- The padding holds the zeros that `memset` has put there. -/
def Pseudohdr.bytes {width : LongWidth} (order : Endian) (header : Pseudohdr width) : Bytes :=
  encode order (width.size / 8) header.s_addr.toNat ++
    encode order (width.size / 8) header.d_addr.toNat ++ [header.zero, header.protocol] ++
    order.bytes header.length ++ List.replicate (padding width) 0

def sizeofIphdr : Nat := 20

def sizeofTcphdr : Nat := 20

def sizeofPseudohdr (width : LongWidth) : Nat := 2 * (width.size / 8) + 4 + padding width

def tx_packet_size (width : LongWidth) : Nat := sizeofIphdr + sizeofTcphdr + sizeofPseudohdr width

section

variable {width : LongWidth} (order : Endian) (s_addr : BitVec 32) (target : Long width)
  (port : BitVec 32) (random : Long width)

/-- `d_addr.s_addr`, 32 bits of `target`. -/
def d_addr : BitVec 32 := target.setWidth 32

def pseudoh : Pseudohdr width where
  s_addr := s_addr.setWidth width.size
  d_addr := (d_addr target).setWidth width.size
  protocol := IPPROTO_TCP
  zero := 0
  length := htons order (BitVec.ofNat 16 sizeofTcphdr)

/-- The TCP header before its checksum; `random` is `random()%time(NULL)`. -/
def tcphUnchecked : Tcphdr where
  source := htons order LOCAL_PORT
  dest := htons order (port.setWidth 16)
  seq := (htons order (random.setWidth 16)).setWidth 32
  ack_seq := 0
  doff := 5
  res1 := 0
  res2 := 0
  fin := 0
  syn := 1
  rst := 0
  psh := 0
  ack := 0
  urg := 0
  window := htons order 1024#16
  check := 0
  urg_ptr := 0

def tcph : Tcphdr :=
  { tcphUnchecked order port random with
    check := cksum_in width order ((tcphUnchecked order port random).bytes order ++
      (pseudoh order s_addr target).bytes order) }

/-- `htons(tx_packet_size) - sizeof(struct pseudohdr)`, stored in 16 bits. -/
def tot_len (width : LongWidth) : BitVec 16 :=
  ((htons order (BitVec.ofNat 16 (tx_packet_size width))).setWidth width.size -
    BitVec.ofNat width.size (sizeofPseudohdr width)).setWidth 16

def iphUnchecked : Iphdr where
  ihl := 5
  version := 4
  tos := 0
  tot_len := tot_len order width
  id := 0
  frag_off := 0
  ttl := IPDEFTTL
  protocol := IPPROTO_TCP
  check := 0
  saddr := s_addr
  daddr := d_addr target

def iph : Iphdr :=
  { iphUnchecked order s_addr target with
    check := cksum_in width order ((iphUnchecked order s_addr target).bytes order) }

def tx_packet : Bytes :=
  (iph order s_addr target).bytes order ++ (tcph order s_addr target port random).bytes order ++
    (pseudoh order s_addr target).bytes order

def sent : Bytes :=
  (tx_packet order s_addr target port random).take (tx_packet_size width - sizeofPseudohdr width)

end

/-! What a receiver reads in the headers. -/

section Layout

variable (order : Endian)

@[simp] theorem Iphdr.length_bytes (header : Iphdr) : (header.bytes order).length = 20 := by
  cases order <;> rfl

@[simp] theorem Tcphdr.length_bytes (header : Tcphdr) : (header.bytes order).length = 20 := by
  cases order <;> rfl

@[simp] theorem Pseudohdr.length_bytes {width : LongWidth} (header : Pseudohdr width) :
    (header.bytes order).length = sizeofPseudohdr width := by
  cases width <;> cases order <;> rfl

theorem toNat_nibbles (upper lower : BitVec 4) :
    (⟨upper ++ lower⟩ : UInt8).toNat = 16 * upper.toNat + lower.toNat := by
  change (upper ++ lower).toNat = _
  rw [BitVec.toNat_append, ← Nat.shiftLeft_add_eq_or_of_lt lower.isLt, Nat.shiftLeft_eq]
  omega

variable (header : Iphdr) (rest : Bytes)

theorem version_bytes : Ipv4.version (header.bytes order ++ rest) = header.version.toNat := by
  have small := header.ihl.isLt
  change (⟨header.version ++ header.ihl⟩ : UInt8).toNat / 16 = _
  rw [toNat_nibbles]
  omega

theorem headerLength_bytes :
    Ipv4.headerLength (header.bytes order ++ rest) = header.ihl.toNat * 4 := by
  have small := header.ihl.isLt
  change (⟨header.version ++ header.ihl⟩ : UInt8).toNat % 16 * 4 = _
  rw [toNat_nibbles]
  omega

theorem totalLength_bytes :
    Ipv4.totalLength (header.bytes order ++ rest) = (htons order header.tot_len).toNat := by
  rw [← MemoryBytes.big_word_bytes]
  cases order <;> rfl

theorem protocol_bytes : Ipv4.protocol (header.bytes order ++ rest) = header.protocol := by
  cases order <;> rfl

theorem source_bytes :
    Ipv4.source (header.bytes order ++ rest) = encode order 4 header.saddr.toNat := by
  cases order <;> rfl

theorem destination_bytes :
    Ipv4.destination (header.bytes order ++ rest) = encode order 4 header.daddr.toNat := by
  cases order <;> rfl

theorem sourcePort_bytes (segment : Tcphdr) :
    Tcp.sourcePort (segment.bytes order) = (htons order segment.source).toNat := by
  rw [← MemoryBytes.big_word_bytes]
  cases order <;> rfl

theorem destinationPort_bytes (segment : Tcphdr) :
    Tcp.destinationPort (segment.bytes order) = (htons order segment.dest).toNat := by
  rw [← MemoryBytes.big_word_bytes]
  cases order <;> rfl

theorem controlBits_bytes (segment : Tcphdr) :
    Tcp.controlBits (segment.bytes order) =
      (segment.res2 ++ segment.urg ++ segment.ack ++ segment.psh ++ segment.rst ++ segment.syn ++
        segment.fin).toNat % 64 := by
  cases order <;> rfl

theorem Tcphdr.bytes_check (segment : Tcphdr) (check : BitVec 16) :
    { segment with check := check }.bytes order =
      (segment.bytes order).take 16 ++ order.bytes check ++ (segment.bytes order).drop 18 := by
  cases order <;> rfl

theorem Tcphdr.wordSum_check (segment : Tcphdr) (check : BitVec 16) :
    wordSum order ({ segment with check := check }.bytes order) =
      wordSum order ({ segment with check := 0 }.bytes order) + check.toNat := by
  have zero : order.bytes 0#16 = [0, 0] := by cases order <;> rfl
  have unfilled := Tcphdr.bytes_check order segment 0#16
  rw [zero, List.append_assoc] at unfilled
  rw [Tcphdr.bytes_check order segment check, Halfwords.wordSum_field order _ _ _ (by simp)]
  exact congrArg (wordSum order · + check.toNat) unfilled.symm

theorem Iphdr.bytes_check (check : BitVec 16) :
    { header with check := check }.bytes order =
      (header.bytes order).take 10 ++ order.bytes check ++ (header.bytes order).drop 12 := by
  cases order <;> rfl

end Layout

section

variable {width : LongWidth} (order : Endian) (s_addr : BitVec 32) (target : Long width)
  (port : BitVec 32) (random : Long width)

/-- The pseudo header is cut off again. -/
theorem sent_eq :
    sent order s_addr target port random = (iph order s_addr target).bytes order ++
      (tcph order s_addr target port random).bytes order := by
  have size : tx_packet_size width - sizeofPseudohdr width = 40 := by
    simp [tx_packet_size, sizeofIphdr, sizeofTcphdr]
  rw [sent, tx_packet, size, List.take_left' (by simp)]

theorem wordSum_long (address : BitVec 32) :
    wordSum order (encode order (width.size / 8) (address.setWidth width.size).toNat) =
      wordSum order (encode order 4 address.toNat) := by
  cases width with
  | bits32 => simp only [LongWidth.size, BitVec.setWidth_eq]
  | bits64 =>
      have small : address.toNat < 256 ^ 4 := address.isLt
      have value : (address.setWidth LongWidth.bits64.size).toNat = address.toNat := by
        rw [LongWidth.size, BitVec.toNat_setWidth]
        omega
      rw [value]
      exact MemoryBytes.wordSum_encode_add order 4 rfl rfl small

theorem even_long (value : Nat) : (encode order (width.size / 8) value).length % 2 = 0 := by
  rw [MemoryBytes.length_encode]
  cases width <;> rfl

theorem wordSum_pseudoh :
    wordSum order ((pseudoh order s_addr target).bytes order) =
      wordSum order (encode order 4 s_addr.toNat ++ encode order 4 (d_addr target).toNat ++
        [0, 6] ++ encode .big 2 sizeofTcphdr) := by
  have length : order.bytes (htons order (BitVec.ofNat 16 sizeofTcphdr)) =
      encode .big 2 sizeofTcphdr := by
    rw [MemoryBytes.bytes_htons]
    rfl
  have first := @even_long width order (s_addr.setWidth width.size).toNat
  have second := @even_long width order ((d_addr target).setWidth width.size).toNat
  simp only [Pseudohdr.bytes, pseudoh, length, IPPROTO_TCP]
  rw [Halfwords.wordSum_append, Halfwords.wordSum_append, Halfwords.wordSum_append,
    Halfwords.wordSum_append, wordSum_long, wordSum_long, Halfwords.wordSum_zeros,
    Halfwords.wordSum_append, Halfwords.wordSum_append, Halfwords.wordSum_append, Nat.add_zero]
  all_goals
    simp only [List.length_append, MemoryBytes.length_encode, List.length_cons,
      List.length_nil] at first second ⊢
      <;> omega

theorem payload_sent :
    Ipv4.payload (sent order s_addr target port random) =
      (tcph order s_addr target port random).bytes order := by
  rw [Ipv4.payload, sent_eq, headerLength_bytes]
  exact List.drop_left' (by simp; rfl)

/-- Whatever is sent, a receiver accepts its TCP checksum. -/
theorem probe_accepted (receiver : Endian) :
    OnesComplement.sum 65536 (words receiver
      (Tcp.pseudoHeader (sent order s_addr target port random) sizeofTcphdr ++
        Ipv4.payload (sent order s_addr target port random))) = 0xffff := by
  have payload := payload_sent order s_addr target port random
  have pseudo : Tcp.pseudoHeader (sent order s_addr target port random) sizeofTcphdr =
      encode order 4 s_addr.toNat ++ encode order 4 (d_addr target).toNat ++ [0, 6] ++
        encode .big 2 sizeofTcphdr := by
    rw [Tcp.pseudoHeader, sent_eq, source_bytes, destination_bytes]
    rfl
  have cancels := Checksum.cancelled width order
    ((tcphUnchecked order port random).bytes order ++ (pseudoh order s_addr target).bytes order)
  have even : (encode order 4 s_addr.toNat ++ encode order 4 (d_addr target).toNat ++ [0, 6] ++
      encode .big 2 sizeofTcphdr).length % 2 = 0 := by
    simp
  have sums : wordSum order ((tcph order s_addr target port random).bytes order) =
      wordSum order ((tcphUnchecked order port random).bytes order) +
        (tcph order s_addr target port random).check.toNat :=
    Tcphdr.wordSum_check order (tcphUnchecked order port random) _
  rw [Halfwords.wordSum_append order _ _ (by simp), wordSum_pseudoh] at cancels
  rw [Halfwords.sum_eq_last_iff receiver order, payload, pseudo,
    Halfwords.wordSum_append order _ _ even, sums]
  simp only [tcph]
  omega

theorem length_sent : (sent order s_addr target port random).length = 40 := by
  rw [sent_eq, List.length_append, Iphdr.length_bytes, Tcphdr.length_bytes]

theorem totalLength_sent :
    Ipv4.totalLength (sent order s_addr target port random) =
      (htons order (tot_len order width)).toNat := by
  rw [sent_eq, totalLength_bytes]
  rfl

theorem header_sent :
    Ipv4.header (sent order s_addr target port random) =
      (iph order s_addr target).bytes order := by
  rw [Ipv4.header, sent_eq, headerLength_bytes]
  exact List.take_left' (by simp; rfl)

theorem header_verifies : SumsToOnes ((iph order s_addr target).bytes order) := by
  have zero : order.bytes 0#16 = [0, 0] := by cases order <;> rfl
  have unchecked : (iphUnchecked order s_addr target).bytes order =
      ((iphUnchecked order s_addr target).bytes order).take 10 ++ 0 :: 0 ::
        ((iphUnchecked order s_addr target).bytes order).drop 12 := by
    have unfilled := Iphdr.bytes_check order (iphUnchecked order s_addr target) 0#16
    rw [zero, List.append_assoc] at unfilled
    exact unfilled
  have sums := Checksum.filled_sums width order .big
    (((iphUnchecked order s_addr target).bytes order).take 10)
    (((iphUnchecked order s_addr target).bytes order).drop 12) (by simp)
  rw [← unchecked] at sums
  rw [SumsToOnes, iph, Iphdr.bytes_check]
  exact sums

end

/-- The packet asks `port` of `target` for a connection. -/
structure Asks (target : Bytes) (port : Nat) (packet : Bytes) : Prop where
  version : Ipv4.version packet = 4
  headerLength : Ipv4.headerLength packet = 20
  totalLength : Ipv4.totalLength packet = packet.length
  protocol : Ipv4.protocol packet = 6
  verifies : SumsToOnes (Ipv4.header packet)
  source : Ipv4.source packet = LOCAL_IP
  sourcePort : Tcp.sourcePort (Ipv4.payload packet) = LOCAL_PORT.toNat
  destination : Ipv4.destination packet = target
  destinationPort : Tcp.destinationPort (Ipv4.payload packet) = port
  synAlone : Tcp.controlBits (Ipv4.payload packet) = 2

theorem encode_inet_addr (order : Endian) {address : Bytes} (four : address.length = 4) :
    encode order 4 (inet_addr order address).toNat = address :=
  ((MemoryBytes.ofNat_decode_eq_iff order four _).mp rfl).symm

theorem toNat_tot_len (order : Endian) (width : LongWidth) :
    (htons order (tot_len order width)).toNat = 40 ↔ order = .big := by
  cases order <;> cases width <;> decide

section

variable {width : LongWidth} (order : Endian) (target : Long width) (port : BitVec 32)
  (random : Long width)

theorem asks_of_totalLength (valid : port.toNat ≤ 65535)
    (length : Ipv4.totalLength (sent order (inet_addr order LOCAL_IP) target port random) = 40) :
    Asks (encode order 4 (d_addr target).toNat) port.toNat
      (sent order (inet_addr order LOCAL_IP) target port random) := by
  have payload := payload_sent order (inet_addr order LOCAL_IP) target port random
  constructor
  case version => rw [sent_eq, version_bytes]; rfl
  case headerLength => rw [sent_eq, headerLength_bytes]; rfl
  case totalLength => rw [length, length_sent]
  case protocol => rw [sent_eq, protocol_bytes]; rfl
  case verifies =>
      rw [header_sent]
      exact header_verifies order _ target
  case source =>
      rw [sent_eq, source_bytes]
      exact encode_inet_addr order rfl
  case sourcePort =>
      rw [payload, sourcePort_bytes, tcph, tcphUnchecked, MemoryBytes.htons_htons]
  case destination => rw [sent_eq, destination_bytes]; rfl
  case destinationPort =>
      rw [payload, destinationPort_bytes, tcph, tcphUnchecked, MemoryBytes.htons_htons,
        BitVec.toNat_setWidth]
      omega
  case synAlone =>
      rw [payload, controlBits_bytes]
      simp only [tcph, tcphUnchecked]
      decide

/-- What is sent asks for what was asked, if and only if the host stores its
integers in network order: 12 or 24 is subtracted from the length after it has
been converted. -/
theorem probe_asks_iff (valid : port.toNat ≤ 65535) :
    Asks (encode order 4 (d_addr target).toNat) port.toNat
      (sent order (inet_addr order LOCAL_IP) target port random) ↔ order = .big := by
  constructor
  · intro asks
    have total := asks.totalLength
    rw [totalLength_sent, length_sent] at total
    exact (toNat_tot_len order width).mp total
  · intro big
    apply asks_of_totalLength order target port random valid
    rw [totalLength_sent]
    exact (toNat_tot_len order width).mpr big

end

theorem probe_asks_http :
    Asks [10, 0, 0, 1] 80
      (@sent .bits32 .big (inet_addr .big LOCAL_IP) 0x0a000001#32 80#32 12345#32) :=
  (@probe_asks_iff .bits32 .big 0x0a000001#32 80#32 12345#32 (by decide)).mpr rfl

/-- On a little-endian host with longs of 64 bits: 59455 is announced and 40 are sent. -/
theorem probe_misannounced :
    let packet := @sent .bits64 .little (inet_addr .little LOCAL_IP) 0x0100000a#64 80#32 12345#64
    Ipv4.totalLength packet = 59455 ∧ packet.length = 40 ∧ ¬ Asks [10, 0, 0, 1] 80 packet := by
  have announced := @totalLength_sent .bits64 .little (inet_addr .little LOCAL_IP) 0x0100000a#64
    80#32 12345#64
  have length := @length_sent .bits64 .little (inet_addr .little LOCAL_IP) 0x0100000a#64
    80#32 12345#64
  refine ⟨announced, length, fun asks => ?_⟩
  have total := (announced.symm.trans asks.totalLength).trans length
  revert total
  decide

end NetworkTest.SynProbe
