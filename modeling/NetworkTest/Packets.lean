import NetworkTest.MemoryBytes

/-!
Internet datagrams as the bytes on the wire: the header fields of RFC 791,
RFC 792 and RFC 793, read in network order, and what a receiver checks of the
checksums.
-/

namespace NetworkTest.Packets

open CBuffer (Bytes)
open Halfwords (Endian words)

def byteAt (bytes : Bytes) (i : Nat) : UInt8 := bytes.getD i 0

theorem drop_take_succ {bytes : Bytes} {i : Nat} (count : Nat) (inside : i < bytes.length) :
    (bytes.drop i).take (count + 1) = byteAt bytes i :: (bytes.drop (i + 1)).take count := by
  rw [List.drop_eq_getElem_cons inside, List.take_succ_cons, byteAt, List.getD_eq_getElem?_getD,
    List.getElem?_eq_getElem inside]
  rfl

theorem byteAt_store {size : Nat} (memory : CBuffer.Memory size) {data : Bytes} {i : Nat}
    (inside : i < size) (known : i < data.length) :
    byteAt (memory.store (data.take size) (List.length_take_le ..)).val i = byteAt data i := by
  rw [byteAt, CBuffer.Memory.store, CBuffer.overwrite_getD (by rw [List.length_take]; omega),
    byteAt, List.getD_eq_getElem?_getD, List.getD_eq_getElem?_getD,
    List.getElem?_take_of_lt inside]

def field (bytes : Bytes) (i : Nat) : Nat := Endian.big.word (byteAt bytes i) (byteAt bytes (i + 1))

/-- The 16-bit words sum to all ones. -/
def SumsToOnes (bytes : Bytes) : Prop := OnesComplement.sum 65536 (words .big bytes) = 0xffff

instance (bytes : Bytes) : Decidable (SumsToOnes bytes) := inferInstanceAs (Decidable (_ = _))

namespace Ipv4

variable (datagram : Bytes)

def version : Nat := (byteAt datagram 0).toNat / 16

def headerLength : Nat := (byteAt datagram 0).toNat % 16 * 4

def totalLength : Nat := field datagram 2

def timeToLive : UInt8 := byteAt datagram 8

def protocol : UInt8 := byteAt datagram 9

def source : Bytes := (datagram.drop 12).take 4

def destination : Bytes := (datagram.drop 16).take 4

def header : Bytes := datagram.take (headerLength datagram)

def payload : Bytes := datagram.drop (headerLength datagram)

theorem headerLength_le : headerLength datagram ≤ 60 := by
  rw [headerLength]
  omega

theorem byteAt_payload (i : Nat) :
    byteAt (payload datagram) i = byteAt datagram (headerLength datagram + i) := by
  rw [byteAt, byteAt, payload, List.getD_eq_getElem?_getD, List.getD_eq_getElem?_getD,
    List.getElem?_drop]

theorem source_eq (long : 20 ≤ datagram.length) :
    source datagram = [byteAt datagram 12, byteAt datagram 13, byteAt datagram 14,
      byteAt datagram 15] := by
  rw [source, drop_take_succ _ (by omega), drop_take_succ _ (by omega),
    drop_take_succ _ (by omega), drop_take_succ _ (by omega), List.take_zero]

section Loads

variable {datagram} {order : Endian} {byte : Nat → UInt8}

/-- A host that holds the header finds the source address in it. -/
theorem load_source_iff (long : 20 ≤ datagram.length)
    (same : ∀ k, k < 20 → byte k = byteAt datagram k) (address : BitVec 32) :
    MemoryBytes.load32 order byte 12 = address ↔
      source datagram = MemoryBytes.encode order 4 address.toNat := by
  rw [MemoryBytes.load32_eq_iff, source_eq datagram long, same 12 (by omega), same 13 (by omega),
    same 14 (by omega), same 15 (by omega)]

theorem load16_payload {i : Nat}
    (same : ∀ k, k < headerLength datagram + i + 2 → byte k = byteAt datagram k) :
    MemoryBytes.load16 order byte (headerLength datagram + i) =
      MemoryBytes.load16 order (byteAt (payload datagram)) i := by
  rw [MemoryBytes.load16, MemoryBytes.load16, same _ (by omega), same _ (by omega),
    byteAt_payload, byteAt_payload, Nat.add_assoc]

end Loads

end Ipv4

namespace Tcp

variable (segment : Bytes)

def sourcePort : Nat := field segment 0

def destinationPort : Nat := field segment 2

/-- URG, ACK, PSH, RST, SYN and FIN, in this order from bit 5 to bit 0. -/
def controlBits : Nat := (byteAt segment 13).toNat % 64

def ack : Bool := (byteAt segment 13).toBitVec.getLsbD 4

def rst : Bool := (byteAt segment 13).toBitVec.getLsbD 2

def syn : Bool := (byteAt segment 13).toBitVec.getLsbD 1

/-- The pseudo header: both addresses, a zero, the protocol, the length. -/
def pseudoHeader (datagram : Bytes) (length : Nat) : Bytes :=
  Ipv4.source datagram ++ Ipv4.destination datagram ++ [0, 6] ++
    MemoryBytes.encode .big 2 length

end Tcp

namespace Icmp

variable (message : Bytes)

def kind : UInt8 := byteAt message 0

def code : UInt8 := byteAt message 1

/-- The bytes of the identifier, which the sender chose. -/
def identifier : Bytes := (message.drop 4).take 2

def sequence : Bytes := (message.drop 6).take 2

def data : Bytes := message.drop 8

theorem byteAt_data (i : Nat) : byteAt (data message) i = byteAt message (8 + i) := by
  rw [byteAt, byteAt, data, List.getD_eq_getElem?_getD, List.getD_eq_getElem?_getD,
    List.getElem?_drop]

end Icmp

def IPPROTO_ICMP : UInt8 := 1

def ICMP_ECHOREPLY : UInt8 := 0

def ICMP_ECHO : UInt8 := 8

/-- A datagram with an ICMP message, as a raw socket delivers it. -/
structure IsIcmp (datagram : Bytes) : Prop where
  protocol : Ipv4.protocol datagram = IPPROTO_ICMP
  header : 20 ≤ Ipv4.headerLength datagram
  message : Ipv4.headerLength datagram + 8 ≤ datagram.length

instance (datagram : Bytes) : Decidable (IsIcmp datagram) :=
  decidable_of_iff (Ipv4.protocol datagram = IPPROTO_ICMP ∧ 20 ≤ Ipv4.headerLength datagram ∧
      Ipv4.headerLength datagram + 8 ≤ datagram.length)
    ⟨fun ⟨protocol, header, message⟩ => ⟨protocol, header, message⟩,
      fun ⟨protocol, header, message⟩ => ⟨protocol, header, message⟩⟩

theorem IsIcmp.identifier_eq {datagram : Bytes} (icmp : IsIcmp datagram) :
    Icmp.identifier (Ipv4.payload datagram) =
      [byteAt datagram (Ipv4.headerLength datagram + 4),
        byteAt datagram (Ipv4.headerLength datagram + 5)] := by
  have message := icmp.message
  have long : 8 ≤ (Ipv4.payload datagram).length := by
    rw [Ipv4.payload, List.length_drop]
    omega
  rw [Icmp.identifier, drop_take_succ _ (by omega), drop_take_succ _ (by omega), List.take_zero,
    Ipv4.byteAt_payload, Ipv4.byteAt_payload]

end NetworkTest.Packets
