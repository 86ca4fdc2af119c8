import NetworkTest.InCksum
import NetworkTest.Machine
import NetworkTest.Packets

/-!
The ping of fri/raw/myping.c. Each pass of the loop sends a request and waits a
second for any message from the target. The checksum of a request is taken over
a `struct icmp`, of which only the first 8 bytes are sent.
-/

namespace NetworkTest.PingRequests

open CBuffer (Bytes Memory overwrite)
open Halfwords (Endian words wordSum)
open InCksum (in_cksum rfc1071)
open Machine (Step exec)
open MemoryBytes (load16)
open Packets

def BUFSIZE : Nat := 4096

def sizeof_icmp : Nat := 28

def sizeof_icmphdr : Nat := 8

/-- The fields that `prn_icmp` prints. -/
structure Fields where
  id : BitVec 16
  sequence : BitVec 16
  code : UInt8
  type : UInt8
  deriving DecidableEq

/-- What is printed: `request` by `send_ping`, `reply` by `prn_rcvping`. -/
inductive Printed where
  | request (icmp : Fields)
  | reply (icmp_len : Int) (saddr : Bytes) (icmp : Fields)
  | requestTimeout
  deriving DecidableEq

/-- What a pass of the loop sends and prints. -/
structure Pass where
  packet : Bytes
  printed : List Printed
  deriving DecidableEq

/-- How the wait of a pass ends. -/
inductive Wait where
  | timeout
  | message (data : Bytes)
  | selectFails
  | recvFails
  deriving DecidableEq

inductive Pc where
  | pinging
  | exited
  deriving DecidableEq

structure Pinger where
  pc : Pc
  seqnum : BitVec 32
  recvbuf : Memory BUFSIZE
  sendbuf : Memory BUFSIZE
  notrecv : Nat

/-- The header of an echo request. -/
def icmphdr (order : Endian) (checksum id sequence : BitVec 16) : Bytes :=
  [ICMP_ECHO, 0] ++ order.bytes checksum ++ order.bytes id ++ order.bytes sequence

@[simp] theorem length_icmphdr (order : Endian) (checksum id sequence : BitVec 16) :
    (icmphdr order checksum id sequence).length = sizeof_icmphdr := by
  simp [icmphdr, sizeof_icmphdr]

theorem icmphdr_fits (order : Endian) (checksum id sequence : BitVec 16) :
    (icmphdr order checksum id sequence).length ≤ BUFSIZE := by
  rw [length_icmphdr]
  decide

section

variable (order : Endian)

def prn_icmp (byte : Nat → UInt8) (i : Nat) : Fields :=
  ⟨load16 order byte (i + 4), load16 order byte (i + 6), byte (i + 1), byte i⟩

/-- `sendbuf` with all but the checksum. -/
def filled (sendbuf : Memory BUFSIZE) (id sequence : BitVec 16) : Memory BUFSIZE :=
  (sendbuf.store (List.replicate sizeof_icmp 0) (by simp [sizeof_icmp, BUFSIZE])).store
    (icmphdr order 0 id sequence) (icmphdr_fits ..)

def send_ping (pid : BitVec 32) (pinger : Pinger) : Pinger × Pass :=
  let sequence := pinger.seqnum.setWidth 16
  let id := pid.setWidth 16
  let sendbuf := filled order pinger.sendbuf id sequence
  let checksum := in_cksum order (sendbuf.val.take sizeof_icmp)
  let sendbuf := sendbuf.store (icmphdr order checksum id sequence) (icmphdr_fits ..)
  ({ pinger with seqnum := pinger.seqnum + 1, sendbuf := sendbuf },
    ⟨sendbuf.val.take sizeof_icmphdr, [.request (prn_icmp order (byteAt sendbuf.val) 0)]⟩)

/-- The value returned, which `main` does not look at, and the line. -/
def prn_rcvping (ipdata : Memory BUFSIZE) (recvsize : Nat) : Int × List Printed :=
  let byte := byteAt ipdata.val
  let ip_headlen := (byte 0).toNat % 16 * 4
  let icmp_len := (recvsize : Int) - ip_headlen
  if byte ip_headlen ≠ ICMP_ECHOREPLY then (-1, [])
  else (0, [.reply icmp_len ((ipdata.val.drop 12).take 4) (prn_icmp order byte ip_headlen)])

def stored (recvbuf : Memory BUFSIZE) (data : Bytes) : Memory BUFSIZE :=
  recvbuf.store (data.take BUFSIZE) (List.length_take_le ..)

def step (pid : BitVec 32) : Step Pinger Wait Pass := fun pinger wait =>
  match pinger.pc with
  | .exited => none
  | .pinging =>
      let (pinger, pass) := send_ping order pid pinger
      match wait with
      -- `++notrecv == 3`
      | .timeout =>
          if pinger.notrecv + 1 = 3 then
            some ({ pinger with notrecv := 0 },
              [{ pass with printed := pass.printed ++ [.requestTimeout] }])
          else some ({ pinger with notrecv := pinger.notrecv + 1 }, [pass])
      | .message data =>
          -- `notrecv = 0` before `prn_rcvping`, whatever that returns
          let recvbuf := stored pinger.recvbuf data
          let (_, line) := prn_rcvping order recvbuf (data.take BUFSIZE).length
          some ({ pinger with recvbuf := recvbuf, notrecv := 0 },
            [{ pass with printed := pass.printed ++ line }])
      | .selectFails => some ({ pinger with pc := .exited }, [pass])
      | .recvFails => some ({ pinger with pc := .exited }, [pass])

end

def start : Pinger where
  pc := .pinging
  seqnum := 0
  recvbuf := .zeros _
  sendbuf := .zeros _
  notrecv := 0

/-- The fields of a message as this host reads them. -/
def idOf (order : Endian) (message : Bytes) : BitVec 16 := load16 order (byteAt message) 4

def sequenceOf (order : Endian) (message : Bytes) : BitVec 16 := load16 order (byteAt message) 6

/-- The request with this number. -/
structure IsRequest (order : Endian) (pid : BitVec 32) (number : Nat) (packet : Bytes) :
    Prop where
  length : packet.length = 8
  kind : Icmp.kind packet = 8
  code : Icmp.code packet = 0
  id : (idOf order packet).toNat = pid.toNat % 65536
  sequence : (sequenceOf order packet).toNat = number % 65536
  sums : SumsToOnes packet

section

variable {order : Endian} {pid : BitVec 32}

/-- The bytes that are not sent are zeros, whatever the buffer held before. -/
theorem take_filled (sendbuf : Memory BUFSIZE) (id sequence : BitVec 16) :
    (filled order sendbuf id sequence).val.take sizeof_icmp =
      icmphdr order 0 id sequence ++ List.replicate 20 0 := by
  have zeroed : (List.replicate sizeof_icmp 0 ++ sendbuf.val.drop sizeof_icmp).drop
      sizeof_icmphdr = List.replicate 20 0 ++ sendbuf.val.drop sizeof_icmp := by
    rw [List.drop_append_of_le_length (by decide)]
    rfl
  simp only [filled, Memory.store, overwrite, List.length_replicate, length_icmphdr]
  rw [zeroed, ← List.append_assoc]
  exact List.take_left' (by simp [sizeof_icmphdr, sizeof_icmp])

theorem packet_sent (pinger : Pinger) :
    (send_ping order pid pinger).2.packet = icmphdr order
      (rfc1071 order (icmphdr order 0 (pid.setWidth 16) (pinger.seqnum.setWidth 16) ++
        List.replicate 20 0)) (pid.setWidth 16) (pinger.seqnum.setWidth 16) := by
  have whole : in_cksum order (icmphdr order 0 (pid.setWidth 16) (pinger.seqnum.setWidth 16) ++
      List.replicate 20 0) = rfc1071 order (icmphdr order 0 (pid.setWidth 16)
        (pinger.seqnum.setWidth 16) ++ List.replicate 20 0) := by
    have bound := Halfwords.wordSum_le order (icmphdr order 0 (pid.setWidth 16)
      (pinger.seqnum.setWidth 16) ++ List.replicate 20 0)
    rw [List.length_append, length_icmphdr, List.length_replicate, sizeof_icmphdr] at bound
    have result := @InCksum.in_cksum_whole order (icmphdr order 0 (pid.setWidth 16)
      (pinger.seqnum.setWidth 16) ++ List.replicate 20 0) [] (by simp [sizeof_icmphdr]) (by simp)
      (by omega)
    rwa [List.append_nil] at result
  rw [send_ping]
  simp only [take_filled, whole, Memory.store]
  have front := CBuffer.overwrite_take (filled order pinger.sendbuf (pid.setWidth 16)
    (pinger.seqnum.setWidth 16)).val (icmphdr order (rfc1071 order (icmphdr order 0
      (pid.setWidth 16) (pinger.seqnum.setWidth 16) ++ List.replicate 20 0)) (pid.setWidth 16)
      (pinger.seqnum.setWidth 16))
  rwa [length_icmphdr] at front

/-- The words of the 8 bytes that are sent sum to all ones. -/
theorem icmphdr_sums (id sequence : BitVec 16) :
    SumsToOnes (icmphdr order (rfc1071 order (icmphdr order 0 id sequence ++
      List.replicate 20 0)) id sequence) := by
  have cancels := InCksum.cancelled order (icmphdr order 0 id sequence ++ List.replicate 20 0)
  have field : ∀ checksum, wordSum order (icmphdr order checksum id sequence) =
      wordSum order (icmphdr order 0 id sequence) + checksum.toNat := by
    intro checksum
    have value := fun checksum => Halfwords.wordSum_field order [ICMP_ECHO, 0]
      (order.bytes id ++ order.bytes sequence) checksum rfl
    have zero := value 0
    rw [icmphdr, icmphdr, List.append_assoc _ (order.bytes id), value,
      List.append_assoc _ (order.bytes id), zero]
    simp
  -- the type is not zero, so the words do not sum to the other zero
  have positive : 0 < wordSum order (icmphdr order 0 id sequence) := by
    have echo : 0 < order.word ICMP_ECHO 0 := by cases order <;> decide
    simp only [icmphdr, List.cons_append, List.nil_append, wordSum, words, List.sum_cons]
    omega
  rw [Halfwords.wordSum_append _ _ _ (by simp [sizeof_icmphdr]), Halfwords.wordSum_zeros,
    Nat.add_zero] at cancels
  rw [SumsToOnes, Halfwords.sum_eq_last_iff .big order, field]
  exact ⟨by omega, cancels⟩

theorem request_fields (checksum id sequence : BitVec 16) :
    idOf order (icmphdr order checksum id sequence) = id ∧
      sequenceOf order (icmphdr order checksum id sequence) = sequence := by
  rw [idOf, sequenceOf, MemoryBytes.load16_eq_iff, MemoryBytes.load16_eq_iff]
  cases order <;> exact ⟨rfl, rfl⟩

theorem request_sent {pinger : Pinger} {number : Nat}
    (counted : pinger.seqnum = BitVec.ofNat 32 number) :
    IsRequest order pid number (send_ping order pid pinger).2.packet := by
  rw [packet_sent, counted]
  constructor
  case length => exact length_icmphdr ..
  case kind => rfl
  case code => rfl
  case id => rw [(request_fields _ _ _).1, BitVec.toNat_setWidth]
  case sequence =>
      rw [(request_fields _ _ _).2, BitVec.toNat_setWidth, BitVec.toNat_ofNat]
      omega
  case sums => exact icmphdr_sums _ _

theorem step_packet {pinger next : Pinger} {wait : Wait} {made : List Pass}
    (taken : step order pid pinger wait = some (next, made)) :
    next.seqnum = pinger.seqnum + 1 ∧
      ∃ pass, made = [pass] ∧ pass.packet = (send_ping order pid pinger).2.packet := by
  simp only [step] at taken
  split at taken
  case h_1 => contradiction
  case h_2 =>
      split at taken
      case h_1 =>
          split at taken <;> cases taken <;> exact ⟨rfl, _, rfl, rfl⟩
      case h_2 => cases taken; exact ⟨rfl, _, rfl, rfl⟩
      case h_3 => cases taken; exact ⟨rfl, _, rfl, rfl⟩
      case h_4 => cases taken; exact ⟨rfl, _, rfl, rfl⟩

/-- The n-th datagram is the n-th request: an echo request with the identifier
of this process and the number modulo 2^16, whose 8 bytes sum to all ones. -/
theorem requests_valid (order : Endian) (pid : BitVec 32) (waits : List Wait) (pinger : Pinger)
    (passes : List Pass) (ran : exec (step order pid) start waits = some (pinger, passes)) :
    ∀ number pass, passes[number]? = some pass → IsRequest order pid number pass.packet := by
  refine (Machine.exec_numbered (fun number pinger => pinger.seqnum = BitVec.ofNat 32 number)
    (fun number pass => IsRequest order pid number pass.packet) ?_ rfl ran).2
  intro number pinger wait next made counted _ taken
  obtain ⟨seqnum, pass, rfl, packet⟩ := step_packet taken
  refine ⟨?_, pass, rfl, ?_⟩
  · rw [seqnum, counted, BitVec.ofNat_add]
    rfl
  · rw [packet]
    exact request_sent counted

end

def twoPasses : List Wait :=
  [.timeout, .message [0x45, 0, 0, 28, 0, 0, 0, 0, 64, 1, 0, 0, 10, 0, 0, 1, 10, 0, 0, 9,
    3, 1, 0, 0, 0, 0, 0, 0]]

theorem requests_valid_twoPasses :
    ∃ pinger passes, exec (step .little 70000#32) start twoPasses = some (pinger, passes) ∧
      passes.length = 2 ∧
      ∀ number pass, passes[number]? = some pass → IsRequest .little 70000#32 number pass.packet :=
  ⟨_, _, rfl, rfl, requests_valid .little 70000#32 twoPasses _ _ rfl⟩

end NetworkTest.PingRequests
