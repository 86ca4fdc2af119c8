import NetworkTest.Machine
import NetworkTest.Packets
import NetworkTest.TimeOfDay

/-!
The ping of fri/raw/my_ping2.c: a SIGALRM handler sends the requests, at any
time, and `handlePing` takes from the raw socket whatever ICMP datagrams come
in.
-/

namespace NetworkTest.PingLoop

open CBuffer (Bytes Memory overwrite)
open Checksum (LongWidth Long cksum_in)
open Halfwords (Endian)
open Machine (Step exec)
open MemoryBytes (encode load16 load32)
open Packets
open TimeOfDay (Time Timeval tv_sub)

def rbufSize : Nat := 1500

def datalen : Nat := 56

/-- `timing data` has seen a reply, the datagram `data`, and asks for the time. -/
inductive Pc where
  | starting
  | looping
  | timing (data : Bytes)
  | returned
  | exited
  deriving DecidableEq

/-- A request as it was sent, and the time it carries. -/
structure Request (width : LongWidth) where
  sent : Time width
  packet : Bytes
  deriving DecidableEq

/-- `requests` are those sent so far, `heard` the datagrams received. -/
structure Pinger (width : LongWidth) where
  pc : Pc
  nsent : BitVec 32
  rbuf : Memory rbufSize
  len : Nat
  requests : List (Request width)
  heard : List Bytes

inductive Event (width : LongWidth) where
  /-- `sig_alrm` is called, by `handlePing` itself or as the handler. -/
  | alarm (now : Time width)
  | recvfrom (data : Bytes)
  | recvFails
  | gettimeofday (now : Time width)

def Event.delivered {width : LongWidth} : Event width → List Bytes
  | .recvfrom data => [data]
  | _ => []

def delivered {width : LongWidth} (events : List (Event width)) : List Bytes :=
  events.flatMap Event.delivered

/-- The line for a reply. -/
structure Line (width : LongWidth) where
  icmplen : Int
  icmp_seq : BitVec 16
  ttl : UInt8
  tvrecv : Timeval width
  rtt : Rat
  deriving DecidableEq

inductive Call (width : LongWidth) where
  | sendto (packet : Bytes)
  | line (line : Line width) (data : Bytes) (now : Time width)
  | readError
  deriving DecidableEq

section

variable {width : LongWidth} (order : Endian) (pid : BitVec 16) (s_addr : BitVec 32)

def echoRequest (icmp_cksum icmp_seq : BitVec 16) (icmp_data : Bytes) : Bytes :=
  [ICMP_ECHO, 0] ++ order.bytes icmp_cksum ++ order.bytes pid ++ order.bytes icmp_seq ++ icmp_data

/-- `icmp_data`: the time over 56 bytes of 0xa5. -/
def icmp_data (now : Time width) : Bytes :=
  overwrite (List.replicate datalen 0xa5) (now.timeval.bytes order)

/-- `send_msg`, which `sig_alrm` calls. -/
def send_msg (pinger : Pinger width) (now : Time width) : Pinger width × List (Call width) :=
  let icmp_seq := pinger.nsent.setWidth 16
  let icmp_cksum := cksum_in width order (echoRequest order pid 0 icmp_seq (icmp_data order now))
  let packet := echoRequest order pid icmp_cksum icmp_seq (icmp_data order now)
  ({ pinger with
      nsent := pinger.nsent + 1
      requests := pinger.requests ++ [⟨now, packet⟩] }, [.sendto packet])

def stored (rbuf : Memory rbufSize) (data : Bytes) : Memory rbufSize :=
  rbuf.store (data.take rbufSize) (List.length_take_le ..)

def hlen (rbuf : Memory rbufSize) : Nat := (byteAt rbuf.val 0).toNat % 16 * 4

/-- The loop behind `recvfrom`, up to the reply branch. -/
def received (pinger : Pinger width) (data : Bytes) : Pinger width :=
  let rbuf := stored pinger.rbuf data
  let byte := byteAt rbuf.val
  let pinger := { pinger with
    rbuf := rbuf, len := (data.take rbufSize).length, heard := pinger.heard ++ [data] }
  if byte 9 ≠ IPPROTO_ICMP then { pinger with pc := .returned }
  else if load32 order byte 12 = s_addr then
    if byte (hlen rbuf) = ICMP_ECHOREPLY then
      -- the `return` leaves `handlePing`, not only this turn of its loop
      if load16 order byte (hlen rbuf + 4) ≠ pid then { pinger with pc := .returned }
      else { pinger with pc := .timing data }
    else pinger
  else pinger

def line (pinger : Pinger width) (now : Time width) : Line width :=
  let byte := byteAt pinger.rbuf.val
  let tvsend := Timeval.load width order byte (hlen pinger.rbuf + 8)
  let tvrecv := tv_sub now.timeval tvsend
  { icmplen := pinger.len - hlen pinger.rbuf
    icmp_seq := load16 order byte (hlen pinger.rbuf + 6)
    ttl := byte 8
    tvrecv := tvrecv
    rtt := tvrecv.milliseconds }

def step : Step (Pinger width) (Event width) (Call width) := fun pinger event =>
  match event with
  | .alarm now =>
      match pinger.pc with
      | .starting =>
          let (pinger, made) := send_msg order pid pinger now
          some ({ pinger with pc := .looping }, made)
      | .looping => some (send_msg order pid pinger now)
      | .timing _ => some (send_msg order pid pinger now)
      | .returned => none
      | .exited => none
  | .recvfrom data =>
      match pinger.pc with
      | .looping => some (received order pid s_addr pinger data, [])
      | _ => none
  | .recvFails =>
      match pinger.pc with
      | .looping => some ({ pinger with pc := .exited }, [.readError])
      | _ => none
  | .gettimeofday now =>
      match pinger.pc with
      | .timing data =>
          some ({ pinger with pc := .looping }, [.line (line order pinger now) data now])
      | _ => none

end

inductive Turn {width : LongWidth} (order : Endian) (pid : BitVec 16) (s_addr : BitVec 32)
    (pinger : Pinger width) : Event width → Pinger width → List (Call width) → Prop where
  | started (now : Time width) (here : pinger.pc = .starting) :
      Turn order pid s_addr pinger (.alarm now)
        { (send_msg order pid pinger now).1 with pc := .looping }
        (send_msg order pid pinger now).2
  | alarmed (now : Time width)
      (running : pinger.pc = .looping ∨ ∃ data, pinger.pc = .timing data) :
      Turn order pid s_addr pinger (.alarm now) (send_msg order pid pinger now).1
        (send_msg order pid pinger now).2
  | received (data : Bytes) (here : pinger.pc = .looping) :
      Turn order pid s_addr pinger (.recvfrom data) (received order pid s_addr pinger data) []
  | failed (here : pinger.pc = .looping) :
      Turn order pid s_addr pinger .recvFails { pinger with pc := .exited } [.readError]
  | timed (data : Bytes) (now : Time width) (here : pinger.pc = .timing data) :
      Turn order pid s_addr pinger (.gettimeofday now) { pinger with pc := .looping }
        [.line (line order pinger now) data now]

theorem turn_of_step {width : LongWidth} {order : Endian} {pid : BitVec 16} {s_addr : BitVec 32}
    {pinger next : Pinger width} {event : Event width} {made : List (Call width)}
    (taken : step order pid s_addr pinger event = some (next, made)) :
    Turn order pid s_addr pinger event next made := by
  cases event with
  | alarm now =>
      simp only [step] at taken
      split at taken
      case h_1 here =>
          cases taken
          exact .started now here
      case h_2 here =>
          cases taken
          exact .alarmed now (.inl here)
      case h_3 data here =>
          cases taken
          exact .alarmed now (.inr ⟨data, here⟩)
      case h_4 => contradiction
      case h_5 => contradiction
  | recvfrom data =>
      simp only [step] at taken
      split at taken
      case h_1 here =>
          cases taken
          exact .received data here
      case h_2 => contradiction
  | recvFails =>
      simp only [step] at taken
      split at taken
      case h_1 here =>
          cases taken
          exact .failed here
      case h_2 => contradiction
  | gettimeofday now =>
      simp only [step] at taken
      split at taken
      case h_1 data here =>
          cases taken
          exact .timed data now here
      case h_2 => contradiction

def start (width : LongWidth) (rbuf : Memory rbufSize) : Pinger width where
  pc := .starting
  nsent := 0
  rbuf := rbuf
  len := 0
  requests := []
  heard := []

/-! Which datagrams are replies, and whose. -/

def Reply (address data : Bytes) : Prop :=
  Ipv4.source data = address ∧ Icmp.kind (Ipv4.payload data) = ICMP_ECHOREPLY

instance (address data : Bytes) : Decidable (Reply address data) :=
  inferInstanceAs (Decidable (_ ∧ _))

/-- One with the identifier `id`. -/
def Own (address id data : Bytes) : Prop :=
  Reply address data ∧ Icmp.identifier (Ipv4.payload data) = id

instance (address id data : Bytes) : Decidable (Own address id data) :=
  inferInstanceAs (Decidable (_ ∧ _))

def Foreign (address id data : Bytes) : Prop :=
  Reply address data ∧ Icmp.identifier (Ipv4.payload data) ≠ id

instance (address id data : Bytes) : Decidable (Foreign address id data) :=
  inferInstanceAs (Decidable (_ ∧ _))

section Reading

variable {width : LongWidth} {order : Endian} {data : Bytes}

theorem received_icmp {pid : BitVec 16} {s_addr : BitVec 32} (pinger : Pinger width)
    (icmp : IsIcmp data) :
    received order pid s_addr pinger data =
      { pinger with
        rbuf := stored pinger.rbuf data
        len := (data.take rbufSize).length
        heard := pinger.heard ++ [data]
        pc :=
          if Foreign (encode order 4 s_addr.toNat) (order.bytes pid) data then .returned
          else if Own (encode order 4 s_addr.toNat) (order.bytes pid) data then .timing data
          else pinger.pc } := by
  have message := icmp.message
  have header := icmp.header
  have short := Ipv4.headerLength_le data
  have known : ∀ i, i < Ipv4.headerLength data + 8 →
      byteAt (stored pinger.rbuf data).val i = byteAt data i :=
    fun i before => byteAt_store pinger.rbuf (by rw [rbufSize]; omega) (by omega)
  have protocol : byteAt (stored pinger.rbuf data).val 9 = IPPROTO_ICMP := by
    rw [known 9 (by omega)]
    exact icmp.protocol
  have length : hlen (stored pinger.rbuf data) = Ipv4.headerLength data := by
    rw [hlen, known 0 (by omega), Ipv4.headerLength]
  have saddr : load32 order (byteAt (stored pinger.rbuf data).val) 12 = s_addr ↔
      Ipv4.source data = encode order 4 s_addr.toNat :=
    Ipv4.load_source_iff (by omega) (fun k before => known k (by omega)) s_addr
  have kind : byteAt (stored pinger.rbuf data).val (Ipv4.headerLength data) =
      Icmp.kind (Ipv4.payload data) := by
    rw [known _ (by omega), Icmp.kind, Ipv4.byteAt_payload]
    rfl
  have id : load16 order (byteAt (stored pinger.rbuf data).val) (Ipv4.headerLength data + 4) = pid ↔
      Icmp.identifier (Ipv4.payload data) = order.bytes pid := by
    rw [MemoryBytes.load16_eq_iff, icmp.identifier_eq, known _ (by omega), known _ (by omega)]
  simp only [received, protocol, length, kind, ne_eq, not_true_eq_false, if_false, id, saddr,
    Foreign, Own, Reply]
  by_cases source : Ipv4.source data = encode order 4 s_addr.toNat
  · by_cases reply : Icmp.kind (Ipv4.payload data) = ICMP_ECHOREPLY
    · by_cases own : Icmp.identifier (Ipv4.payload data) = order.bytes pid
      · simp [source, reply, own]
      · simp [source, reply, own]
    · simp [source, reply]
  · simp [source]

end Reading

/-! The lines are those of the own replies, in order. -/

/-- What a line shows of a reply, its time apart. -/
def shown (order : Endian) (data : Bytes) : Int × BitVec 16 × UInt8 :=
  ((data.take rbufSize).length - Ipv4.headerLength data,
    load16 order (byteAt (Ipv4.payload data)) 6, Ipv4.timeToLive data)

section

variable {width : LongWidth} {order : Endian} {pid : BitVec 16} {s_addr : BitVec 32}

def printedOf : Call width → List (Int × BitVec 16 × UInt8)
  | .line line _ _ => [(line.icmplen, line.icmp_seq, line.ttl)]
  | _ => []

def printed (calls : List (Call width)) : List (Int × BitVec 16 × UInt8) := calls.flatMap printedOf

/-- The reply that is about to be printed. -/
def pending (order : Endian) (pinger : Pinger width) : List (Int × BitVec 16 × UInt8) :=
  match pinger.pc with
  | .timing data => [shown order data]
  | _ => []

structure Holds (pinger : Pinger width) (data : Bytes) : Prop where
  icmp : IsIcmp data
  bytes : ∀ i, i < rbufSize → i < data.length → byteAt pinger.rbuf.val i = byteAt data i
  length : pinger.len = (data.take rbufSize).length

structure LoopInv (order : Endian) (pid : BitVec 16) (s_addr : BitVec 32)
    (calls : List (Call width)) (pinger : Pinger width) : Prop where
  printed : printed calls ++ pending order pinger = (pinger.heard.filter
    (Own (encode order 4 s_addr.toNat) (order.bytes pid) ·)).map (shown order)
  returned : pinger.pc = .returned ↔
    ∃ data ∈ pinger.heard, Foreign (encode order 4 s_addr.toNat) (order.bytes pid) data
  timing : ∀ data, pinger.pc = .timing data → Holds pinger data

theorem hlen_holds {pinger : Pinger width} {data : Bytes} (holds : Holds pinger data) :
    hlen pinger.rbuf = Ipv4.headerLength data := by
  have message := holds.icmp.message
  rw [hlen, holds.bytes 0 (by decide) (by omega), Ipv4.headerLength]

theorem line_shown {pinger : Pinger width} {data : Bytes} (holds : Holds pinger data)
    (now : Time width) :
    printedOf (Call.line (line order pinger now) data now) = [shown order data] := by
  have message := holds.icmp.message
  have header := holds.icmp.header
  have short := Ipv4.headerLength_le data
  have known : ∀ i, i < Ipv4.headerLength data + 8 →
      byteAt pinger.rbuf.val i = byteAt data i :=
    fun i before => holds.bytes i (by rw [rbufSize]; omega) (by omega)
  rw [printedOf, shown, line, hlen_holds holds, holds.length, known 8 (by omega),
    Ipv4.load16_payload fun k before => known k (by omega)]
  rfl

theorem loop_start (rbuf : Memory rbufSize) :
    LoopInv order pid s_addr [] (start width rbuf) := by
  constructor <;> simp [start, printed, pending]

theorem printed_append (calls made : List (Call width)) :
    printed (calls ++ made) = printed calls ++ printed made := List.flatMap_append

section Steps

variable {calls made : List (Call width)} {pinger next : Pinger width}

theorem loop_keeps (inv : LoopInv order pid s_addr calls pinger) (silent : printed made = [])
    (heard : next.heard = pinger.heard) (rbuf : next.rbuf = pinger.rbuf)
    (len : next.len = pinger.len)
    (pc : next.pc = pinger.pc ∨ (pending order pinger = [] ∧ pinger.pc ≠ .returned ∧
      (next.pc = .looping ∨ next.pc = .exited))) :
    LoopInv order pid s_addr (calls ++ made) next := by
  have waiting : pending order next = pending order pinger := by
    rcases pc with same | ⟨none, _, looping | exited⟩
    · rw [pending, same, pending]
    · rw [none, pending, looping]
    · rw [none, pending, exited]
  have returned : next.pc = .returned ↔ pinger.pc = .returned := by
    rcases pc with same | ⟨_, before, looping | exited⟩
    · rw [same]
    · simp [before, looping]
    · simp [before, exited]
  constructor
  case printed => rw [printed_append, silent, List.append_nil, waiting, heard, inv.printed]
  case returned => rw [returned, heard, inv.returned]
  case timing =>
      intro data here
      rcases pc with same | ⟨_, _, looping | exited⟩
      · have holds := inv.timing data (same ▸ here)
        exact ⟨holds.icmp, rbuf ▸ holds.bytes, len ▸ holds.length⟩
      · rw [looping] at here
        contradiction
      · rw [exited] at here
        contradiction

theorem loop_received {data : Bytes} (inv : LoopInv order pid s_addr calls pinger)
    (here : pinger.pc = .looping) (icmp : IsIcmp data) :
    LoopInv order pid s_addr calls (received order pid s_addr pinger data) := by
  have before := inv.printed
  have none : ¬ ∃ data ∈ pinger.heard,
      Foreign (encode order 4 s_addr.toNat) (order.bytes pid) data := by
    rw [← inv.returned, here]
    nofun
  rw [pending, here, List.append_nil] at before
  rw [received_icmp pinger icmp]
  by_cases foreign : Foreign (encode order 4 s_addr.toNat) (order.bytes pid) data
  · -- the loop ends here, with nothing left to print
    have other : ¬ Own (encode order 4 s_addr.toNat) (order.bytes pid) data :=
      fun own => foreign.2 own.2
    rw [if_pos foreign]
    constructor
    case printed => simp [pending, before, List.filter_append, other]
    case returned => simp [foreign]
    case timing => nofun
  · rw [if_neg foreign]
    by_cases own : Own (encode order 4 s_addr.toNat) (order.bytes pid) data
    · rw [if_pos own]
      constructor
      case printed => simp [pending, before, List.filter_append, own]
      case returned => simp [foreign, none]
      case timing =>
          rintro _ ⟨⟩
          exact ⟨icmp, fun _ inside known => byteAt_store pinger.rbuf inside known, rfl⟩
    · rw [if_neg own, here]
      constructor
      case printed => simp [pending, before, List.filter_append, own]
      case returned => simp [foreign, none]
      case timing => nofun

theorem loop_printed {data : Bytes} (inv : LoopInv order pid s_addr calls pinger)
    (here : pinger.pc = .timing data) (now : Time width) :
    LoopInv order pid s_addr (calls ++ [.line (line order pinger now) data now])
      { pinger with pc := .looping } := by
  have before := inv.printed
  have none := inv.returned
  rw [pending, here] at before
  rw [here] at none
  constructor
  case printed =>
      rw [printed_append, printed, printed, List.flatMap_singleton,
        line_shown (inv.timing data here), pending, List.append_nil]
      exact before
  case returned => simpa using none
  case timing => nofun

end Steps

theorem loop_turn {calls made : List (Call width)} {pinger next : Pinger width}
    {event : Event width} (inv : LoopInv order pid s_addr calls pinger)
    (icmp : ∀ data ∈ event.delivered, IsIcmp data)
    (turn : Turn order pid s_addr pinger event next made) :
    LoopInv order pid s_addr (calls ++ made) next := by
  cases turn with
  | started now here =>
      exact loop_keeps inv rfl rfl rfl rfl
        (.inr ⟨by rw [pending, here], by simp [here], .inl rfl⟩)
  | alarmed now running => exact loop_keeps inv rfl rfl rfl rfl (.inl rfl)
  | received data here =>
      rw [List.append_nil]
      exact loop_received inv here (icmp data (List.mem_singleton_self data))
  | failed here =>
      exact loop_keeps inv rfl rfl rfl rfl
        (.inr ⟨by rw [pending, here], by simp [here], .inr rfl⟩)
  | timed data now here => exact loop_printed inv here now

theorem received_heard (pinger : Pinger width) (data : Bytes) :
    (received order pid s_addr pinger data).heard = pinger.heard ++ [data] := by
  simp only [received]
  split_ifs <;> rfl

theorem heard_delivered {pinger last : Pinger width} {events : List (Event width)}
    {calls : List (Call width)}
    (ran : exec (step order pid s_addr) pinger events = some (last, calls)) :
    last.heard = pinger.heard ++ delivered events := by
  refine @Machine.exec_records _ _ _ (step order pid s_addr) _ (·.heard) Event.delivered ?_
    _ _ _ _ ran
  intro pinger event next made taken
  cases turn_of_step taken with
  | started now here => exact (List.append_nil _).symm
  | alarmed now running => exact (List.append_nil _).symm
  | received data here => exact received_heard pinger data
  | failed here => exact (List.append_nil _).symm
  | timed data now here => exact (List.append_nil _).symm

/-- The lines printed are those of the own replies in the order of their
arrival, and the loop goes on, exactly as long as no reply from the target to
another process is delivered. -/
theorem replies_printed_iff (order : Endian) (pid : BitVec 16) (s_addr : BitVec 32)
    (rbuf : Memory rbufSize) (events : List (Event width)) (pinger : Pinger width)
    (calls : List (Call width)) (icmp : ∀ data ∈ delivered events, IsIcmp data)
    (ran : exec (step order pid s_addr) (start width rbuf) events = some (pinger, calls)) :
    (pinger.pc ≠ .returned ∧ printed calls ++ pending order pinger = ((delivered events).filter
        (Own (encode order 4 s_addr.toNat) (order.bytes pid) ·)).map (shown order)) ↔
      ∀ data ∈ delivered events,
        ¬ Foreign (encode order 4 s_addr.toNat) (order.bytes pid) data := by
  have heard : pinger.heard = delivered events := by
    simpa [start] using heard_delivered ran
  have inv : LoopInv order pid s_addr calls pinger :=
    Machine.exec_invariant_forall (LoopInv order pid s_addr)
      (fun _ _ _ _ _ inv own taken => loop_turn inv own (turn_of_step taken)) (loop_start rbuf)
      (fun event member data inside => icmp data (List.mem_flatMap.mpr ⟨event, member, inside⟩))
      ran
  have returned := inv.returned
  have lines := inv.printed
  rw [heard] at returned lines
  rw [and_iff_left lines, ne_eq, returned]
  push Not
  rfl

end

def messageFrom (address : Bytes) (kind : UInt8) (id sequence : Bytes) : Bytes :=
  [0x45, 0, 0, 28, 0, 0, 0, 0, 64, 1, 0, 0] ++ address ++ [10, 0, 0, 9] ++
    [kind, 0, 0, 0] ++ id ++ sequence

def noon : Time .bits64 := ⟨43200, 0, by decide, by decide⟩

/-- Process 0x1234 pings 10.0.0.1: the reply of another host, a message of another
type, and the own reply. -/
def ownReply : List (Event .bits64) :=
  [.alarm noon, .recvfrom (messageFrom [10, 0, 0, 2] 0 [0x78, 0x56] [0, 0]),
    .recvfrom (messageFrom [10, 0, 0, 1] 3 [0x78, 0x56] [0, 0]),
    .recvfrom (messageFrom [10, 0, 0, 1] 0 [0x34, 0x12] [0, 0]), .gettimeofday noon]

theorem replies_printed_own :
    ∃ pinger calls, exec (step .little 0x1234#16 0x0100000a#32)
        (start .bits64 (.zeros _)) ownReply = some (pinger, calls) ∧
      printed calls = [(8, 0, 64)] ∧ pinger.pc ≠ .returned ∧
      printed calls ++ pending .little pinger = ((delivered ownReply).filter
        (Own [10, 0, 0, 1] [0x34, 0x12] ·)).map (shown .little) :=
  ⟨_, _, rfl, by decide, (replies_printed_iff .little 0x1234#16 0x0100000a#32 (.zeros _) ownReply
    _ _ (by decide) rfl).mpr (by decide)⟩

/-- Another process pings 10.0.0.1 as well, and its reply comes first: nothing is
printed, and the own reply can no longer be received. -/
theorem foreign_reply_returns :
    ∃ pinger calls, exec (step .little 0x1234#16 0x0100000a#32) (start .bits64 (.zeros _))
        [.alarm noon, .recvfrom (messageFrom [10, 0, 0, 1] 0 [0x78, 0x56] [0, 0])] =
          some (pinger, calls) ∧
      IsIcmp (messageFrom [10, 0, 0, 1] 0 [0x78, 0x56] [0, 0]) ∧ pinger.pc = .returned ∧
      step .little 0x1234#16 0x0100000a#32 pinger
        (.recvfrom (messageFrom [10, 0, 0, 1] 0 [0x34, 0x12] [0, 0])) = none :=
  ⟨_, _, rfl, by decide, rfl, rfl⟩

end NetworkTest.PingLoop
