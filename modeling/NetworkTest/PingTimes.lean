import NetworkTest.PingLoop

/-!
The round-trip times that fri/raw/my_ping2.c prints. The requests carry the
time, so that their replies may come in any order, twice or not at all.
-/

namespace NetworkTest.PingTimes

open CBuffer (Bytes Memory)
open Checksum (LongWidth)
open Halfwords (Endian)
open Machine (exec Along)
open MemoryBytes (encode)
open Packets
open PingLoop
open TimeOfDay (Time Timeval tv_sub)

section

variable {width : LongWidth}

/-- `data` brings back what `request` carries. -/
def Echoes (request : Request width) (data : Bytes) : Prop :=
  Icmp.data (Ipv4.payload data) = Icmp.data request.packet

instance (request : Request width) (data : Bytes) : Decidable (Echoes request data) :=
  inferInstanceAs (Decidable (_ = _))

/-- The datagrams are ICMP messages, and the target replies to requests only,
with their data. -/
def Honest (address id : Bytes) (pinger : Pinger width) : Event width → Prop
  | .recvfrom data => IsIcmp data ∧
      (Own address id data → ∃ request ∈ pinger.requests, Echoes request data)
  | _ => True

instance (address id : Bytes) (pinger : Pinger width) :
    (event : Event width) → Decidable (Honest address id pinger event)
  | .recvfrom data => inferInstanceAs (Decidable (IsIcmp data ∧
      (Own address id data → ∃ request ∈ pinger.requests, Echoes request data)))
  | .alarm _ => isTrue trivial
  | .recvFails => isTrue trivial
  | .gettimeofday _ => isTrue trivial

/-- The line shows the time since `request`. -/
structure Shows (line : Line width) (now : Time width) (request : Request width) : Prop where
  low : 0 ≤ line.tvrecv.tv_usec.toInt
  high : line.tvrecv.tv_usec.toInt < 1000000
  rtt : line.rtt = now.milliseconds - request.sent.milliseconds

/-- The line is about a request, and shows the time since that one. -/
def Timed (requests : List (Request width)) : Call width → Prop
  | .line line data now =>
      (∃ request ∈ requests, Echoes request data) ∧
        ∀ request ∈ requests, Echoes request data → Shows line now request
  | _ => True

/-! The time a reply brings back. -/

variable {order : Endian} {pid : BitVec 16} {s_addr : BitVec 32}

theorem length_timeval (order : Endian) (value : Timeval width) :
    (value.bytes order).length ≤ datalen := by
  rw [Timeval.bytes, List.length_append, MemoryBytes.length_encode, MemoryBytes.length_encode]
  cases width <;> decide

theorem length_icmp_data (order : Endian) (now : Time width) :
    (icmp_data order now).length = datalen := by
  have short := length_timeval order now.timeval
  rw [icmp_data, CBuffer.overwrite, List.length_append, List.length_drop, List.length_replicate]
  omega

theorem data_echoRequest (icmp_cksum icmp_seq : BitVec 16) (data : Bytes) :
    Icmp.data (echoRequest order pid icmp_cksum icmp_seq data) = data := by
  rw [Icmp.data, echoRequest]
  exact List.drop_left' (by simp)

theorem byteAt_icmp_data (order : Endian) (now : Time width) {k : Nat}
    (inside : k < (now.timeval.bytes order).length) :
    byteAt (icmp_data order now) k = (now.timeval.bytes order).getD k 0 := by
  rw [byteAt, icmp_data, CBuffer.overwrite_getD inside]

theorem load_icmp_data (now : Time width) {byte : Nat → UInt8} {i : Nat}
    (same : ∀ k, k < datalen → byte (i + k) = byteAt (icmp_data order now) k) :
    Timeval.load width order byte i = now.timeval := by
  apply TimeOfDay.load_bytes
  intro k inside
  have short := length_timeval order now.timeval
  rw [same k (by omega), byteAt_icmp_data order now inside]

theorem timeval_eq_of_data {first second : Time width}
    (same : icmp_data order first = icmp_data order second) : first.timeval = second.timeval := by
  rw [← @load_icmp_data width order first (byteAt (icmp_data order first)) 0 (by simp),
    ← @load_icmp_data width order second (byteAt (icmp_data order first)) 0 (by simp [same])]

theorem line_shows {pinger : Pinger width} {data : Bytes} {request : Request width}
    (holds : Holds pinger data) (echoes : Echoes request data)
    (packet : Icmp.data request.packet = icmp_data order request.sent) (now : Time width) :
    Shows (line order pinger now) now request := by
  have brought : Icmp.data (Ipv4.payload data) = icmp_data order request.sent := echoes.trans packet
  have long : Ipv4.headerLength data + 8 + datalen ≤ data.length := by
    have message := holds.icmp.message
    have length := congrArg List.length brought
    rw [Icmp.data, Ipv4.payload, List.length_drop, List.length_drop, length_icmp_data] at length
    omega
  have short := Ipv4.headerLength_le data
  have tvsend : Timeval.load width order (byteAt pinger.rbuf.val) (hlen pinger.rbuf + 8) =
      request.sent.timeval := by
    apply load_icmp_data
    intro k inside
    rw [hlen_holds holds, holds.bytes _ (by rw [rbufSize]; rw [datalen] at inside; omega)
      (by omega), ← brought, Icmp.byteAt_data, Ipv4.byteAt_payload, Nat.add_assoc]
  obtain ⟨low, high, exact⟩ := TimeOfDay.tv_sub_exact now request.sent
  constructor
  case low => rwa [line, tvsend]
  case high => rwa [line, tvsend]
  case rtt => rwa [line, tvsend]

/-! Every line printed so far is right. -/

/-- The line shows the time since a request that it is about. -/
def Shown (requests : List (Request width)) : Call width → Prop
  | .line line data now => ∃ request ∈ requests, Echoes request data ∧ Shows line now request
  | _ => True

theorem shown_later {requests : List (Request width)} (later : List (Request width))
    {call : Call width} (shown : Shown requests call) : Shown (requests ++ later) call := by
  cases call with
  | line line data now =>
      obtain ⟨request, member, right⟩ := shown
      exact ⟨request, List.mem_append_left _ member, right⟩
  | sendto packet => trivial
  | readError => trivial

structure TimesInv (order : Endian) (calls : List (Call width)) (pinger : Pinger width) :
    Prop where
  packets : ∀ request ∈ pinger.requests, Icmp.data request.packet = icmp_data order request.sent
  timing : ∀ data, pinger.pc = .timing data →
    Holds pinger data ∧ ∃ request ∈ pinger.requests, Echoes request data
  lines : ∀ call ∈ calls, Shown pinger.requests call

theorem times_start (order : Endian) (rbuf : Memory rbufSize) :
    TimesInv order [] (start width rbuf) := by
  constructor <;> simp [start]

section Steps

variable {calls made : List (Call width)} {pinger next : Pinger width}

theorem times_sent (inv : TimesInv order calls pinger) (now : Time width) :
    TimesInv order (calls ++ (send_msg order pid pinger now).2)
      (send_msg order pid pinger now).1 := by
  constructor
  case packets =>
      intro request member
      rcases List.mem_append.mp member with old | new
      · exact inv.packets request old
      · rw [List.mem_singleton.mp new, data_echoRequest]
  case timing =>
      intro data here
      obtain ⟨holds, request, member, echoes⟩ := inv.timing data here
      exact ⟨⟨holds.icmp, holds.bytes, holds.length⟩, request,
        List.mem_append_left _ member, echoes⟩
  case lines =>
      refine List.forall_mem_append.mpr
        ⟨fun call member => shown_later _ (inv.lines call member), ?_⟩
      simp [send_msg, Shown]

theorem times_keeps (inv : TimesInv order calls pinger) (requests : next.requests = pinger.requests)
    (timing : ∀ data, next.pc ≠ .timing data) (silent : ∀ call ∈ made, Shown next.requests call) :
    TimesInv order (calls ++ made) next := by
  constructor
  case packets => exact requests ▸ inv.packets
  case timing => exact fun data here => absurd here (timing data)
  case lines => exact List.forall_mem_append.mpr ⟨requests ▸ inv.lines, silent⟩

theorem times_received {data : Bytes} (inv : TimesInv order calls pinger)
    (here : pinger.pc = .looping) (icmp : IsIcmp data)
    (own : Own (encode order 4 s_addr.toNat) (order.bytes pid) data →
      ∃ request ∈ pinger.requests, Echoes request data) :
    TimesInv order (calls ++ []) (received order pid s_addr pinger data) := by
  rw [received_icmp pinger icmp]
  split
  case isTrue => exact times_keeps inv rfl (by simp) (by simp)
  case isFalse =>
      split
      case isTrue reply =>
          refine ⟨inv.packets, ?_, by simpa using inv.lines⟩
          rintro _ ⟨⟩
          exact ⟨⟨icmp, fun _ inside known => byteAt_store pinger.rbuf inside known, rfl⟩,
            own reply⟩
      case isFalse => exact times_keeps inv rfl (by simp [here]) (by simp)

theorem times_turn {event : Event width} (inv : TimesInv order calls pinger)
    (honest : Honest (encode order 4 s_addr.toNat) (order.bytes pid) pinger event)
    (turn : Turn order pid s_addr pinger event next made) :
    TimesInv order (calls ++ made) next := by
  cases turn with
  | started now here =>
      have sent := @times_sent width order pid _ _ inv now
      exact ⟨sent.packets, by simp, sent.lines⟩
  -- also while a reply waits for its time: `rbuf` is not touched
  | alarmed now running => exact times_sent inv now
  | received data here => exact times_received inv here honest.1 honest.2
  | failed here => exact times_keeps inv rfl (by simp) (by simp [Shown])
  | timed data now here =>
      obtain ⟨holds, request, member, echoes⟩ := inv.timing data here
      refine times_keeps inv rfl (by simp) ?_
      rintro _ (_ | ⟨_, ⟨⟩⟩)
      exact ⟨request, member, echoes, line_shows holds echoes (inv.packets request member) now⟩

end Steps

theorem timed_of_shown {calls : List (Call width)} {pinger : Pinger width}
    (inv : TimesInv order calls pinger) {call : Call width} (shown : Shown pinger.requests call) :
    Timed pinger.requests call := by
  cases call with
  | line line data now =>
      obtain ⟨request, member, echoes, low, high, rtt⟩ := shown
      refine ⟨⟨request, member, echoes⟩, ?_⟩
      -- a request sent later may carry the same time, but then it was sent at it
      intro other memberOther echoesOther
      have same : request.sent.timeval = other.sent.timeval := by
        apply timeval_eq_of_data
        rw [← inv.packets request member, ← inv.packets other memberOther]
        exact echoes.symm.trans echoesOther
      refine ⟨low, high, ?_⟩
      rw [rtt, ← TimeOfDay.milliseconds_timeval request.sent, same, TimeOfDay.milliseconds_timeval]
  | sendto packet => trivial
  | readError => trivial

/-- Each line shows the time between the sending of the request that its reply
echoes and the receipt, exactly. -/
theorem round_trips_exact (order : Endian) (pid : BitVec 16) (s_addr : BitVec 32)
    (rbuf : Memory rbufSize) (events : List (Event width)) (pinger : Pinger width)
    (calls : List (Call width))
    (honest : Along (step order pid s_addr)
      (Honest (encode order 4 s_addr.toNat) (order.bytes pid)) (start width rbuf) events)
    (ran : exec (step order pid s_addr) (start width rbuf) events = some (pinger, calls)) :
    ∀ call ∈ calls, Timed pinger.requests call := by
  have inv : TimesInv order calls pinger :=
    Machine.exec_invariant_along (TimesInv order)
      (fun _ _ _ _ _ inv allowed taken => times_turn inv allowed (turn_of_step taken))
      (times_start order rbuf) honest ran
  exact fun call member => timed_of_shown inv (inv.lines call member)

end

def replyTo (sequence : Bytes) (sent : Time .bits64) : Bytes :=
  [0x45, 0, 0, 84, 0, 0, 0, 0, 64, 1, 0, 0, 10, 0, 0, 1, 10, 0, 0, 9, 0, 0, 0, 0, 0x34, 0x12] ++
    sequence ++ icmp_data .little sent

def early : Time .bits64 := ⟨43199, 999990, by decide, by decide⟩

/-- The clock is set back between two requests, and the replies come in the other
order, one of them twice. -/
def setBack : List (Event .bits64) :=
  [.alarm noon, .alarm early, .recvfrom (replyTo [1, 0] early), .gettimeofday noon,
    .recvfrom (replyTo [0, 0] noon), .gettimeofday early, .recvfrom (replyTo [0, 0] noon),
    .gettimeofday noon]

def rttsOf {width : LongWidth} : Call width → List Rat
  | .line line _ _ => [line.rtt]
  | _ => []

theorem round_trips_setBack :
    ∃ pinger calls, exec (step .little 0x1234#16 0x0100000a#32)
        (start .bits64 (.zeros _)) setBack = some (pinger, calls) ∧
      calls.flatMap rttsOf = [1 / 100, -1 / 100, 0] ∧
      ∀ call ∈ calls, Timed pinger.requests call := by
  refine ⟨_, _, rfl, ?_, ?_⟩
  · decide +kernel
  · exact round_trips_exact .little 0x1234#16 0x0100000a#32 (.zeros _) setBack _ _
      ((Machine.misses_zero_iff _ _).mp (by decide)) rfl

end NetworkTest.PingTimes
