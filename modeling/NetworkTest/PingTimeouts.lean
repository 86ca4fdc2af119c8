import NetworkTest.PingRequests
import NetworkTest.Streaks

/-!
What fri/raw/myping.c says of the messages that come and do not come. The
counter of the waits without a reply starts again at any message, before
`prn_rcvping` has looked at its type, and nobody looks at its identifier.
-/

namespace NetworkTest.PingTimeouts

open CBuffer (Bytes)
open Halfwords (Endian)
open Machine (exec)
open Packets
open PingRequests
open Streaks (streak Reaches)

def IsReply (data : Bytes) : Prop := Icmp.kind (Ipv4.payload data) = ICMP_ECHOREPLY

instance (data : Bytes) : Decidable (IsReply data) := inferInstanceAs (Decidable (_ = _))

section

variable (order : Endian) (pid : BitVec 32)

def OwnId (data : Bytes) : Prop := idOf order (Ipv4.payload data) = pid.setWidth 16

instance (data : Bytes) : Decidable (OwnId order pid data) := inferInstanceAs (Decidable (_ = _))

/-- An echo reply to one of the requests sent up to the pass with this number. -/
def Answers (number : Nat) (data : Bytes) : Prop :=
  IsReply data ∧ OwnId order pid data ∧
    ∃ request < number + 1, sequenceOf order (Ipv4.payload data) = BitVec.ofNat 16 request

instance (number : Nat) (data : Bytes) : Decidable (Answers order pid number data) :=
  inferInstanceAs (Decidable (_ ∧ _ ∧ _))

/-- The wait with this number has brought no reply to an own request. -/
def Silent (waits : List Wait) (number : Nat) : Prop :=
  ∀ data, waits[number]? = some (.message data) → ¬ Answers order pid number data

instance (waits : List Wait) : DecidablePred (Silent order pid waits) := fun k =>
  match here : waits[k]? with
  | some (.message data) =>
      decidable_of_iff (¬ Answers order pid k data) (by simp [Silent, here])
  | some .timeout => isTrue (by simp [Silent, here])
  | some .selectFails => isTrue (by simp [Silent, here])
  | some .recvFails => isTrue (by simp [Silent, here])
  | none => isTrue (by simp [Silent, here])

/-- The number of silent waits in a row, up to this many waits. -/
def silence (waits : List Wait) : Nat → Nat := streak (Silent order pid waits)

end

def TimedOut (waits : List Wait) (number : Nat) : Prop := waits[number]? = some .timeout

instance (waits : List Wait) : DecidablePred (TimedOut waits) :=
  fun _ => inferInstanceAs (Decidable (_ = _))

def timeouts (waits : List Wait) : Nat → Nat := streak (TimedOut waits)

def Ends : Wait → Prop
  | .timeout => True
  | .message data => IsIcmp data
  | .selectFails => False
  | .recvFails => False

/-- The line for a reply shows the identifier of this process. -/
def OwnLine (pid : BitVec 32) : Printed → Prop
  | .reply _ _ icmp => icmp.id = pid.setWidth 16
  | _ => True

section

variable {order : Endian} {pid : BitVec 32} {data : Bytes}

theorem prn_rcvping_icmp (recvbuf : CBuffer.Memory BUFSIZE) (recvsize : Nat) (icmp : IsIcmp data) :
    (prn_rcvping order (stored recvbuf data) recvsize).2 =
      if IsReply data then
        [.reply (recvsize - Ipv4.headerLength data) (((stored recvbuf data).val.drop 12).take 4)
          ⟨idOf order (Ipv4.payload data), sequenceOf order (Ipv4.payload data),
            Icmp.code (Ipv4.payload data), Icmp.kind (Ipv4.payload data)⟩]
      else [] := by
  have message := icmp.message
  have short := Ipv4.headerLength_le data
  have known : ∀ k, k < Ipv4.headerLength data + 8 →
      byteAt (stored recvbuf data).val k = byteAt data k :=
    fun k before => byteAt_store recvbuf (by rw [BUFSIZE]; omega) (by omega)
  have headlen : (byteAt (stored recvbuf data).val 0).toNat % 16 * 4 = Ipv4.headerLength data := by
    rw [known 0 (by omega), Ipv4.headerLength]
  have kind : byteAt (stored recvbuf data).val (Ipv4.headerLength data) =
      Icmp.kind (Ipv4.payload data) := by
    rw [known _ (by omega), Icmp.kind, Ipv4.byteAt_payload, Nat.add_zero]
  have code : byteAt (stored recvbuf data).val (Ipv4.headerLength data + 1) =
      Icmp.code (Ipv4.payload data) := by
    rw [known _ (by omega), Icmp.code, Ipv4.byteAt_payload]
  have fields : prn_icmp order (byteAt (stored recvbuf data).val) (Ipv4.headerLength data) =
      ⟨idOf order (Ipv4.payload data), sequenceOf order (Ipv4.payload data),
        Icmp.code (Ipv4.payload data), Icmp.kind (Ipv4.payload data)⟩ := by
    rw [prn_icmp, Ipv4.load16_payload fun k before => known k (by omega),
      Ipv4.load16_payload fun k before => known k (by omega), code, kind, idOf, sequenceOf]
  simp only [prn_rcvping, headlen, kind, fields]
  by_cases reply : Icmp.kind (Ipv4.payload data) = ICMP_ECHOREPLY
  · have isReply : IsReply data := reply
    rw [if_neg (not_not_intro reply), if_pos isReply]
  · have other : ¬ IsReply data := reply
    rw [if_pos reply, if_neg other]

theorem prn_rcvping_own_iff (recvbuf : CBuffer.Memory BUFSIZE) (recvsize : Nat)
    (icmp : IsIcmp data) :
    (∀ line ∈ (prn_rcvping order (stored recvbuf data) recvsize).2, OwnLine pid line) ↔
      (IsReply data → OwnId order pid data) := by
  rw [prn_rcvping_icmp recvbuf recvsize icmp]
  by_cases reply : IsReply data
  · simp [reply, OwnLine, OwnId]
  · simp [reply]

theorem prn_rcvping_silent (recvbuf : CBuffer.Memory BUFSIZE) (recvsize : Nat) :
    .requestTimeout ∉ (prn_rcvping order recvbuf recvsize).2 := by
  rw [prn_rcvping]
  split <;> simp

theorem timeouts_succ (waits : List Wait) (number : Nat) :
    timeouts waits (number + 1) =
      if waits[number]? = some .timeout then timeouts waits number + 1 else 0 := rfl

/-- What a pass prints, by how its wait ends. -/
structure Tells (order : Endian) (pid : BitVec 32) (waits : List Wait) (number : Nat)
    (pass : Pass) : Prop where
  timeout : .requestTimeout ∈ pass.printed ↔ Reaches 3 (timeouts waits (number + 1))
  lines : (∀ line ∈ pass.printed, OwnLine pid line) ↔
    ∀ data, waits[number]? = some (.message data) → IsReply data → OwnId order pid data

/-- `notrecv` counts the time-outs in a row, modulo 3. -/
theorem pass_tells {waits : List Wait} {number : Nat} {pinger next : Pinger} {wait : Wait}
    {made : List Pass} (ends : Ends wait) (here : waits[number]? = some wait)
    (counted : pinger.notrecv = timeouts waits number % 3)
    (taken : step order pid pinger wait = some (next, made)) :
    next.notrecv = timeouts waits (number + 1) % 3 ∧
      ∃ pass, made = [pass] ∧ Tells order pid waits number pass := by
  have next_timeouts := timeouts_succ waits number
  rw [here] at next_timeouts
  simp only [step] at taken
  split at taken
  case h_1 => contradiction
  case h_2 =>
      split at taken
      case h_1 =>
          rw [if_pos rfl] at next_timeouts
          have counter := Streaks.count_mod (by decide : 0 < 3) (timeouts waits number)
          have third := Streaks.reaches_succ_iff (by decide : 0 < 3) (timeouts waits number)
          have own : ∀ data, waits[number]? = some (.message data) →
              IsReply data → OwnId order pid data := by
            simp [here]
          rw [← next_timeouts, ← counted, Streaks.count] at counter
          rw [← next_timeouts, ← counted] at third
          split at taken
          case isTrue full =>
              rw [send_ping] at full taken
              cases taken
              rw [if_pos full] at counter
              exact ⟨counter, _, rfl, by simpa using third.mpr full,
                iff_of_true (by simp [OwnLine]) own⟩
          case isFalse more =>
              rw [send_ping] at more taken
              cases taken
              rw [if_neg more] at counter
              exact ⟨counter, _, rfl, by simpa using mt third.mp more,
                iff_of_true (by simp [OwnLine]) own⟩
      case h_2 data =>
          rw [if_neg (by simp)] at next_timeouts
          cases taken
          refine ⟨by rw [next_timeouts], _, rfl, ?_, ?_⟩
          · rw [next_timeouts]
            refine iff_of_false ?_ Streaks.not_reaches_zero
            simp [send_ping, prn_rcvping_silent]
          · have own := @prn_rcvping_own_iff order pid data pinger.recvbuf
              (data.take BUFSIZE).length ends
            simpa [send_ping, OwnLine, here] using own
      case h_3 => exact ends.elim
      case h_4 => exact ends.elim

theorem passes_tell {waits : List Wait} {pinger : Pinger} {passes : List Pass}
    (ends : ∀ wait ∈ waits, Ends wait)
    (ran : exec (step order pid) start waits = some (pinger, passes)) :
    passes.length = waits.length ∧
      ∀ number pass, passes[number]? = some pass → Tells order pid waits number pass := by
  refine Machine.exec_numbered
    (fun number pinger => pinger.notrecv = timeouts waits number % 3) _ ?_ rfl ran
  intro number pinger wait next made counted here taken
  exact pass_tells (ends wait (List.mem_of_getElem? here)) here counted taken

/-- 'Request Timeout' is printed at the right passes. -/
def TimeoutsRight (order : Endian) (pid : BitVec 32) (waits : List Wait) (passes : List Pass) :
    Prop :=
  ∀ number pass, passes[number]? = some pass →
    (.requestTimeout ∈ pass.printed ↔ Reaches 3 (silence order pid waits (number + 1)))

/-- Where three silent waits in a row are complete, all of the row are time-outs. -/
def RowsTimedOut (order : Endian) (pid : BitVec 32) (waits : List Wait) : Prop :=
  ∀ number < waits.length, Reaches 3 (silence order pid waits (number + 1)) →
    timeouts waits (number + 1) = silence order pid waits (number + 1)

theorem timeouts_right_iff {waits : List Wait} {passes : List Pass}
    (length : passes.length = waits.length)
    (tell : ∀ number pass, passes[number]? = some pass → Tells order pid waits number pass) :
    TimeoutsRight order pid waits passes ↔ RowsTimedOut order pid waits := by
  have within : ∀ number, TimedOut waits number → Silent order pid waits number := by
    intro number timedOut data message
    rw [TimedOut, message] at timedOut
    cases timedOut
  rw [RowsTimedOut, silence, timeouts, ← Streaks.reaches_together_iff (by decide) within]
  constructor
  · intro right number inside
    have here := List.getElem?_eq_getElem (length ▸ inside)
    exact (tell number _ here).timeout.symm.trans (right number _ here)
  · intro together number pass here
    have inside : number < waits.length := length ▸ (List.getElem?_eq_some_iff.mp here).1
    exact (tell number pass here).timeout.trans (together number inside)

theorem lines_own_iff {waits : List Wait} {passes : List Pass}
    (length : passes.length = waits.length)
    (tell : ∀ number pass, passes[number]? = some pass → Tells order pid waits number pass) :
    (∀ pass ∈ passes, ∀ line ∈ pass.printed, OwnLine pid line) ↔
      ∀ data, .message data ∈ waits → IsReply data → OwnId order pid data := by
  constructor
  · intro own data message
    obtain ⟨number, arrived⟩ := List.mem_iff_getElem?.mp message
    have inside : number < passes.length :=
      length ▸ (List.getElem?_eq_some_iff.mp arrived).1
    have here := List.getElem?_eq_getElem inside
    exact (tell number _ here).lines.mp (own _ (List.getElem_mem inside)) data arrived
  · intro own pass member
    obtain ⟨number, here⟩ := List.mem_iff_getElem?.mp member
    exact (tell number pass here).lines.mpr
      fun data arrived => own data (List.mem_of_getElem? arrived)

end

/-- 'Request Timeout' is printed at every third wait in a row without a reply to
an own request, and each line is about the own identifier, if and only if all
waits of such a row were time-outs and no other process got a reply. -/
theorem reports_right_iff (order : Endian) (pid : BitVec 32) (waits : List Wait)
    (pinger : Pinger) (passes : List Pass) (ends : ∀ wait ∈ waits, Ends wait)
    (ran : exec (step order pid) start waits = some (pinger, passes)) :
    (TimeoutsRight order pid waits passes ∧
        ∀ pass ∈ passes, ∀ line ∈ pass.printed, OwnLine pid line) ↔
      (RowsTimedOut order pid waits ∧
        ∀ data, .message data ∈ waits → IsReply data → OwnId order pid data) := by
  obtain ⟨length, tell⟩ := passes_tell ends ran
  exact and_congr (timeouts_right_iff length tell) (lines_own_iff length tell)

def messageOf (kind : UInt8) (id sequence : Bytes) : Bytes :=
  [0x45, 0, 0, 28, 0, 0, 0, 0, 64, 1, 0, 0, 10, 0, 0, 1, 10, 0, 0, 9, kind, 0, 0, 0] ++
    id ++ sequence

instance : DecidablePred Ends
  | .timeout => isTrue trivial
  | .message data => inferInstanceAs (Decidable (IsIcmp data))
  | .selectFails => isFalse id
  | .recvFails => isFalse id

/-- Three time-outs, a message of another type, and the reply to the last request. -/
def ownWaits : List Wait :=
  [.timeout, .timeout, .timeout, .message (messageOf 3 [0, 0] [0, 0]),
    .message (messageOf 0 [0x34, 0x12] [4, 0])]

theorem reports_right_ownWaits :
    ∃ pinger passes, exec (step .little 0x1234#32) start ownWaits = some (pinger, passes) ∧
      TimeoutsRight .little 0x1234#32 ownWaits passes ∧
      ∀ pass ∈ passes, ∀ line ∈ pass.printed, OwnLine 0x1234#32 line := by
  refine ⟨_, _, rfl, (reports_right_iff .little 0x1234#32 ownWaits _ _ (by decide) rfl).mpr ?_⟩
  refine ⟨by unfold RowsTimedOut; decide, ?_⟩
  intro data arrived
  simp only [ownWaits, List.mem_cons, reduceCtorEq, Wait.message.injEq, List.not_mem_nil,
    false_or, or_false] at arrived
  rcases arrived with rfl | rfl <;> decide

/-- The reply to another process in the third wait: three silent waits pass
without 'Request Timeout', and a line shows the other identifier. -/
theorem foreign_reply_reported :
    ∃ pinger passes, exec (step .little 0x1234#32) start
        [.timeout, .timeout, .message (messageOf 0 [0x78, 0x56] [0, 0])] =
          some (pinger, passes) ∧
      IsIcmp (messageOf 0 [0x78, 0x56] [0, 0]) ∧
      Reaches 3 (silence .little 0x1234#32
        [.timeout, .timeout, .message (messageOf 0 [0x78, 0x56] [0, 0])] 3) ∧
      (∀ pass ∈ passes, .requestTimeout ∉ pass.printed) ∧
      ∃ pass ∈ passes, ∃ icmp_len saddr icmp, .reply icmp_len saddr icmp ∈ pass.printed ∧
        icmp.id ≠ 0x1234#16 := by
  refine ⟨_, _, rfl, by decide, by decide, by decide, ?_⟩
  exact ⟨_, List.mem_cons_of_mem _ (List.mem_cons_of_mem _ List.mem_cons_self), 8,
    [10, 0, 0, 1], ⟨0x5678, 0, 0, 0⟩, by decide, by decide⟩

end NetworkTest.PingTimeouts
