import Mathlib.Logic.Function.Basic
import NetworkTest.CBuffer
import NetworkTest.Precedence

/-!
The broadcaster wen/UDPbcaster.c and the reader wen/UDPreader.c, any number of each on
one network. A datagram may come to each reader at any time, again, or never, and
other hosts may send to the port as well.
-/

namespace NetworkTest.Broadcast

open CBuffer (Bytes BUFSIZ Memory cstring)
open Machine (Step exec)
open Precedence (Preceded)

def quit : Bytes := [113, 117, 105, 116]

/-- `strncmp(buffer, "quit", 4) == 0`, for the text in the buffer. -/
def BeginsQuit (text : Bytes) : Prop := text.take 4 = quit

instance (text : Bytes) : Decidable (BeginsQuit text) := inferInstanceAs (Decidable (_ = _))

/-- `sender` is the broadcaster, or none of them. -/
structure Datagram where
  sender : Option Nat
  payload : Bytes
  deriving DecidableEq

inductive Pc where
  | running
  | exited
  deriving DecidableEq

structure Program where
  pc : Pc
  buffer : Memory BUFSIZ

/-- `air` holds all datagrams sent so far. -/
structure System where
  senders : Nat → Program
  air : List Datagram
  readers : Nat → Program

/-- `ok` is whether `sendto` succeeds; `place` is that of the datagram in `air`. -/
inductive Event where
  | read (sender : Nat) (chunk : Bytes) (ok : Bool)
  | other (payload : Bytes)
  | recvfrom (reader place : Nat)
  | recvFails (reader : Nat)
  deriving DecidableEq

/-- Stores are those of the zeros. `sent` reports the chunk as it was typed, `shown` and
`stopped` whose datagram the reader has got. -/
inductive Call where
  | senderStore (index : Nat)
  | sent (sender : Nat) (chunk : Bytes)
  | readerStore (sender : Option Nat) (index : Nat)
  | shown (reader : Nat) (sender : Option Nat) (text : Bytes)
  | stopped (reader : Nat) (sender : Option Nat)
  deriving DecidableEq

def System.putSender (system : System) (sender : Nat) (program : Program) : System :=
  { system with senders := Function.update system.senders sender program }

def System.putReader (system : System) (reader : Nat) (program : Program) : System :=
  { system with readers := Function.update system.readers reader program }

/-- A pass of the broadcaster's loop; the last byte typed gives way to the zero. -/
def broadcast (system : System) (sender : Nat) (chunk : Bytes) (fits : chunk.length ≤ BUFSIZ)
    (ok : Bool) : System × List Call :=
  let sndBuffer := ((system.senders sender).buffer.store chunk fits).set (chunk.length - 1) 0
  let text := cstring sndBuffer.val
  if ok then
    let pc := if BeginsQuit text then .exited else .running
    ({ system.putSender sender ⟨pc, sndBuffer⟩ with air := system.air ++ [⟨some sender, text⟩] },
      [.senderStore (chunk.length - 1), .sent sender chunk])
  else (system.putSender sender ⟨.exited, sndBuffer⟩, [.senderStore (chunk.length - 1)])

def receive (system : System) (reader : Nat) (datagram : Datagram) : System × List Call :=
  let data := datagram.payload.take BUFSIZ
  let rcvBuffer :=
    ((system.readers reader).buffer.store data (List.length_take_le ..)).set data.length 0
  let text := cstring rcvBuffer.val
  if BeginsQuit text then
    (system.putReader reader ⟨.exited, rcvBuffer⟩,
      [.readerStore datagram.sender data.length, .stopped reader datagram.sender])
  else
    (system.putReader reader ⟨.running, rcvBuffer⟩,
      [.readerStore datagram.sender data.length, .shown reader datagram.sender text])

def step : Step System Event Call := fun system event =>
  match event with
  | .read sender chunk ok =>
      if fits : chunk.length ≤ BUFSIZ then
        if chunk ≠ [] ∧ (system.senders sender).pc = .running then
          some (broadcast system sender chunk fits ok)
        else none
      else none
  | .other payload => some ({ system with air := system.air ++ [⟨none, payload⟩] }, [])
  | .recvfrom reader place =>
      match system.air[place]? with
      | none => none
      | some datagram =>
          if (system.readers reader).pc = .running then some (receive system reader datagram)
          else none
  | .recvFails reader =>
      if (system.readers reader).pc = .running then
        some (system.putReader reader { system.readers reader with pc := .exited }, [])
      else none

def start (stack heap : Nat → Memory BUFSIZ) : System where
  senders := fun sender => ⟨.running, stack sender⟩
  air := []
  readers := fun reader => ⟨.running, heap reader⟩

/-! What the buffers hold. -/

/-- The text of a chunk: without its last byte, and up to the first zero. -/
def line (chunk : Bytes) : Bytes := cstring chunk.dropLast

theorem cstring_typed (buffer : Memory BUFSIZ) {chunk : Bytes} (fits : chunk.length ≤ BUFSIZ)
    (some_ : chunk ≠ []) :
    cstring ((buffer.store chunk fits).set (chunk.length - 1) 0).val = line chunk := by
  obtain ⟨front, last, rfl⟩ := List.eq_nil_or_concat chunk |>.resolve_left some_
  simp only [Memory.store, Memory.set, CBuffer.overwrite, line, List.concat_eq_append,
    List.length_append, List.length_singleton, Nat.add_sub_cancel, List.dropLast_concat,
    List.append_assoc]
  rw [List.set_append_right _ _ (Nat.le_refl _), Nat.sub_self]
  exact CBuffer.cstring_append_zero front _

theorem length_line_lt {chunk : Bytes} (fits : chunk.length ≤ BUFSIZ) (some_ : chunk ≠ []) :
    (line chunk).length < BUFSIZ := by
  have shorter := CBuffer.cstring_length_le chunk.dropLast
  have positive := List.length_pos_iff.mpr some_
  rw [List.length_dropLast] at shorter
  rw [line]
  omega

/-! What one step can do. -/

inductive Turn (system : System) : Event → System → List Call → Prop where
  | sends (sender : Nat) (chunk : Bytes) (pc : Pc) (buffer : Memory BUFSIZ)
      (fits : chunk.length ≤ BUFSIZ) (some_ : chunk ≠ []) :
      Turn system (.read sender chunk true)
        { system.putSender sender ⟨pc, buffer⟩ with
          air := system.air ++ [⟨some sender, line chunk⟩] }
        [.senderStore (chunk.length - 1), .sent sender chunk]
  | sendFails (sender : Nat) (chunk : Bytes) (buffer : Memory BUFSIZ)
      (fits : chunk.length ≤ BUFSIZ) :
      Turn system (.read sender chunk false) (system.putSender sender ⟨.exited, buffer⟩)
        [.senderStore (chunk.length - 1)]
  | others (payload : Bytes) :
      Turn system (.other payload) { system with air := system.air ++ [⟨none, payload⟩] } []
  | shows (reader place : Nat) (datagram : Datagram) (program : Program)
      (found : datagram ∈ system.air)
      (other : ¬ BeginsQuit (cstring (datagram.payload.take BUFSIZ))) :
      Turn system (.recvfrom reader place) (system.putReader reader program)
        [.readerStore datagram.sender (datagram.payload.take BUFSIZ).length,
          .shown reader datagram.sender (cstring (datagram.payload.take BUFSIZ))]
  | stops (reader place : Nat) (datagram : Datagram) (program : Program)
      (found : datagram ∈ system.air)
      (quits : BeginsQuit (cstring (datagram.payload.take BUFSIZ))) :
      Turn system (.recvfrom reader place) (system.putReader reader program)
        [.readerStore datagram.sender (datagram.payload.take BUFSIZ).length,
          .stopped reader datagram.sender]
  | recvFails (reader : Nat) (program : Program) :
      Turn system (.recvFails reader) (system.putReader reader program) []

theorem turn_of_step {system next : System} {event : Event} {made : List Call}
    (taken : step system event = some (next, made)) : Turn system event next made := by
  cases event with
  | read sender chunk ok =>
      simp only [step, Option.dite_none_right_eq_some, Option.ite_none_right_eq_some,
        Option.some.injEq] at taken
      obtain ⟨fits, ⟨some_, _⟩, taken⟩ := taken
      cases ok with
      | true =>
          simp only [broadcast, if_true, cstring_typed _ fits some_] at taken
          cases taken
          exact .sends sender chunk _ _ fits some_
      | false =>
          simp only [broadcast, Bool.false_eq_true, if_false] at taken
          cases taken
          exact .sendFails sender chunk _ fits
  | other payload =>
      cases taken
      exact .others payload
  | recvfrom reader place =>
      simp only [step] at taken
      split at taken
      case h_1 => contradiction
      case h_2 datagram found =>
          simp only [Option.ite_none_right_eq_some, Option.some.injEq] at taken
          have member := List.mem_of_getElem? found
          simp only [receive, CBuffer.cstring_received] at taken
          obtain ⟨_, taken⟩ := taken
          split at taken
          case isTrue quits =>
              cases taken
              exact .stops reader place datagram _ member quits
          case isFalse other =>
              cases taken
              exact .shows reader place datagram _ member other
  | recvFails reader =>
      simp only [step, Option.ite_none_right_eq_some, Option.some.injEq, Prod.mk.injEq] at taken
      obtain ⟨_, rfl, rfl⟩ := taken
      exact .recvFails reader _

/-! What comes from a broadcaster. -/

/-- A broadcaster's text that is shown has been typed at it before, and so has the one
that stops a reader; its datagrams are stored inside. -/
def Good (before : List Call) : Call → Prop
  | .senderStore index => index < BUFSIZ
  | .readerStore (some _) index => index < BUFSIZ
  | .shown _ (some sender) text =>
      ∃ chunk, .sent sender chunk ∈ before ∧ text = line chunk ∧ ¬ BeginsQuit text
  | .stopped _ (some sender) =>
      ∃ chunk, .sent sender chunk ∈ before ∧ BeginsQuit (line chunk)
  | _ => True

def Inv (calls : List Call) (system : System) : Prop :=
  ∀ datagram ∈ system.air, ∀ sender, datagram.sender = some sender →
    ∃ chunk, .sent sender chunk ∈ calls ∧ datagram.payload = line chunk ∧
      (line chunk).length < BUFSIZ

theorem inv_append {calls : List Call} {system : System} (inv : Inv calls system)
    (made : List Call) : Inv (calls ++ made) system := by
  intro datagram member sender own
  obtain ⟨chunk, typed, same, short⟩ := inv datagram member sender own
  exact ⟨chunk, List.mem_append_left _ typed, same, short⟩

theorem received_line {calls : List Call} {system : System} (inv : Inv calls system)
    {datagram : Datagram} (found : datagram ∈ system.air) {sender : Nat}
    (own : datagram.sender = some sender) :
    ∃ chunk, .sent sender chunk ∈ calls ∧ (datagram.payload.take BUFSIZ).length < BUFSIZ ∧
      cstring (datagram.payload.take BUFSIZ) = line chunk := by
  obtain ⟨chunk, typed, same, short⟩ := inv datagram found sender own
  have whole : datagram.payload.take BUFSIZ = line chunk := by
    rw [same, List.take_of_length_le (Nat.le_of_lt short)]
  exact ⟨chunk, typed, by rwa [whole], by rw [whole, line, CBuffer.cstring_cstring]⟩

theorem received_good {calls : List Call} {system : System} (inv : Inv calls system)
    (earlier : Preceded Good calls) {datagram : Datagram} (found : datagram ∈ system.air)
    (call : Option Nat → Call) (others : ∀ before, Good before (call none))
    (own : ∀ sender chunk, .sent sender chunk ∈ calls →
      cstring (datagram.payload.take BUFSIZ) = line chunk →
        ∀ store, Good (calls ++ [store]) (call (some sender))) :
    Preceded Good (calls ++
      [.readerStore datagram.sender (datagram.payload.take BUFSIZ).length,
        call datagram.sender]) := by
  rw [List.append_cons]
  cases origin : datagram.sender with
  | none =>
      exact Precedence.preceded_concat (Precedence.preceded_concat earlier trivial) (others _)
  | some sender =>
      obtain ⟨chunk, typed, short, text⟩ := received_line inv found origin
      refine Precedence.preceded_concat (Precedence.preceded_concat earlier ?_) ?_
      · exact short
      · exact own sender chunk typed text _

theorem inv_turn {system next : System} {event : Event} {before made : List Call}
    (inv : Inv before system) (earlier : Preceded Good before)
    (turn : Turn system event next made) :
    Inv (before ++ made) next ∧ Preceded Good (before ++ made) := by
  cases turn with
  | sends sender chunk pc buffer fits some_ =>
      have positive := List.length_pos_iff.mpr some_
      constructor
      · intro datagram member origin own
        rcases List.mem_append.mp member with old | new
        · exact inv_append inv _ datagram old origin own
        · obtain rfl := List.mem_singleton.mp new
          cases own
          -- the last byte is cut off, so the line is shorter than the buffer
          exact ⟨chunk, by simp, rfl, length_line_lt fits some_⟩
      · apply Precedence.preceded_of_forall earlier
        intro call member front
        simp only [List.mem_cons, List.not_mem_nil, or_false] at member
        rcases member with rfl | rfl
        · rw [Good]
          omega
        · trivial
  | sendFails sender chunk buffer fits =>
      refine ⟨inv_append inv _, Precedence.preceded_concat earlier ?_⟩
      rw [Good]
      have room : 0 < BUFSIZ := by decide
      omega
  | others payload =>
      rw [List.append_nil]
      refine ⟨fun datagram member sender own => ?_, earlier⟩
      rcases List.mem_append.mp member with old | new
      · exact inv datagram old sender own
      · obtain rfl := List.mem_singleton.mp new
        cases own
  | shows reader place datagram program found other =>
      refine ⟨inv_append inv _, received_good inv earlier found
        (fun sender => .shown reader sender (cstring (datagram.payload.take BUFSIZ)))
        (fun _ => trivial) ?_⟩
      intro sender chunk typed text store
      exact ⟨chunk, List.mem_append_left _ typed, text, other⟩
  | stops reader place datagram program found quits =>
      refine ⟨inv_append inv _, received_good inv earlier found
        (fun sender => .stopped reader sender) (fun _ => trivial) ?_⟩
      intro sender chunk typed text store
      exact ⟨chunk, List.mem_append_left _ typed, text ▸ quits⟩
  | recvFails reader program =>
      rw [List.append_nil]
      exact ⟨inv, earlier⟩

/-- However the datagrams are delayed, repeated or lost, and whatever other hosts send:
a line that a reader shows as a broadcaster's has been typed there before and is not a
quit, a reader that a broadcaster stops has been sent a quit, and none of their
datagrams is stored outside a buffer. -/
theorem lines_typed (stack heap : Nat → Memory BUFSIZ) (events : List Event) (last : System)
    (calls : List Call) (ran : exec step (start stack heap) events = some (last, calls)) :
    Preceded Good calls :=
  Precedence.exec_preceded Inv
    (fun _ _ _ _ _ inv earlier taken => inv_turn inv earlier (turn_of_step taken))
    (by simp [Inv, start]) ran

def zeros (_ : Nat) : Memory BUFSIZ := Memory.zeros BUFSIZ

/-- Two lines come to two readers, one of them twice; then a quit. -/
def twoLines : List Event :=
  [.read 0 [104, 105, 10] true, .other [1], .read 1 [97, 10] true, .recvfrom 0 2, .recvfrom 1 0,
    .recvfrom 0 0, .recvfrom 0 0, .recvfrom 1 1, .read 1 [113, 117, 105, 116, 10] true,
    .recvfrom 0 3]

theorem lines_typed_twoLines : ∃ last calls,
    exec step (start zeros zeros) twoLines = some (last, calls) ∧ Preceded Good calls := by
  have runs : (exec step (start zeros zeros) twoLines).isSome = true := by decide +kernel
  obtain ⟨last, calls, ran⟩ := Machine.exec_of_isSome runs
  exact ⟨last, calls, ran, lines_typed zeros zeros twoLines last calls ran⟩

end NetworkTest.Broadcast
