import NetworkTest.Channel
import NetworkTest.IntBytes
import NetworkTest.Machine

/-!
The upload client of thu/hw2/fileclient/fileclient.c, from the opening of its
file: it sends the name in a field of 256 bytes, is told an offset, sends the
number of bytes that follow, and sends the file from there. Reads of the local
file do not fail.
-/

namespace NetworkTest.FileClient

open CBuffer (Bytes Memory strncpy)
open IntBytes (Word ByteOrder)
open Channel (Link)
open Machine (Step exec Along)

def BUFSIZE : Nat := 1024
def NAMESIZE : Nat := 256

inductive Pc where
  | openRead
  | sendName
  | recvOffset
  | sendSize
  | reading
  | sending (block : Bytes)
  | finished
  deriving DecidableEq

/-- `currbytes` is the bytes in memory. -/
structure Client where
  pc : Pc
  name : Bytes
  file : Bytes
  currbytes : Memory 4
  totalbytes : Word
  numtotal : Word
  position : Nat
  deriving DecidableEq

/-- The results of the calls; `none` is -1. -/
inductive Event where
  | openRead (ok : Bool)
  | sendName (result : Option Nat)
  | recvOffset (result : Option Bytes)
  | sendSize (result : Option Nat)
  | fread
  | sendBlock (result : Option Nat)
  deriving DecidableEq

inductive Call where
  | send (data : Bytes)
  | starts (offset : Word)
  | failure
  | complete (filesize : Word)
  | close
  deriving DecidableEq

/-- The position after `fseek(fp, offset, SEEK_SET)`: a negative offset is
refused and leaves it where it was. -/
def seek (position : Nat) (offset : Word) : Nat :=
  if offset.msb then position else offset.toNat

def step (order : ByteOrder) : Step Client Event Call := fun client event =>
  match client.pc, event with
  | .openRead, .openRead false => some ({ client with pc := .finished }, [.failure, .close])
  | .openRead, .openRead true => some ({ client with pc := .sendName }, [])
  | .sendName, .sendName none => some ({ client with pc := .finished }, [.failure, .close])
  | .sendName, .sendName (some count) =>
      if count ≤ NAMESIZE then
        some ({ client with pc := .recvOffset },
          [.send ((strncpy client.name NAMESIZE).take count)])
      else none
  | .recvOffset, .recvOffset none => some ({ client with pc := .finished }, [.failure, .close])
  | .recvOffset, .recvOffset (some data) =>
      if fits : data.length ≤ 4 then
        let currbytes := client.currbytes.store data fits
        let offset := order.decode currbytes
        -- at the end of the file, where its size is read
        some ({ client with
            currbytes := currbytes
            totalbytes := BitVec.ofNat 32 client.file.length - offset
            position := client.file.length
            pc := .sendSize }, [.starts offset])
      else none
  | .sendSize, .sendSize none => some ({ client with pc := .finished }, [.failure, .close])
  | .sendSize, .sendSize (some count) =>
      let size := order.encode client.totalbytes
      if count ≤ size.length then
        some ({ client with
            numtotal := 0
            position := seek client.position (order.decode client.currbytes)
            pc := .reading }, [.send (size.take count)])
      else none
  | .reading, .fread =>
      let block := (client.file.drop client.position).take BUFSIZE
      if block = [] then
        some ({ client with pc := .finished },
          [if client.numtotal = client.totalbytes then
              .complete (BitVec.ofNat 32 client.file.length)
            else .failure, .close])
      else
        some ({ client with position := client.position + block.length, pc := .sending block }, [])
  | .sending _, .sendBlock none => some ({ client with pc := .finished }, [.failure, .close])
  | .sending block, .sendBlock (some count) =>
      if count ≤ block.length then
        some ({ client with
            numtotal := client.numtotal + BitVec.ofNat 32 block.length
            pc := .reading }, [.send (block.take count)])
      else none
  | _, _ => none

/-- After `connect`; nothing has been stored in the locals yet. -/
def start (name file : Bytes) (memory : Memory 4) : Client where
  pc := .openRead
  name := name
  file := file
  currbytes := memory
  totalbytes := 0
  numtotal := 0
  position := 0

def takes (link : Link UInt8) : Event → Option (Link UInt8)
  | .recvOffset result => link.recvAll 4 result
  | _ => some link

def converse (order : ByteOrder) : Step (Client × Link UInt8) Event Call :=
  fun (client, link) event =>
    match step order client event, takes link event with
    | some (next, made), some rest => some ((next, rest), made)
    | _, _ => none

def transmit (link : Link UInt8) (calls : List Call) : Link UInt8 :=
  calls.foldl (fun link call =>
    match call with
    | .send data => link.send data
    | .close => link.close
    | _ => link) link

@[simp] theorem transmit_nil (link : Link UInt8) : transmit link [] = link := rfl

@[simp] theorem transmit_send (link : Link UInt8) (data : Bytes) :
    transmit link [.send data] = link.send data := rfl

@[simp] theorem transmit_starts (link : Link UInt8) (offset : Word) :
    transmit link [.starts offset] = link := rfl

theorem transmit_taken (link : Link UInt8) (calls : List Call) :
    (transmit link calls).taken = link.taken := by
  apply Link.foldl_view Link.taken
  intro link call
  cases call <;> simp [Link.close]

theorem transmit_broken (link : Link UInt8) (calls : List Call) :
    (transmit link calls).broken = link.broken := by
  apply Link.foldl_view Link.broken
  intro link call
  cases call <;> simp [Link.close]

theorem transmit_of_broken {link : Link UInt8} (broken : link.broken = true)
    (calls : List Call) :
    (transmit link calls).sent = link.sent ∧ (transmit link calls).arriving = link.arriving := by
  induction calls generalizing link with
  | nil => exact ⟨rfl, rfl⟩
  | cons call calls ih =>
      rw [transmit, List.foldl_cons, ← transmit]
      cases call with
      | send data =>
          simp only [Link.send_of_broken broken]
          exact ih broken
      | close => exact @ih link.close broken
      | starts offset => exact ih broken
      | failure => exact ih broken
      | complete filesize => exact ih broken

def Client.next (client : Client) : Bytes := (client.file.drop client.position).take BUFSIZE

def Client.block (client : Client) : Bytes :=
  match client.pc with
  | .sending block => block
  | _ => []

inductive Turn (order : ByteOrder) (client : Client) : Event → Client → List Call → Prop where
  | unopened (here : client.pc = .openRead) :
      Turn order client (.openRead false) { client with pc := .finished } [.failure, .close]
  | opened (here : client.pc = .openRead) :
      Turn order client (.openRead true) { client with pc := .sendName } []
  | failed (event : Event)
      (how : (client.pc = .sendName ∧ event = .sendName none) ∨
        (client.pc = .recvOffset ∧ event = .recvOffset none) ∨
        (client.pc = .sendSize ∧ event = .sendSize none) ∨
        ∃ block, client.pc = .sending block ∧ event = .sendBlock none) :
      Turn order client event { client with pc := .finished } [.failure, .close]
  | named (count : Nat) (here : client.pc = .sendName) (short : count ≤ NAMESIZE) :
      Turn order client (.sendName (some count)) { client with pc := .recvOffset }
        [.send ((strncpy client.name NAMESIZE).take count)]
  | told (data : Bytes) (here : client.pc = .recvOffset) (fits : data.length ≤ 4) :
      Turn order client (.recvOffset (some data))
        { client with
          currbytes := client.currbytes.store data fits
          totalbytes := BitVec.ofNat 32 client.file.length -
            order.decode (client.currbytes.store data fits)
          position := client.file.length
          pc := .sendSize }
        [.starts (order.decode (client.currbytes.store data fits))]
  | announced (count : Nat) (here : client.pc = .sendSize)
      (short : count ≤ (order.encode client.totalbytes).length) :
      Turn order client (.sendSize (some count))
        { client with
          numtotal := 0
          position := seek client.position (order.decode client.currbytes)
          pc := .reading }
        [.send ((order.encode client.totalbytes).take count)]
  | ended (here : client.pc = .reading) (none : client.next = []) :
      Turn order client .fread { client with pc := .finished }
        [if client.numtotal = client.totalbytes then
            .complete (BitVec.ofNat 32 client.file.length)
          else .failure, .close]
  | loaded (here : client.pc = .reading) (more : client.next ≠ []) :
      Turn order client .fread
        { client with
          position := client.position + client.next.length
          pc := .sending client.next } []
  | sent (block : Bytes) (count : Nat) (here : client.pc = .sending block)
      (short : count ≤ block.length) :
      Turn order client (.sendBlock (some count))
        { client with
          numtotal := client.numtotal + BitVec.ofNat 32 block.length
          pc := .reading }
        [.send (block.take count)]

theorem turn_of_step {order : ByteOrder} {client next : Client} {event : Event}
    {made : List Call} (taken : step order client event = some (next, made)) :
    Turn order client event next made := by
  unfold step at taken
  split at taken
  case h_1 here =>
      cases taken
      exact .unopened here
  case h_2 here =>
      cases taken
      exact .opened here
  case h_3 here =>
      cases taken
      exact .failed _ (.inl ⟨here, rfl⟩)
  case h_4 count here =>
      simp only [Option.ite_none_right_eq_some, Option.some.injEq, Prod.mk.injEq] at taken
      obtain ⟨short, rfl, rfl⟩ := taken
      exact .named count here short
  case h_5 here =>
      cases taken
      exact .failed _ (.inr (.inl ⟨here, rfl⟩))
  case h_6 data here =>
      simp only [Option.dite_none_right_eq_some, Option.some.injEq, Prod.mk.injEq] at taken
      obtain ⟨fits, rfl, rfl⟩ := taken
      exact .told data here fits
  case h_7 here =>
      cases taken
      exact .failed _ (.inr (.inr (.inl ⟨here, rfl⟩)))
  case h_8 count here =>
      simp only [Option.ite_none_right_eq_some, Option.some.injEq, Prod.mk.injEq] at taken
      obtain ⟨short, rfl, rfl⟩ := taken
      exact .announced count here short
  case h_9 here =>
      simp only at taken
      split at taken
      case isTrue none =>
          cases taken
          exact .ended here none
      case isFalse more =>
          cases taken
          exact .loaded here more
  case h_10 block here =>
      cases taken
      exact .failed _ (.inr (.inr (.inr ⟨block, here, rfl⟩)))
  case h_11 block count here =>
      simp only [Option.ite_none_right_eq_some, Option.some.injEq, Prod.mk.injEq] at taken
      obtain ⟨short, rfl, rfl⟩ := taken
      exact .sent block count here short
  case h_12 => contradiction

theorem turn_keeps {order : ByteOrder} {client next : Client} {event : Event}
    {made : List Call} (turn : Turn order client event next made) :
    next.name = client.name ∧ next.file = client.file := by
  cases turn <;> exact ⟨rfl, rfl⟩

theorem takes_keeps {link rest : Link UInt8} {event : Event} (took : takes link event = some rest) :
    rest.sent = link.sent ∧ rest.closed = link.closed ∧ rest.broken = link.broken := by
  cases event with
  | recvOffset result => exact @Link.recvAll_sent _ _ _ _ 4 result took
  | _ =>
      cases took
      exact ⟨rfl, rfl, rfl⟩

theorem converse_eq_some {order : ByteOrder} {client next : Client} {link rest : Link UInt8}
    {event : Event} {made : List Call}
    (taken : converse order (client, link) event = some ((next, rest), made)) :
    Turn order client event next made ∧ takes link event = some rest := by
  unfold converse at taken
  cases stepped : step order client event with
  | none => simp [stepped] at taken
  | some pair =>
      cases took : takes link event with
      | none => simp [stepped, took] at taken
      | some left =>
          simp only [stepped, took, Option.some.injEq, Prod.mk.injEq] at taken
          obtain ⟨⟨rfl, rfl⟩, rfl⟩ := taken
          exact ⟨turn_of_step stepped, rfl⟩

end NetworkTest.FileClient
