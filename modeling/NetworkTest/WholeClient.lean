import NetworkTest.Channel
import NetworkTest.IntBytes
import NetworkTest.Machine

/-!
The upload client of tue/file_transfer/hw1/fileclient/fileclient.c, from the
opening of its file: the name in a field of 256 bytes, then the whole file,
each in one `send`.
-/

namespace NetworkTest.WholeClient

open CBuffer (Bytes strncpy)
open IntBytes (Word)
open Channel (Link)
open Machine (Step exec Along)

def NAMESIZE : Nat := 256

inductive Pc where
  | openRead
  | sendName
  | allocating
  | reading
  | sending (block : Bytes)
  | finished
  deriving DecidableEq

structure Client where
  pc : Pc
  name : Bytes
  file : Bytes
  length : Word
  deriving DecidableEq

/-- The results of the calls; `none` is -1. `fread` gets `count` bytes. -/
inductive Event where
  | openRead (ok : Bool)
  | sendName (result : Option Nat)
  | malloc (ok : Bool)
  | fread (count : Nat)
  | sendFile (result : Option Nat)
  deriving DecidableEq

inductive Call where
  | send (data : Bytes)
  | failure
  | complete (nbytes : Word)
  | close
  deriving DecidableEq

/-- The number of bytes that `fread` is asked for and that the file has. -/
def Client.readable (client : Client) : Nat := min client.length.toNat client.file.length

def step : Step Client Event Call := fun client event =>
  match client.pc, event with
  | .openRead, .openRead false => some ({ client with pc := .finished }, [.failure, .close])
  | .openRead, .openRead true => some ({ client with pc := .sendName }, [])
  | .sendName, .sendName none => some ({ client with pc := .finished }, [.failure, .close])
  | .sendName, .sendName (some count) =>
      if count ≤ NAMESIZE then
        some ({ client with
            length := BitVec.ofNat 32 client.file.length
            pc := .allocating }, [.send ((strncpy client.name NAMESIZE).take count)])
      else none
  | .allocating, .malloc false => some ({ client with pc := .finished }, [.failure, .close])
  | .allocating, .malloc true =>
      -- a negative length is a size that is never had
      if client.length.msb then none else some ({ client with pc := .reading }, [])
  | .reading, .fread count =>
      if count ≤ client.readable then
        if BitVec.ofNat 32 count = client.length then
          some ({ client with pc := .sending (client.file.take count) }, [])
        else some ({ client with pc := .finished }, [.failure, .close])
      else none
  | .sending _, .sendFile none => some ({ client with pc := .finished }, [.failure, .close])
  | .sending block, .sendFile (some count) =>
      if count ≤ block.length then
        some ({ client with pc := .finished },
          [.send (block.take count), .complete (BitVec.ofNat 32 block.length), .close])
      else none
  | _, _ => none

def start (name file : Bytes) : Client where
  pc := .openRead
  name := name
  file := file
  length := 0

def transmit (link : Link UInt8) (calls : List Call) : Link UInt8 :=
  calls.foldl (fun link call =>
    match call with
    | .send data => link.send data
    | .close => link.close
    | _ => link) link

theorem transmit_send (link : Link UInt8) (data : Bytes) :
    transmit link [.send data] = link.send data := rfl

theorem transmit_taken (link : Link UInt8) (calls : List Call) :
    (transmit link calls).taken = link.taken := by
  apply Link.foldl_view Link.taken
  intro link call
  cases call <;> simp [Link.close]

theorem transmit_broken (link : Link UInt8) (calls : List Call) :
    (transmit link calls).broken = link.broken := by
  apply Link.foldl_view Link.broken
  intro link call
  cases call <;> simp [Link.close]

def Client.block (client : Client) : Bytes :=
  match client.pc with
  | .sending block => block
  | _ => []

inductive Turn (client : Client) : Event → Client → List Call → Prop where
  | opened (here : client.pc = .openRead) :
      Turn client (.openRead true) { client with pc := .sendName } []
  | failed (event : Event)
      (how : (client.pc = .openRead ∧ event = .openRead false) ∨
        (client.pc = .sendName ∧ event = .sendName none) ∨
        (client.pc = .allocating ∧ event = .malloc false) ∨
        ∃ block, client.pc = .sending block ∧ event = .sendFile none) :
      Turn client event { client with pc := .finished } [.failure, .close]
  | named (count : Nat) (here : client.pc = .sendName) (short : count ≤ NAMESIZE) :
      Turn client (.sendName (some count))
        { client with length := BitVec.ofNat 32 client.file.length, pc := .allocating }
        [.send ((strncpy client.name NAMESIZE).take count)]
  | allocated (here : client.pc = .allocating) (positive : client.length.msb = false) :
      Turn client (.malloc true) { client with pc := .reading } []
  | loaded (count : Nat) (here : client.pc = .reading) (inside : count ≤ client.readable)
      (all : BitVec.ofNat 32 count = client.length) :
      Turn client (.fread count) { client with pc := .sending (client.file.take count) } []
  | unread (count : Nat) (here : client.pc = .reading) (inside : count ≤ client.readable)
      (part : BitVec.ofNat 32 count ≠ client.length) :
      Turn client (.fread count) { client with pc := .finished } [.failure, .close]
  | sent (block : Bytes) (count : Nat) (here : client.pc = .sending block)
      (short : count ≤ block.length) :
      Turn client (.sendFile (some count)) { client with pc := .finished }
        [.send (block.take count), .complete (BitVec.ofNat 32 block.length), .close]

theorem turn_of_step {client next : Client} {event : Event} {made : List Call}
    (taken : step client event = some (next, made)) : Turn client event next made := by
  unfold step at taken
  split at taken
  case h_1 here =>
      cases taken
      exact .failed _ (.inl ⟨here, rfl⟩)
  case h_2 here =>
      cases taken
      exact .opened here
  case h_3 here =>
      cases taken
      exact .failed _ (.inr (.inl ⟨here, rfl⟩))
  case h_4 count here =>
      simp only [Option.ite_none_right_eq_some, Option.some.injEq, Prod.mk.injEq] at taken
      obtain ⟨short, rfl, rfl⟩ := taken
      exact .named count here short
  case h_5 here =>
      cases taken
      exact .failed _ (.inr (.inr (.inl ⟨here, rfl⟩)))
  case h_6 here =>
      simp only [Option.ite_none_left_eq_some, Option.some.injEq, Prod.mk.injEq,
        Bool.not_eq_true] at taken
      obtain ⟨positive, rfl, rfl⟩ := taken
      exact .allocated here positive
  case h_7 count here =>
      simp only [Option.ite_none_right_eq_some] at taken
      obtain ⟨inside, taken⟩ := taken
      split at taken
      case isTrue all =>
          cases taken
          exact .loaded count here inside all
      case isFalse part =>
          cases taken
          exact .unread count here inside part
  case h_8 block here =>
      cases taken
      exact .failed _ (.inr (.inr (.inr ⟨block, here, rfl⟩)))
  case h_9 block count here =>
      simp only [Option.ite_none_right_eq_some, Option.some.injEq, Prod.mk.injEq] at taken
      obtain ⟨short, rfl, rfl⟩ := taken
      exact .sent block count here short
  case h_10 => contradiction

theorem turn_keeps {client next : Client} {event : Event} {made : List Call}
    (turn : Turn client event next made) :
    next.name = client.name ∧ next.file = client.file := by
  cases turn <;> exact ⟨rfl, rfl⟩

end NetworkTest.WholeClient
