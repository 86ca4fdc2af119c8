import NetworkTest.Channel
import NetworkTest.LineReader
import NetworkTest.Machine

/-!
The echo server of tue/echo: it reads a line, byte by byte, and writes it back
with its zero, until the line is `quit`.
-/

namespace NetworkTest.LineServer

open CBuffer (Bytes BUFSIZ)
open Channel (Link)
open LineReader (Reader)
open Machine (Step)

inductive Pc where
  | reading
  | writing
  | closed
  deriving DecidableEq

structure Server where
  pc : Pc
  reader : Reader BUFSIZ
  deriving DecidableEq

/-- The results of the calls; `none` is -1. -/
inductive Event where
  | read (result : Option Bytes)
  | write (ok : Bool)

inductive Call where
  | store (index : Nat)
  | received (text : Bytes)
  | write (data : Bytes)
  deriving DecidableEq

def quit : Bytes := [113, 117, 105, 116]

/-- `length = 0` and `temp = rBuffer`. -/
def again (reader : Reader BUFSIZ) : Reader BUFSIZ := { reader with place := 0, length := 0 }

def ended (reader : Reader BUFSIZ) : Server × List Call :=
  let line := reader.finish
  if line.text = quit then ({ pc := .closed, reader := line }, [.store reader.length])
  else ({ pc := .writing, reader := line }, [.store reader.length, .received line.text])

def step : Step Server Event Call := fun server event =>
  match server.pc, event with
  | .reading, .read (some [byte]) =>
      let read := server.reader.pass byte
      if read.2 then
        some ((ended read.1).1, .store server.reader.place :: (ended read.1).2)
      else some ({ server with reader := read.1 }, [.store server.reader.place])
  | .reading, .read (some []) => some (ended server.reader)
  | .reading, .read none => some (ended server.reader)
  | .writing, .write ok =>
      some ({ pc := if ok then .reading else .closed, reader := again server.reader },
        [.write (server.reader.text ++ [0])])
  | _, _ => none

def takes (link : Link UInt8) : Event → Option (Link UInt8)
  | .read result => link.read 1 result
  | .write _ => some link

inductive Turn (server : Server) : Event → Server → List Call → Prop where
  | reads (byte : UInt8) (here : server.pc = .reading) (more : (server.reader.pass byte).2 = false) :
      Turn server (.read (some [byte])) { server with reader := (server.reader.pass byte).1 }
        [.store server.reader.place]
  | readsLast (byte : UInt8) (here : server.pc = .reading)
      (last : (server.reader.pass byte).2 = true) :
      Turn server (.read (some [byte])) (ended (server.reader.pass byte).1).1
        (.store server.reader.place :: (ended (server.reader.pass byte).1).2)
  | streamEnds (result : Option Bytes) (here : server.pc = .reading)
      (nothing : result = some [] ∨ result = none) :
      Turn server (.read result) (ended server.reader).1 (ended server.reader).2
  | writes (ok : Bool) (here : server.pc = .writing) :
      Turn server (.write ok)
        { pc := if ok then .reading else .closed, reader := again server.reader }
        [.write (server.reader.text ++ [0])]

theorem turn_of_step {server next : Server} {event : Event} {made : List Call}
    (taken : step server event = some (next, made)) : Turn server event next made := by
  unfold step at taken
  split at taken
  case h_1 byte here =>
      cases last : (server.reader.pass byte).2 with
      | true =>
          simp only [last, if_true, Option.some.injEq, Prod.mk.injEq] at taken
          obtain ⟨rfl, rfl⟩ := taken
          exact .readsLast byte here last
      | false =>
          simp only [last, Bool.false_eq_true, if_false, Option.some.injEq, Prod.mk.injEq] at taken
          obtain ⟨rfl, rfl⟩ := taken
          exact .reads byte here last
  case h_2 here =>
      have turn := Turn.streamEnds (some []) here (.inl rfl)
      rw [Option.some.inj taken] at turn
      exact turn
  case h_3 here =>
      have turn := Turn.streamEnds none here (.inr rfl)
      rw [Option.some.inj taken] at turn
      exact turn
  case h_4 ok here =>
      cases taken
      exact .writes ok here
  case h_5 => contradiction

end NetworkTest.LineServer
