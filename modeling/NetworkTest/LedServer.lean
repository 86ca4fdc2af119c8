import NetworkTest.Channel
import NetworkTest.LedDriver
import NetworkTest.Machine

/-!
The LED server of fri/ledok/server.c: it takes messages of four bytes off one
connection after the other, packs each into one byte and writes that to the
driver. A receive that returns less than a message is not told from one that
returns it whole.
-/

namespace NetworkTest.LedServer

open CBuffer (Bytes Memory)
open Channel (Link)
open LedDriver (Register)
open Machine (Step)

def MAX_BUF : Nat := 2

inductive Pc where
  | accepting
  | receiving
  | writing
  | exited
  | faulted
  deriving DecidableEq

/-- `msg` is the bytes in memory. -/
structure Server where
  pc : Pc
  msg : Memory 4
  bufOut : Memory MAX_BUF
  gpfdat : Register

/-- The results of the calls; `none` is -1. `allocated` is what `kmalloc` in
the driver comes to; `buf_out` can always be read. -/
inductive Event where
  | accept
  | acceptFails
  | recv (result : Option Bytes)
  | write (allocated : Bool)
  deriving DecidableEq

inductive Call where
  | connected
  | disconnected
  | write (data : Bytes)
  deriving DecidableEq

/-- The byte that `led_ctrl` makes of its four arguments. -/
def packed (led1 led2 led3 led4 : UInt8) : UInt8 :=
  (led4 <<< 3) ||| (led3 <<< 2) ||| (led2 <<< 1) ||| (led1 <<< 0)

/-- `led_ctrl` up to its write. -/
def led_ctrl (bufOut : Memory MAX_BUF) (msg : Memory 4) : Memory MAX_BUF :=
  bufOut.set 0 (packed (msg.val.getD 0 0) (msg.val.getD 1 0) (msg.val.getD 2 0) (msg.val.getD 3 0))

def step : Step Server Event Call := fun server event =>
  match server.pc, event with
  | .accepting, .accept => some ({ server with pc := .receiving }, [.connected])
  | .accepting, .acceptFails => some ({ server with pc := .exited }, [])
  | .receiving, .recv none => some ({ server with pc := .accepting }, [.disconnected])
  | .receiving, .recv (some []) => some ({ server with pc := .accepting }, [.disconnected])
  | .receiving, .recv (some (first :: rest)) =>
      if fits : (first :: rest).length ≤ 4 then
        let msg := server.msg.store (first :: rest) fits
        some ({ server with
          msg := msg, bufOut := led_ctrl server.bufOut msg, pc := .writing }, [])
      else none
  | .writing, .write allocated =>
      let written := LedDriver.led_write server.gpfdat allocated 0 server.bufOut.val
      some ({ server with
          gpfdat := written.gpfdat
          pc := if written.outcome = .fault then .faulted else .receiving },
        [.write server.bufOut.val])
  | _, _ => none

def takes (link : Link UInt8) : Event → Option (Link UInt8)
  | .recv result => link.recvAll 4 result
  | _ => some link

inductive Turn (server : Server) : Event → Server → List Call → Prop where
  | accepted (idle : server.pc = .accepting) :
      Turn server .accept { server with pc := .receiving } [.connected]
  | acceptFailed (idle : server.pc = .accepting) :
      Turn server .acceptFails { server with pc := .exited } []
  | ended (result : Option Bytes) (here : server.pc = .receiving)
      (last : result = none ∨ result = some []) :
      Turn server (.recv result) { server with pc := .accepting } [.disconnected]
  | received (data : Bytes) (here : server.pc = .receiving) (more : data ≠ [])
      (fits : data.length ≤ 4) :
      Turn server (.recv (some data))
        { server with
          msg := server.msg.store data fits
          bufOut := led_ctrl server.bufOut (server.msg.store data fits)
          pc := .writing } []
  | displayed (here : server.pc = .writing) :
      Turn server (.write true)
        { server with
          gpfdat := LedDriver.led_display server.gpfdat
            (LedDriver.toInt (server.bufOut.val.getD 0 0))
          pc := .receiving }
        [.write server.bufOut.val]
  | faulted (here : server.pc = .writing) :
      Turn server (.write false) { server with pc := .faulted } [.write server.bufOut.val]

theorem turn_of_step {server next : Server} {event : Event} {made : List Call}
    (taken : step server event = some (next, made)) : Turn server event next made := by
  unfold step at taken
  split at taken
  case h_1 idle =>
      cases taken
      exact .accepted idle
  case h_2 idle =>
      cases taken
      exact .acceptFailed idle
  case h_3 here =>
      cases taken
      exact .ended none here (.inl rfl)
  case h_4 here =>
      cases taken
      exact .ended (some []) here (.inr rfl)
  case h_5 first rest here =>
      simp only [Option.dite_none_right_eq_some, Option.some.injEq, Prod.mk.injEq] at taken
      obtain ⟨fits, rfl, rfl⟩ := taken
      exact .received (first :: rest) here (by simp) fits
  case h_6 allocated here =>
      have two := server.bufOut.property
      match buffer : server.bufOut.val, two with
      | [first, second], _ =>
          cases allocated with
          | true =>
              simp only [LedDriver.led_write, LedDriver.copied, buffer, Option.some.injEq,
                Prod.mk.injEq] at taken
              obtain ⟨rfl, rfl⟩ := taken
              have turn := Turn.displayed here
              rw [buffer] at turn
              exact turn
          | false =>
              simp only [LedDriver.led_write, LedDriver.copied, buffer, Option.some.injEq,
                Prod.mk.injEq] at taken
              obtain ⟨rfl, rfl⟩ := taken
              have turn := Turn.faulted here
              rw [buffer] at turn
              exact turn
  case h_7 => contradiction

theorem takes_keeps {link rest : Link UInt8} {event : Event} (took : takes link event = some rest) :
    rest.sent = link.sent ∧ rest.closed = link.closed ∧ rest.broken = link.broken := by
  cases event with
  | recv result => exact @Link.recvAll_sent _ _ _ _ 4 result took
  | _ =>
      cases took
      exact ⟨rfl, rfl, rfl⟩

/-- Only the LED bits are ever changed. -/
theorem turn_same {server next : Server} {event : Event} {made : List Call}
    (turn : Turn server event next made) :
    LedDriver.SameOutside server.gpfdat next.gpfdat := by
  cases turn with
  | displayed => exact LedDriver.same_display _ _
  | _ => exact LedDriver.same_refl _

end NetworkTest.LedServer
