import NetworkTest.Descriptors
import NetworkTest.Machine
import NetworkTest.StandardSignal

/-!
The forking echo server of wen/fork/echo_server_fok_sig.c: the parent's accept
loop, its SIGCHLD handler and the children's `do_echo` loops, in any
interleaving. `accept` may fail by itself; the handler is installed with
`sa_flags = 0`, so a delivery while `accept` waits makes it return -1 too, once
the handler is done. The parent only prints that and forks in any case.
-/

namespace NetworkTest.ForkServer

open CBuffer (Bytes)
open Descriptors
open Machine (Step exec Along misses)
open StandardSignal (Signal raise deliver)

/-- Where the parent's loop stands. `top` is about to call `accept`. -/
inductive Pc where
  | top
  | accepting
  | forking (connSock : Int)
  | closing (connSock : Int)
  | exited
  deriving DecidableEq

/-- `sigHandler`: before its `wait`, and between `wait` and its return. -/
inductive Handler where
  | idle
  | entered
  | waited
  deriving DecidableEq

inductive Status where
  | echoing
  | exited
  | reaped
  deriving DecidableEq

/-- A forked child: the parent's `connSock` at the fork, what was behind it in
the child's copy of the descriptor table, and how far the child has come. -/
structure Child where
  connSock : Int
  target : Target
  status : Status
  deriving DecidableEq

structure Server where
  pc : Pc
  handler : Handler
  interrupted : Bool
  sigchld : Signal
  opened : Table
  accepted : Nat
  children : List Child

inductive Event where
  | callAccept
  /-- -1 when `accept` has failed by itself. -/
  | accept (fd : Int)
  | deliver
  | wait (child : Nat)
  /-- `wait` found no child at all and returned -1. -/
  | waitNone
  | handlerReturn
  | fork
  | forkFails
  | close
  /-- A `read`, and how many bytes the `write` behind it has taken. -/
  | childRead (child : Nat) (result : ReadResult) (taken : Nat)
  | childKilled (child : Nat)

inductive Call where
  | acceptError
  | fork (connSock : Int) (target : Target)
  | close (fd : Int)
  | wait (child : Option Nat)
  | read (child : Nat) (target : Target) (data : Bytes)
  | write (child : Nat) (target : Target) (n : Int) (data : Bytes)
  | exit (child : Nat)
  deriving DecidableEq

def exitChild (server : Server) (k : Nat) (child : Child) : Server :=
  { server with
    children := server.children.set k { child with status := .exited }
    sigchld := raise server.sigchld }

/-- One turn of `do_echo`: any result but 0 is written back, -1 included. What
`write` returns is not looked at. -/
def doEcho (server : Server) (k : Nat) (child : Child) :
    ReadResult → Nat → Server × List Call
  | .bytes [], _ => (exitChild server k child, [.read k child.target [], .exit k])
  | .bytes (first :: rest), taken =>
      (server, [.read k child.target (first :: rest),
        .write k child.target (first :: rest).length ((first :: rest).take taken)])
  | .error, _ => (server, [.read k child.target [], .write k child.target (-1) []])

/-- The bytes there are to write behind a `read`. -/
def readBytes : ReadResult → Bytes
  | .bytes data => data
  | .error => []

def step (listenSock : Int) : Step Server Event Call := fun server event =>
  match event with
  | .callAccept =>
      if server.pc = .top ∧ server.handler = .idle then
        some ({ server with pc := .accepting }, [])
      else none
  | .accept fd =>
      if server.pc = .accepting ∧ server.handler = .idle then
        if fd = -1 then some ({ server with pc := .forking (-1) }, [.acceptError])
        else if 0 ≤ fd ∧ fd ≠ listenSock ∧ lookup fd server.opened = .closed then
          some ({ server with
              opened := (fd, server.accepted) :: server.opened
              accepted := server.accepted + 1
              pc := .forking fd }, [])
        else none
      else none
  | .deliver =>
      -- SIGCHLD is blocked while its handler runs
      if waiting : server.sigchld.pending = true then
        if server.handler = .idle ∧ server.pc ≠ .exited then
          some ({ server with
              handler := .entered
              interrupted := decide (server.pc = .accepting)
              sigchld := deliver server.sigchld waiting }, [])
        else none
      else none
  | .wait k =>
      match server.children[k]? with
      | none => none
      | some child =>
          if server.handler = .entered ∧ child.status = .exited then
            some ({ server with
                handler := .waited
                children := server.children.set k { child with status := .reaped } },
              [.wait (some k)])
          else none
  | .waitNone =>
      if server.handler = .entered ∧ ∀ child ∈ server.children, child.status = .reaped then
        some ({ server with handler := .waited }, [.wait none])
      else none
  | .handlerReturn =>
      if server.handler = .waited then
        if server.interrupted then
          some ({ server with handler := .idle, interrupted := false, pc := .forking (-1) },
            [.acceptError])
        else some ({ server with handler := .idle }, [])
      else none
  | .fork =>
      match server.pc with
      | .forking connSock =>
          if server.handler = .idle then
            let target := lookup connSock server.opened
            some ({ server with
                children := server.children ++
                  [{ connSock := connSock, target := target, status := .echoing }]
                pc := .closing connSock }, [.fork connSock target])
          else none
      | _ => none
  | .forkFails =>
      match server.pc with
      | .forking _ =>
          if server.handler = .idle then some ({ server with pc := .exited }, []) else none
      | _ => none
  | .close =>
      match server.pc with
      | .closing connSock =>
          if server.handler = .idle then
            some ({ server with
                opened := server.opened.filter (fun entry => entry.1 ≠ connSock)
                pc := .top }, [.close connSock])
          else none
      | _ => none
  | .childRead k result taken =>
      match server.children[k]? with
      | none => none
      | some child =>
          if child.status = .echoing ∧ readPossible child.target result ∧
              taken ≤ (readBytes result).length then
            some (doEcho server k child result taken)
          else none
  | .childKilled k =>
      match server.children[k]? with
      | none => none
      | some child =>
          if child.status = .echoing then some (exitChild server k child, [.exit k]) else none

def start : Server where
  pc := .top
  handler := .idle
  interrupted := false
  sigchld := StandardSignal.quiet
  opened := []
  accepted := 0
  children := []

end NetworkTest.ForkServer
