import NetworkTest.Descriptors
import NetworkTest.Machine
import NetworkTest.SwapRemove

/-!
The echo server of thu/select/echo_server_select.c. One event is one result
of the environment: what `select`, `accept` or `read` returned. `clientSock`
holds the entries `clientSock[0..numClient)`; `opened` and `accepted` belong
to the kernel: which descriptor stands for which accepted connection.
-/

namespace NetworkTest.SelectServer

open CBuffer (Bytes BUFSIZ overwrite)
open Descriptors
open Machine (Step exec Along)

def MAX : Nat := 512

inductive Pc where
  | top
  | accepting
  | service (i : Nat)
  | exited
  deriving DecidableEq

structure Server where
  pc : Pc
  clientSock : List Int
  readFds : List Int
  rcvBuffer : Bytes
  opened : Table
  accepted : Nat

inductive Event where
  /-- `select` left these descriptors in the set, or returned a negative value. -/
  | select (ready : Option (List Int))
  | accept (result : Int)
  /-- The loop test, and an iteration on an entry that is not ready. -/
  | pass
  /-- The result of `read`, and how many bytes the following `write` took. -/
  | read (result : ReadResult) (taken : Nat)

/-- Each descriptor that is used is recorded with what was behind it; `terminate` is
the zero, stored at `rcvBuffer[index]`. -/
inductive Call where
  | fdSet (fd : Int) (target : Target)
  | select (maxfd : Int) (readFds ready : List Int)
  | store (index : Nat) (fd : Int) (target : Target)
  | fdIsSet (fd : Int) (target : Target)
  | read (fd : Int) (target : Target) (data : Bytes)
  | terminate (index : Int)
  | write (fd : Int) (target : Target) (data : Bytes)
  | close (fd : Int) (target : Target)
  deriving DecidableEq

def Server.numClient (server : Server) : Nat := server.clientSock.length

def Server.target (server : Server) (listenSock fd : Int) : Target :=
  if fd = listenSock then .listening else lookup fd server.opened

def getMaxfd (clientSock : List Int) (n : Int) : Int :=
  clientSock.foldl (fun max fd => if fd > max then fd else max) n

/-- Lines 73 to 75: the last entry moves into the place of the closed one. -/
def dropClient (clientSock : List Int) (i : Nat) : List Int :=
  let last := clientSock.length - 1
  (if i ≠ last then clientSock.set i (clientSock.getD last 0) else clientSock).take last

def selectCalls (listenSock : Int) (server : Server) (ready : List Int) : List Call :=
  (listenSock :: server.clientSock).map (fun fd => Call.fdSet fd (server.target listenSock fd)) ++
    [.select (getMaxfd server.clientSock listenSock + 1) (listenSock :: server.clientSock) ready]

/-- The body of line 65 to 77 for the ready entry `fd` at index `i`. -/
def serve (listenSock : Int) (server : Server) (i : Nat) (fd : Int) (result : ReadResult)
    (taken : Nat) : Server × List Call :=
  let target := server.target listenSock fd
  match result with
  | .bytes [] =>
      ({ server with
          clientSock := dropClient server.clientSock i
          opened := server.opened.filter (fun entry => entry.1 ≠ fd)
          pc := .service (i + 1) },
        [.fdIsSet fd target, .read fd target [], .close fd target])
  | .bytes (first :: rest) =>
      let n := (first :: rest).length
      let rcvBuffer := (overwrite server.rcvBuffer (first :: rest)).set n 0
      ({ server with rcvBuffer := rcvBuffer, pc := .service (i + 1) },
        [.fdIsSet fd target, .read fd target (first :: rest), .terminate n,
          .write fd target ((rcvBuffer.take n).take taken)])
  -- read returned -1: the zero goes before the buffer, and write is asked for -1 bytes
  | .error =>
      ({ server with pc := .service (i + 1) },
        [.fdIsSet fd target, .read fd target [], .terminate (-1), .write fd target []])

def step (listenSock : Int) : Step Server Event Call := fun server event =>
  match server.pc, event with
  | .top, .select none => some ({ server with pc := .exited }, selectCalls listenSock server [])
  | .top, .select (some ready) =>
      if ready ⊆ listenSock :: server.clientSock then
        some ({ server with
            readFds := ready
            pc := if listenSock ∈ ready then .accepting else .service 0 },
          selectCalls listenSock server ready ++ [.fdIsSet listenSock .listening])
      else none
  | .accepting, .accept result =>
      -- the kernel never hands out a descriptor that is open
      if result = -1 then
        some ({ server with clientSock := server.clientSock ++ [result], pc := .service 0 },
          [.store server.numClient result .closed])
      else if 0 ≤ result ∧ server.target listenSock result = .closed then
        some ({ server with
            clientSock := server.clientSock ++ [result]
            opened := (result, server.accepted) :: server.opened
            accepted := server.accepted + 1
            pc := .service 0 },
          [.store server.numClient result (.connection server.accepted)])
      else none
  | .service i, .pass =>
      match server.clientSock[i]? with
      | none => some ({ server with pc := .top }, [])
      | some fd =>
          if fd ∈ server.readFds then none
          else some ({ server with pc := .service (i + 1) },
            [.fdIsSet fd (server.target listenSock fd)])
  | .service i, .read result taken =>
      match server.clientSock[i]? with
      | none => none
      | some fd =>
          if fd ∈ server.readFds ∧ readPossible (server.target listenSock fd) result then
            some (serve listenSock server i fd result taken)
          else none
  | _, _ => none

def start : Server where
  pc := .top
  clientSock := []
  readFds := []
  rcvBuffer := List.replicate BUFSIZ 0
  opened := []
  accepted := 0

end NetworkTest.SelectServer
