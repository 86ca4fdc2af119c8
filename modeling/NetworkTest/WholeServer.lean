import NetworkTest.Channel
import NetworkTest.Directory
import NetworkTest.IntBytes
import NetworkTest.Machine

/-!
The upload server of tue/file_transfer/hw1/fileserver/fileserver.c: one session
after the other, each a name and then data, read as it comes to the end of the
stream, for a file that is written anew. The name's array is not terminated; it
ends in a zero if the name that was sent has fewer than 256 bytes.
-/

namespace NetworkTest.WholeServer

open CBuffer (Bytes Memory cstring)
open Directory (Files)
open IntBytes (Word)
open Channel (Link)
open Machine (Step exec Along)

def BUFSIZE : Nat := 1024
def NAMESIZE : Nat := 256

inductive Pc where
  | accepting
  | recvName
  | openWrite
  | recvData
  | writing (block : Bytes)
  | exited
  deriving DecidableEq

structure Server where
  pc : Pc
  files : Files Bytes UInt8
  filename : Memory NAMESIZE
  totalbytes : Word

/-- The results of the calls; `none` is -1. `fwrite` stores `written` bytes. -/
inductive Event where
  | accept
  | acceptFails
  | recvName (result : Option Bytes)
  | openWrite (ok : Bool)
  | recvData (result : Option Bytes)
  | fwrite (written : Nat)
  deriving DecidableEq

inductive Failure where
  | accept
  | recv
  | file
  deriving DecidableEq

inductive Call where
  | fileName (name : Bytes)
  | failure (call : Failure)
  | complete (totalbytes : Word)
  | failed
  | close
  deriving DecidableEq

def Server.name (server : Server) : Bytes := cstring server.filename.val

def Server.block (server : Server) : Bytes :=
  match server.pc with
  | .writing block => block
  | _ => []

def step : Step Server Event Call := fun server event =>
  match server.pc, event with
  | .accepting, .accept => some ({ server with pc := .recvName }, [])
  | .accepting, .acceptFails => some ({ server with pc := .exited }, [.failure .accept])
  | .recvName, .recvName none => some ({ server with pc := .accepting }, [.failure .recv, .close])
  | .recvName, .recvName (some []) =>
      some ({ server with pc := .accepting }, [.failure .recv, .close])
  | .recvName, .recvName (some (first :: rest)) =>
      if fits : (first :: rest).length ≤ NAMESIZE then
        let stored := { server with filename := server.filename.store (first :: rest) fits }
        some ({ stored with pc := .openWrite }, [.fileName stored.name])
      else none
  | .openWrite, .openWrite false =>
      some ({ server with pc := .accepting }, [.failure .file, .close])
  | .openWrite, .openWrite true =>
      if server.name = [] then none
      else
        some ({ server with
          files := Directory.truncate server.files server.name
          totalbytes := 0
          pc := .recvData }, [])
  | .recvData, .recvData none =>
      some ({ server with pc := .accepting }, [.failure .recv, .failed, .close])
  | .recvData, .recvData (some []) =>
      some ({ server with pc := .accepting }, [.complete server.totalbytes, .close])
  | .recvData, .recvData (some (first :: rest)) =>
      if (first :: rest).length ≤ BUFSIZE then
        some ({ server with pc := .writing (first :: rest) }, [])
      else none
  | .writing block, .fwrite written =>
      let stored := { server with
        files := Directory.append server.files server.name (block.take written) }
      if written < block.length then
        some ({ stored with pc := .accepting }, [.failure .file, .failed, .close])
      else if written = block.length then
        some ({ stored with
          totalbytes := stored.totalbytes + BitVec.ofNat 32 block.length, pc := .recvData }, [])
      else none
  | _, _ => none

def takes (link : Link UInt8) : Event → Option (Link UInt8)
  | .recvName result => link.recvAll NAMESIZE result
  | .recvData result => link.read BUFSIZE result
  | _ => some link

def serve : Step (Server × Link UInt8) Event Call := fun (server, link) event =>
  match step server event, takes link event with
  | some (next, made), some rest => some ((next, rest), made)
  | _, _ => none

inductive Turn (server : Server) : Event → Server → List Call → Prop where
  | accepted (idle : server.pc = .accepting) :
      Turn server .accept { server with pc := .recvName } []
  | acceptFailed (idle : server.pc = .accepting) :
      Turn server .acceptFails { server with pc := .exited } [.failure .accept]
  | nameless (result : Option Bytes) (here : server.pc = .recvName)
      (nothing : result = none ∨ result = some []) :
      Turn server (.recvName result) { server with pc := .accepting } [.failure .recv, .close]
  | named (data : Bytes) (here : server.pc = .recvName) (some_ : data ≠ [])
      (fits : data.length ≤ NAMESIZE) :
      Turn server (.recvName (some data))
        { server with filename := server.filename.store data fits, pc := .openWrite }
        [.fileName (cstring (server.filename.store data fits).val)]
  | unopened (here : server.pc = .openWrite) :
      Turn server (.openWrite false) { server with pc := .accepting } [.failure .file, .close]
  | opened (here : server.pc = .openWrite) (named : server.name ≠ []) :
      Turn server (.openWrite true)
        { server with
          files := Directory.truncate server.files server.name
          totalbytes := 0
          pc := .recvData } []
  | dataFailed (here : server.pc = .recvData) :
      Turn server (.recvData none) { server with pc := .accepting }
        [.failure .recv, .failed, .close]
  | ended (here : server.pc = .recvData) :
      Turn server (.recvData (some [])) { server with pc := .accepting }
        [.complete server.totalbytes, .close]
  | received (block : Bytes) (here : server.pc = .recvData) (more : block ≠ [])
      (short : block.length ≤ BUFSIZE) :
      Turn server (.recvData (some block)) { server with pc := .writing block } []
  | stored (block : Bytes) (here : server.pc = .writing block) :
      Turn server (.fwrite block.length)
        { server with
          files := Directory.append server.files server.name block
          totalbytes := server.totalbytes + BitVec.ofNat 32 block.length
          pc := .recvData } []
  | storedPart (block : Bytes) (written : Nat) (here : server.pc = .writing block)
      (part : written < block.length) :
      Turn server (.fwrite written)
        { server with
          files := Directory.append server.files server.name (block.take written)
          pc := .accepting }
        [.failure .file, .failed, .close]

theorem turn_of_step {server next : Server} {event : Event} {made : List Call}
    (taken : step server event = some (next, made)) : Turn server event next made := by
  unfold step at taken
  split at taken
  case h_1 idle =>
      cases taken
      exact .accepted idle
  case h_2 idle =>
      cases taken
      exact .acceptFailed idle
  case h_3 here =>
      cases taken
      exact .nameless none here (.inl rfl)
  case h_4 here =>
      cases taken
      exact .nameless (some []) here (.inr rfl)
  case h_5 first rest here =>
      simp only [Option.dite_none_right_eq_some, Option.some.injEq, Prod.mk.injEq] at taken
      obtain ⟨fits, rfl, rfl⟩ := taken
      exact .named _ here (List.cons_ne_nil _ _) fits
  case h_6 here =>
      cases taken
      exact .unopened here
  case h_7 here =>
      simp only [Option.ite_none_left_eq_some, Option.some.injEq, Prod.mk.injEq] at taken
      obtain ⟨named, rfl, rfl⟩ := taken
      exact .opened here named
  case h_8 here =>
      cases taken
      exact .dataFailed here
  case h_9 here =>
      cases taken
      exact .ended here
  case h_10 first rest here =>
      simp only [Option.ite_none_right_eq_some, Option.some.injEq, Prod.mk.injEq] at taken
      obtain ⟨short, rfl, rfl⟩ := taken
      exact .received _ here (List.cons_ne_nil _ _) short
  case h_11 block written here =>
      simp only at taken
      split at taken
      case isTrue part =>
          cases taken
          exact .storedPart block _ here part
      case isFalse =>
          simp only [Option.ite_none_right_eq_some, Option.some.injEq, Prod.mk.injEq] at taken
          obtain ⟨rfl, rfl, rfl⟩ := taken
          rw [List.take_length]
          exact .stored block here
  case h_12 => contradiction

theorem takes_keeps {link rest : Link UInt8} {event : Event} (took : takes link event = some rest) :
    rest.sent = link.sent ∧ rest.closed = link.closed ∧ rest.broken = link.broken := by
  cases event with
  | recvName result => exact @Link.recvAll_sent _ _ _ _ NAMESIZE result took
  | recvData result => exact @Link.read_sent _ _ _ _ BUFSIZE result took
  | _ =>
      cases took
      exact ⟨rfl, rfl, rfl⟩

theorem serve_eq_some {server next : Server} {link rest : Link UInt8} {event : Event}
    {made : List Call} (taken : serve (server, link) event = some ((next, rest), made)) :
    Turn server event next made ∧ takes link event = some rest := by
  unfold serve at taken
  cases stepped : step server event with
  | none => simp [stepped] at taken
  | some pair =>
      cases took : takes link event with
      | none => simp [stepped, took] at taken
      | some left =>
          simp only [stepped, took, Option.some.injEq, Prod.mk.injEq] at taken
          obtain ⟨⟨rfl, rfl⟩, rfl⟩ := taken
          exact ⟨turn_of_step stepped, rfl⟩

end NetworkTest.WholeServer
