import NetworkTest.Channel
import NetworkTest.Directory
import NetworkTest.IntBytes
import NetworkTest.Machine

/-!
The upload server of thu/hw2/fileserver/fileserver.c: one session after the
other, each a name, the offset sent back, a size, and data to the end of the
stream. The locals of the loop keep what was in memory before, as the arrays
and integers of C do; only a negative result of `recv` or `send` is tested.
A block is in its file once `fwrite` has taken it: the buffer of the stream is left
out, and with it what `fclose` returns, which the program does not look at.
-/

namespace NetworkTest.FileServer

open CBuffer (Bytes Memory cstring)
open Directory (Files contents)
open IntBytes (Word ByteOrder)
open Channel (Link)
open Machine (Step exec Along)

def BUFSIZE : Nat := 1024
def NAMESIZE : Nat := 256

inductive Pc where
  | accepting
  | recvName
  | openRead
  | sendOffset
  | recvSize
  | openAppend
  | recvData
  | writing (block : Bytes)
  | exited
  deriving DecidableEq

/-- `filename` and `totalbytes` are the bytes in memory. -/
structure Server where
  pc : Pc
  files : Files Bytes UInt8
  filename : Memory (NAMESIZE + 1)
  currbytes : Word
  totalbytes : Memory 4
  numtotal : Word

/-- The results of the calls; `none` is -1. `fwrite` stores `written` bytes, and
`fclose` loses none of them. -/
inductive Event where
  | accept
  | acceptFails
  | recvName (result : Option Bytes)
  | openRead (ok : Bool)
  | sendOffset (result : Option Nat)
  | recvSize (result : Option Bytes)
  | openAppend (ok : Bool)
  | recvData (result : Option Bytes)
  | fwrite (written : Nat)
  deriving DecidableEq

inductive Failure where
  | accept
  | recv
  | send
  | file
  deriving DecidableEq

inductive Call where
  | fileName (name : Bytes)
  | send (data : Bytes)
  | sizes (whole announced already : Word)
  | failure (call : Failure)
  | complete
  | failed
  | close
  deriving DecidableEq

def Server.name (server : Server) : Bytes := cstring server.filename.val

def Server.block (server : Server) : Bytes :=
  match server.pc with
  | .writing block => block
  | _ => []

/-- `access` finds nothing under the empty name. -/
def search_file (files : Files Bytes UInt8) (filename : Bytes) : Bool :=
  filename ≠ [] && (files filename).isSome

def abandon (server : Server) (call : Failure) : Server × List Call :=
  ({ server with pc := .accepting }, [.failure call, .close])

def finish (order : ByteOrder) (server : Server) (printed : List Call) : Server × List Call :=
  ({ server with pc := .accepting },
    printed ++ [if server.numtotal = order.decode server.totalbytes then .complete else .failed,
      .close])

def storeName (server : Server) (data : Bytes) (fits : data.length ≤ NAMESIZE) : Server :=
  { server with
    filename := (server.filename.store data (Nat.le_succ_of_le fits)).set data.length 0
    currbytes := 0 }

def step (order : ByteOrder) : Step Server Event Call := fun server event =>
  match server.pc, event with
  | .accepting, .accept => some ({ server with pc := .recvName }, [])
  | .accepting, .acceptFails => some ({ server with pc := .exited }, [.failure .accept])
  | .recvName, .recvName none => some (abandon server .recv)
  | .recvName, .recvName (some data) =>
      if fits : data.length ≤ NAMESIZE then
        let stored := storeName server data fits
        some ({ stored with
            pc := if search_file stored.files stored.name then .openRead else .sendOffset },
          [.fileName stored.name])
      else none
  | .openRead, .openRead false => some (abandon server .file)
  | .openRead, .openRead true =>
      let size := (contents server.files server.name).length
      some ({ server with currbytes := BitVec.ofNat 32 size, pc := .sendOffset }, [])
  | .sendOffset, .sendOffset none => some (abandon server .send)
  | .sendOffset, .sendOffset (some count) =>
      let offset := order.encode server.currbytes
      if count ≤ offset.length then
        some ({ server with pc := .recvSize }, [.send (offset.take count)])
      else none
  | .recvSize, .recvSize none => some (abandon server .recv)
  | .recvSize, .recvSize (some data) =>
      if fits : data.length ≤ 4 then
        let totalbytes := server.totalbytes.store data fits
        let announced := order.decode totalbytes
        some ({ server with totalbytes := totalbytes, pc := .openAppend },
          [.sizes (server.currbytes + announced) announced server.currbytes])
      else none
  | .openAppend, .openAppend false => some (abandon server .file)
  | .openAppend, .openAppend true =>
      if server.name = [] then none
      else
        some ({ server with
          files := Directory.append server.files server.name []
          numtotal := 0
          pc := .recvData }, [])
  | .recvData, .recvData none => some (finish order server [.failure .recv])
  | .recvData, .recvData (some []) => some (finish order server [])
  | .recvData, .recvData (some (first :: rest)) =>
      if (first :: rest).length ≤ BUFSIZE then
        some ({ server with pc := .writing (first :: rest) }, [])
      else none
  | .writing block, .fwrite written =>
      let stored := { server with
        files := Directory.append server.files server.name (block.take written) }
      if written < block.length then some (finish order stored [.failure .file])
      else if written = block.length then
        some ({ stored with
          numtotal := stored.numtotal + BitVec.ofNat 32 block.length, pc := .recvData }, [])
      else none
  | _, _ => none

def takes (link : Link UInt8) : Event → Option (Link UInt8)
  | .recvName result => link.recvAll NAMESIZE result
  | .recvSize result => link.recvAll 4 result
  | .recvData result => link.recvAll BUFSIZE result
  | _ => some link

def serve (order : ByteOrder) : Step (Server × Link UInt8) Event Call := fun (server, link) event =>
  match step order server event, takes link event with
  | some (next, made), some rest => some ((next, rest), made)
  | _, _ => none

def transmit (link : Link UInt8) (calls : List Call) : Link UInt8 :=
  calls.foldl (fun link call =>
    match call with
    | .send data => link.send data
    | .close => link.close
    | _ => link) link

@[simp] theorem transmit_nil (link : Link UInt8) : transmit link [] = link := rfl

@[simp] theorem transmit_send (link : Link UInt8) (data : Bytes) :
    transmit link [.send data] = link.send data := rfl

inductive Turn (order : ByteOrder) (server : Server) : Event → Server → List Call → Prop where
  | accepted (idle : server.pc = .accepting) :
      Turn order server .accept { server with pc := .recvName } []
  | acceptFailed (idle : server.pc = .accepting) :
      Turn order server .acceptFails { server with pc := .exited } [.failure .accept]
  | nameFailed (here : server.pc = .recvName) :
      Turn order server (.recvName none) { server with pc := .accepting } [.failure .recv, .close]
  | named (data : Bytes) (here : server.pc = .recvName) (fits : data.length ≤ NAMESIZE) :
      Turn order server (.recvName (some data))
        { storeName server data fits with
          pc := if search_file server.files (storeName server data fits).name then .openRead
            else .sendOffset }
        [.fileName (storeName server data fits).name]
  | unreadable (here : server.pc = .openRead) :
      Turn order server (.openRead false) { server with pc := .accepting } [.failure .file, .close]
  | measured (here : server.pc = .openRead) :
      Turn order server (.openRead true)
        { server with
          currbytes := BitVec.ofNat 32 (contents server.files server.name).length
          pc := .sendOffset } []
  | offsetFailed (here : server.pc = .sendOffset) :
      Turn order server (.sendOffset none) { server with pc := .accepting }
        [.failure .send, .close]
  | offsetSent (count : Nat) (here : server.pc = .sendOffset)
      (short : count ≤ (order.encode server.currbytes).length) :
      Turn order server (.sendOffset (some count)) { server with pc := .recvSize }
        [.send ((order.encode server.currbytes).take count)]
  | sizeFailed (here : server.pc = .recvSize) :
      Turn order server (.recvSize none) { server with pc := .accepting } [.failure .recv, .close]
  | sized (data : Bytes) (here : server.pc = .recvSize) (fits : data.length ≤ 4) :
      Turn order server (.recvSize (some data))
        { server with totalbytes := server.totalbytes.store data fits, pc := .openAppend }
        [.sizes (server.currbytes + order.decode (server.totalbytes.store data fits))
          (order.decode (server.totalbytes.store data fits)) server.currbytes]
  | unopened (here : server.pc = .openAppend) :
      Turn order server (.openAppend false) { server with pc := .accepting }
        [.failure .file, .close]
  | opened (here : server.pc = .openAppend) (named : server.name ≠ []) :
      Turn order server (.openAppend true)
        { server with
          files := Directory.append server.files server.name []
          numtotal := 0
          pc := .recvData } []
  | ended (result : Option Bytes) (printed : List Call) (here : server.pc = .recvData)
      (last : (result = some [] ∧ printed = []) ∨
        (result = none ∧ printed = [.failure .recv])) :
      Turn order server (.recvData result) (finish order server printed).1
        (finish order server printed).2
  | received (block : Bytes) (here : server.pc = .recvData) (more : block ≠ [])
      (short : block.length ≤ BUFSIZE) :
      Turn order server (.recvData (some block)) { server with pc := .writing block } []
  | stored (block : Bytes) (here : server.pc = .writing block) :
      Turn order server (.fwrite block.length)
        { server with
          files := Directory.append server.files server.name block
          numtotal := server.numtotal + BitVec.ofNat 32 block.length
          pc := .recvData } []
  | storedPart (block : Bytes) (written : Nat) (here : server.pc = .writing block)
      (part : written < block.length) :
      Turn order server (.fwrite written)
        { server with
          files := Directory.append server.files server.name (block.take written)
          pc := .accepting }
        [.failure .file,
          if server.numtotal = order.decode server.totalbytes then .complete else .failed, .close]

theorem turn_of_step {order : ByteOrder} {server next : Server} {event : Event}
    {made : List Call} (taken : step order server event = some (next, made)) :
    Turn order server event next made := by
  unfold step at taken
  split at taken
  case h_1 idle =>
      cases taken
      exact .accepted idle
  case h_2 idle =>
      cases taken
      exact .acceptFailed idle
  case h_3 here =>
      cases taken
      exact .nameFailed here
  case h_4 here =>
      simp only [Option.dite_none_right_eq_some, Option.some.injEq, Prod.mk.injEq] at taken
      obtain ⟨fits, rfl, rfl⟩ := taken
      exact .named _ here fits
  case h_5 here =>
      cases taken
      exact .unreadable here
  case h_6 here =>
      cases taken
      exact .measured here
  case h_7 here =>
      cases taken
      exact .offsetFailed here
  case h_8 here =>
      simp only [Option.ite_none_right_eq_some, Option.some.injEq, Prod.mk.injEq] at taken
      obtain ⟨short, rfl, rfl⟩ := taken
      exact .offsetSent _ here short
  case h_9 here =>
      cases taken
      exact .sizeFailed here
  case h_10 here =>
      simp only [Option.dite_none_right_eq_some, Option.some.injEq, Prod.mk.injEq] at taken
      obtain ⟨fits, rfl, rfl⟩ := taken
      exact .sized _ here fits
  case h_11 here =>
      cases taken
      exact .unopened here
  case h_12 here =>
      simp only [Option.ite_none_left_eq_some, Option.some.injEq, Prod.mk.injEq] at taken
      obtain ⟨named, rfl, rfl⟩ := taken
      exact .opened here named
  case h_13 here =>
      cases taken
      exact .ended none _ here (.inr ⟨rfl, rfl⟩)
  case h_14 here =>
      cases taken
      exact .ended (some []) _ here (.inl ⟨rfl, rfl⟩)
  case h_15 first rest here =>
      simp only [Option.ite_none_right_eq_some, Option.some.injEq, Prod.mk.injEq] at taken
      obtain ⟨short, rfl, rfl⟩ := taken
      exact .received _ here (List.cons_ne_nil _ _) short
  case h_16 block written here =>
      simp only at taken
      split at taken
      case isTrue part =>
          cases taken
          exact .storedPart block _ here part
      case isFalse =>
          simp only [Option.ite_none_right_eq_some, Option.some.injEq, Prod.mk.injEq] at taken
          obtain ⟨rfl, rfl, rfl⟩ := taken
          rw [List.take_length]
          exact .stored block here
  case h_17 => contradiction

theorem step_of_turn {order : ByteOrder} {server next : Server} {event : Event}
    {made : List Call} (turn : Turn order server event next made) :
    step order server event = some (next, made) := by
  cases turn with
  | accepted here => simp [step, here]
  | acceptFailed here => simp [step, here]
  | nameFailed here => simp [step, here, abandon]
  | named data here fits => simp [step, here, fits, storeName]
  | unreadable here => simp [step, here, abandon]
  | measured here => simp [step, here]
  | offsetFailed here => simp [step, here, abandon]
  | offsetSent count here short => simpa [step, here] using short
  | sizeFailed here => simp [step, here, abandon]
  | sized data here fits => simp [step, here, fits]
  | unopened here => simp [step, here, abandon]
  | opened here named => simp [step, here, named]
  | ended result printed here last =>
      rcases last with ⟨rfl, rfl⟩ | ⟨rfl, rfl⟩ <;> simp [step, here]
  | received block here more short =>
      cases block with
      | nil => contradiction
      | cons first rest => simpa [step, here] using short
  | stored block here => simp [step, here]
  | storedPart block written here part => simp [step, here, part, finish]

theorem takes_keeps {link rest : Link UInt8} {event : Event} (took : takes link event = some rest) :
    rest.sent = link.sent ∧ rest.closed = link.closed ∧ rest.broken = link.broken := by
  cases event with
  | recvName result => exact @Link.recvAll_sent _ _ _ _ NAMESIZE result took
  | recvSize result => exact @Link.recvAll_sent _ _ _ _ 4 result took
  | recvData result => exact @Link.recvAll_sent _ _ _ _ BUFSIZE result took
  | _ =>
      cases took
      exact ⟨rfl, rfl, rfl⟩

theorem storeName_name (server : Server) {data : Bytes} (fits : data.length ≤ NAMESIZE) :
    (storeName server data fits).name = cstring data :=
  CBuffer.cstring_store_set server.filename (Nat.lt_succ_of_le fits)

theorem serve_eq_some {order : ByteOrder} {server next : Server} {link rest : Link UInt8}
    {event : Event} {made : List Call}
    (taken : serve order (server, link) event = some ((next, rest), made)) :
    Turn order server event next made ∧ takes link event = some rest := by
  unfold serve at taken
  cases stepped : step order server event with
  | none => simp [stepped] at taken
  | some pair =>
      cases took : takes link event with
      | none => simp [stepped, took] at taken
      | some left =>
          simp only [stepped, took, Option.some.injEq, Prod.mk.injEq] at taken
          obtain ⟨⟨rfl, rfl⟩, rfl⟩ := taken
          exact ⟨turn_of_step stepped, rfl⟩

/-- Whatever happens, files are only made and appended to. -/
theorem turn_grows {order : ByteOrder} {server next : Server} {event : Event}
    {made : List Call} (turn : Turn order server event next made) :
    Directory.Grows server.files next.files := by
  cases turn with
  | opened => exact Directory.grows_append _ _ _
  | stored => exact Directory.grows_append _ _ _
  | storedPart => exact Directory.grows_append _ _ _
  | _ => exact Directory.grows_refl _

end NetworkTest.FileServer
