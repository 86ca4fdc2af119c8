import Mathlib.Logic.Function.Basic
import NetworkTest.Descriptors
import NetworkTest.Machine

/-!
The broadcast chat server of fri/homework/server.c: the accept loop of `main`
and one `readSock` thread for each connection, in any interleaving of single
accepts, counter updates, reads, loop tests and writes. No thread ever removes
an entry of `sock_connect` or closes a connection. What is printed, and the
comparison with "quit" that only prints, are left out.
-/

namespace NetworkTest.ChatServer

open CBuffer (Bytes)
open Descriptors (ReadResult)
open Machine (Step exec Along)

def MAX_THREAD_SIZE : Nat := 10
def MAX_USER : Nat := 10

/-- What one `read` of a reader thread returned, with the order of all reads. -/
structure Message where
  sender : Nat
  number : Nat
  len : Int
  data : Bytes
  deriving DecidableEq

/-- A thread: in `read`, at the loop test of `writeSock` for entry `i`, about
to write to entry `i`, or returned. -/
inductive ReaderPc where
  | reading
  | test (message : Message) (i : Nat)
  | send (message : Message) (i : Nat)
  | ended
  deriving DecidableEq

def ReaderPc.index : ReaderPc → Option Nat
  | .test _ i => some i
  | .send _ i => some i
  | _ => none

structure Reader where
  socket : Int
  pc : ReaderPc
  deriving DecidableEq

/-- `main`: in `accept`, evaluating the arguments of `pthread_create`, about
to start the thread with its argument, or returned. -/
inductive Pc where
  | accepting
  | counting
  | creating (socket : Int)
  | exited
  deriving DecidableEq

/-- C does not say which argument of `pthread_create(&thread_id[user_cnt++],
.., sock_connect[user_cnt])` is evaluated first. -/
inductive ArgOrder where
  | counterFirst
  | socketFirst
  deriving DecidableEq

structure Server where
  pc : Pc
  sockConnect : Nat → Int
  userCnt : Nat
  readers : List Reader
  accepted : List Int
  messages : Nat

inductive Event where
  | accept (result : Int)
  | count (order : ArgOrder)
  | create
  | createFails
  | read (reader : Nat) (result : ReadResult)
  | test (reader : Nat)
  | write (reader : Nat)

/-- `write` records whether the reader of the connection has seen its end. -/
inductive Call where
  | storeSock (index : Nat) (fd : Int)
  | storeThread (index : Nat)
  | read (message : Message) (userCnt : Nat)
  | sawEnd (reader : Nat)
  | write (entry : Nat) (fd : Int) (message : Message) (ended : Bool)
  | finished (message : Message)
  deriving DecidableEq

def Server.seenEnd (server : Server) (fd : Int) : Bool :=
  server.readers.any fun reader => reader.socket = fd && reader.pc = .ended

def setReader (server : Server) (k : Nat) (reader : Reader) (pc : ReaderPc) : Server :=
  { server with readers := server.readers.set k { reader with pc := pc } }

/-- `read` returned: 0 ends the thread, everything else is passed to
`writeSock`, -1 included. -/
def readSock (server : Server) (k : Nat) (reader : Reader) : ReadResult → Server × List Call
  | .bytes [] => (setReader server k reader .ended, [.sawEnd k])
  | .bytes (first :: rest) =>
      let message : Message :=
        { sender := k, number := server.messages, len := (first :: rest).length,
          data := first :: rest }
      ({ setReader server k reader (.test message 0) with messages := server.messages + 1 },
        [.read message server.userCnt])
  | .error =>
      let message : Message :=
        { sender := k, number := server.messages, len := -1, data := [] }
      ({ setReader server k reader (.test message 0) with messages := server.messages + 1 },
        [.read message server.userCnt])

/-- The loop test of `writeSock` and the comparison with the sender's own
descriptor. -/
def testEntry (server : Server) (k : Nat) (reader : Reader) (message : Message) (i : Nat) :
    Server × List Call :=
  if i < server.userCnt then
    if reader.socket = server.sockConnect i then
      (setReader server k reader (.test message (i + 1)), [])
    else (setReader server k reader (.send message i), [])
  else (setReader server k reader .reading, [.finished message])

def step : Step Server Event Call := fun server event =>
  if server.pc = .exited then none else
  match event with
  | .accept result =>
      if server.pc = .accepting then
        -- the result is stored before it is tested
        let stored := { server with
          sockConnect := Function.update server.sockConnect server.userCnt result }
        if result = -1 then
          some ({ stored with pc := .exited }, [.storeSock server.userCnt result])
        -- the lowest descriptor was taken before the first accept, by
        -- `sock_listen` if by nothing else
        else if 0 < result ∧ result ∉ server.accepted then
          some ({ stored with accepted := server.accepted ++ [result], pc := .counting },
            [.storeSock server.userCnt result])
        else none
      else none
  | .count order =>
      if server.pc = .counting then
        let socket := match order with
          | .counterFirst => server.sockConnect (server.userCnt + 1)
          | .socketFirst => server.sockConnect server.userCnt
        some ({ server with userCnt := server.userCnt + 1, pc := .creating socket },
          [.storeThread server.userCnt])
      else none
  | .create =>
      match server.pc with
      | .creating socket =>
          some ({ server with
              readers := server.readers ++ [{ socket := socket, pc := .reading }]
              pc := .accepting }, [])
      | _ => none
  | .createFails =>
      match server.pc with
      | .creating _ => some ({ server with pc := .exited }, [])
      | _ => none
  | .read k result =>
      match server.readers[k]? with
      | none => none
      | some reader =>
          if reader.pc = .reading then some (readSock server k reader result) else none
  | .test k =>
      match server.readers[k]? with
      | none => none
      | some reader =>
          match reader.pc with
          | .test message i => some (testEntry server k reader message i)
          | _ => none
  | .write k =>
      match server.readers[k]? with
      | none => none
      | some reader =>
          match reader.pc with
          | .send message i =>
              some (setReader server k reader (.test message (i + 1)),
                [.write i (server.sockConnect i) message (server.seenEnd (server.sockConnect i))])
          | _ => none

/-- `beyond` is the memory behind the array: one order of evaluation reads
`sock_connect[MAX_USER]`. -/
def start (beyond : Nat → Int) : Server where
  pc := .accepting
  sockConnect := fun index => if index < MAX_USER then 0 else beyond index
  userCnt := 0
  readers := []
  accepted := []
  messages := 0

inductive Turn (server : Server) : Event → Server → List Call → Prop where
  | acceptFailed (waiting : server.pc = .accepting) :
      Turn server (.accept (-1))
        { server with
          sockConnect := Function.update server.sockConnect server.userCnt (-1)
          pc := .exited }
        [.storeSock server.userCnt (-1)]
  | accepted (fd : Int) (waiting : server.pc = .accepting) (valid : 0 < fd)
      (fresh : fd ∉ server.accepted) :
      Turn server (.accept fd)
        { server with
          sockConnect := Function.update server.sockConnect server.userCnt fd
          accepted := server.accepted ++ [fd]
          pc := .counting }
        [.storeSock server.userCnt fd]
  | counted (order : ArgOrder) (socket : Int) (stored : server.pc = .counting)
      (own : order = .socketFirst → socket = server.sockConnect server.userCnt)
      (after : order = .counterFirst → socket = server.sockConnect (server.userCnt + 1)) :
      Turn server (.count order)
        { server with userCnt := server.userCnt + 1, pc := .creating socket }
        [.storeThread server.userCnt]
  | created (socket : Int) (ready : server.pc = .creating socket) :
      Turn server .create
        { server with
          readers := server.readers ++ [{ socket := socket, pc := .reading }]
          pc := .accepting } []
  | createFailed (socket : Int) (ready : server.pc = .creating socket) :
      Turn server .createFails { server with pc := .exited } []
  | ended (k : Nat) (reader : Reader) (found : server.readers[k]? = some reader)
      (reading : reader.pc = .reading) :
      Turn server (.read k (.bytes [])) (setReader server k reader .ended) [.sawEnd k]
  | received (k : Nat) (reader : Reader) (result : ReadResult) (message : Message)
      (found : server.readers[k]? = some reader) (reading : reader.pc = .reading)
      (more : result ≠ .bytes []) (sender : message.sender = k)
      (number : message.number = server.messages) :
      Turn server (.read k result)
        { setReader server k reader (.test message 0) with messages := server.messages + 1 }
        [.read message server.userCnt]
  | skipped (k : Nat) (reader : Reader) (message : Message) (i : Nat)
      (found : server.readers[k]? = some reader) (here : reader.pc = .test message i)
      (inside : i < server.userCnt) (own : reader.socket = server.sockConnect i) :
      Turn server (.test k) (setReader server k reader (.test message (i + 1))) []
  | chosen (k : Nat) (reader : Reader) (message : Message) (i : Nat)
      (found : server.readers[k]? = some reader) (here : reader.pc = .test message i)
      (inside : i < server.userCnt) (other : reader.socket ≠ server.sockConnect i) :
      Turn server (.test k) (setReader server k reader (.send message i)) []
  | finished (k : Nat) (reader : Reader) (message : Message) (i : Nat)
      (found : server.readers[k]? = some reader) (here : reader.pc = .test message i)
      (past : server.userCnt ≤ i) :
      Turn server (.test k) (setReader server k reader .reading) [.finished message]
  | sent (k : Nat) (reader : Reader) (message : Message) (i : Nat)
      (found : server.readers[k]? = some reader) (here : reader.pc = .send message i) :
      Turn server (.write k) (setReader server k reader (.test message (i + 1)))
        [.write i (server.sockConnect i) message (server.seenEnd (server.sockConnect i))]

theorem turn_of_step {server next : Server} {event : Event} {made : List Call}
    (taken : step server event = some (next, made)) : Turn server event next made := by
  unfold step at taken
  split at taken
  · contradiction
  cases event with
  | accept result =>
      simp only [Option.ite_none_right_eq_some] at taken
      obtain ⟨waiting, taken⟩ := taken
      split at taken
      case isTrue minus =>
          simp only [Option.some.injEq, Prod.mk.injEq] at taken
          obtain ⟨rfl, rfl⟩ := taken
          subst minus
          exact .acceptFailed waiting
      case isFalse =>
          simp only [Option.ite_none_right_eq_some, Option.some.injEq, Prod.mk.injEq] at taken
          obtain ⟨⟨valid, fresh⟩, rfl, rfl⟩ := taken
          exact .accepted result waiting valid fresh
  | count order =>
      simp only [Option.ite_none_right_eq_some, Option.some.injEq, Prod.mk.injEq] at taken
      obtain ⟨stored, rfl, rfl⟩ := taken
      exact .counted order _ stored (by rintro rfl; rfl) (by rintro rfl; rfl)
  | create =>
      simp only at taken
      split at taken
      case h_1 socket ready =>
          simp only [Option.some.injEq, Prod.mk.injEq] at taken
          obtain ⟨rfl, rfl⟩ := taken
          exact .created socket ready
      case h_2 => contradiction
  | createFails =>
      simp only at taken
      split at taken
      case h_1 socket ready =>
          simp only [Option.some.injEq, Prod.mk.injEq] at taken
          obtain ⟨rfl, rfl⟩ := taken
          exact .createFailed socket ready
      case h_2 => contradiction
  | read k result =>
      cases found : server.readers[k]? with
      | none => simp [found] at taken
      | some reader =>
          simp only [found, Option.ite_none_right_eq_some, Option.some.injEq] at taken
          obtain ⟨reading, taken⟩ := taken
          match result with
          | .bytes [] =>
              simp only [readSock, Prod.mk.injEq] at taken
              obtain ⟨rfl, rfl⟩ := taken
              exact .ended k reader found reading
          | .bytes (first :: rest) =>
              simp only [readSock, Prod.mk.injEq] at taken
              obtain ⟨rfl, rfl⟩ := taken
              exact .received k reader _ _ found reading (by simp) rfl rfl
          | .error =>
              simp only [readSock, Prod.mk.injEq] at taken
              obtain ⟨rfl, rfl⟩ := taken
              exact .received k reader _ _ found reading (by simp) rfl rfl
  | test k =>
      cases found : server.readers[k]? with
      | none => simp [found] at taken
      | some reader =>
          simp only [found] at taken
          split at taken
          case h_1 message i here =>
              simp only [testEntry, Option.some.injEq] at taken
              split at taken
              case isTrue inside =>
                  split at taken
                  case isTrue own =>
                      simp only [Prod.mk.injEq] at taken
                      obtain ⟨rfl, rfl⟩ := taken
                      exact .skipped k reader message i found here inside own
                  case isFalse other =>
                      simp only [Prod.mk.injEq] at taken
                      obtain ⟨rfl, rfl⟩ := taken
                      exact .chosen k reader message i found here inside other
              case isFalse outside =>
                  simp only [Prod.mk.injEq] at taken
                  obtain ⟨rfl, rfl⟩ := taken
                  exact .finished k reader message i found here (Nat.le_of_not_lt outside)
          case h_2 => contradiction
  | write k =>
      cases found : server.readers[k]? with
      | none => simp [found] at taken
      | some reader =>
          simp only [found] at taken
          split at taken
          case h_1 message i here =>
              simp only [Option.some.injEq, Prod.mk.injEq] at taken
              obtain ⟨rfl, rfl⟩ := taken
              exact .sent k reader message i found here
          case h_2 => contradiction

end NetworkTest.ChatServer
