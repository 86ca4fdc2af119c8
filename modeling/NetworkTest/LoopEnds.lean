import NetworkTest.ChatServer
import NetworkTest.Endings
import NetworkTest.ForkRuns
import NetworkTest.LineServer
import NetworkTest.TalkPair

/-!
Four loops at the end of their connection. Each looks at the result of `read`
in its own way: `do_echo` and `readSock` go on with everything but 0, `do_socket`
of the talk server goes round whatever it is, and the line server of tue/echo
leaves its inner loop only.
-/

namespace NetworkTest

open CBuffer (Bytes BUFSIZ Memory)
open Descriptors (ReadResult)
open Endings (Ends)
open Machine (Step exec)

/-- What `read` returns from the end of the connection on. -/
inductive StreamEnd where
  | zero
  | minusOne
  deriving DecidableEq

def StreamEnd.result : StreamEnd → ReadResult
  | .zero => .bytes []
  | .minusOne => .error

/-- The same where -1 is `none`. -/
def StreamEnd.data : StreamEnd → Option Bytes
  | .zero => some []
  | .minusOne => none

/-! `do_echo` of the forking server. -/

namespace ForkServer

def ReadsIn (k : Nat) : Event → Prop
  | .childRead j _ _ => j = k
  | _ => False

def Unwritten (k : Nat) : Call → Prop
  | .write j _ _ _ => j ≠ k
  | _ => True

def Echoing (server : Server) (k : Nat) : Prop :=
  ∃ child ∈ server.children[k]?, child.status = .echoing

instance (k : Nat) : DecidablePred (ReadsIn k)
  | .childRead j _ _ => inferInstanceAs (Decidable (j = k))
  | .callAccept => isFalse id
  | .accept _ => isFalse id
  | .deliver => isFalse id
  | .wait _ => isFalse id
  | .waitNone => isFalse id
  | .handlerReturn => isFalse id
  | .fork => isFalse id
  | .forkFails => isFalse id
  | .close => isFalse id
  | .childKilled _ => isFalse id

instance (server : Server) (k : Nat) : Decidable (Echoing server k) :=
  inferInstanceAs (Decidable (∃ child ∈ server.children[k]?, _))

/-- `do_echo` of the child ends with the connection. -/
def EchoEnds (listenSock : Int) (k : Nat) (ending : StreamEnd) (server : Server) : Prop :=
  Ends (step listenSock) (ReadsIn k) (· = .childRead k ending.result 0) (Unwritten k)
    (fun server => ¬ Echoing server k) server

theorem unwritten_step {listenSock : Int} {k : Nat} {server next : Server} {event : Event}
    {made : List Call} (taken : step listenSock server event = some (next, made))
    (only : ReadsIn k event → event = .childRead k (.bytes []) 0) :
    ∀ call ∈ made, Unwritten k call := by
  cases turn_of_step taken with
  | echoed j child result taken n found active more few =>
      have other : j ≠ k := fun same => more (Event.childRead.inj (only same)).2.1
      simp [Unwritten, other]
  | _ => simp [Unwritten]

theorem child_turn {listenSock : Int} {k : Nat} {server next : Server} {event : Event}
    {made : List Call} {child : Child} (found : server.children[k]? = some child)
    (turn : Turn listenSock server event next made) :
    ∃ later, next.children[k]? = some later ∧ later.target = child.target ∧
      (later.status = .echoing → child.status = .echoing) := by
  have set : ∀ (j : Nat) (other : Child) (status : Status), server.children[j]? = some other →
      status ≠ .echoing → ∃ later,
        (server.children.set j { other with status := status })[k]? = some later ∧
          later.target = child.target ∧ (later.status = .echoing → child.status = .echoing) := by
    intro j other status here gone
    by_cases same : j = k
    · subst same
      rw [found, Option.some.injEq] at here
      subst here
      exact ⟨{ child with status := status },
        List.getElem?_set_self (List.getElem?_eq_some_iff.mp found).choose, rfl,
        fun echoing => absurd echoing gone⟩
    · exact ⟨child, by rw [List.getElem?_set_ne same, found], rfl, id⟩
  cases turn with
  | reaped j other here entered gone => exact set j other .reaped here (by simp)
  | forked connSock ready idle =>
      have inside := (List.getElem?_eq_some_iff.mp found).choose
      exact ⟨child, by rw [List.getElem?_append_left inside, found], rfl, id⟩
  | ended j other here active => exact set j other .exited here (by simp)
  | killed j other here active => exact set j other .exited here (by simp)
  | _ => exact ⟨child, found, rfl, id⟩

theorem read_step (listenSock : Int) {k number : Nat} {server : Server} {child : Child}
    (found : server.children[k]? = some child) (active : child.status = .echoing)
    (connected : child.target = .connection number) (ending : StreamEnd) :
    step listenSock server (.childRead k ending.result 0) =
      some (doEcho server k child ending.result 0) := by
  cases ending <;> simp [step, found, active, connected, Descriptors.readPossible, StreamEnd.result]

/-- A read is the child's last: there is one less to come. -/
theorem read_last {listenSock : Int} {k : Nat} {server next : Server} {event : Event}
    {made : List Call} (taken : step listenSock server event = some (next, made))
    (only : ReadsIn k event → event = .childRead k (.bytes []) 0) (mine : ReadsIn k event) :
    Echoing server k ∧ ¬ Echoing next k := by
  obtain rfl := only mine
  cases turn_of_step taken with
  | echoed _ child _ _ _ found active more few => exact absurd rfl more
  | ended _ child found active =>
      refine ⟨⟨child, found, active⟩, ?_⟩
      rintro ⟨later, here, echoing⟩
      simp only [exitChild, List.getElem?_set_self (List.getElem?_eq_some_iff.mp found).choose,
        Option.mem_some_iff] at here
      rw [← here] at echoing
      cases echoing

theorem echo_ends_iff (listenSock : Int) (k : Nat) (ending : StreamEnd) (server : Server)
    (child : Child) (number : Nat) (found : server.children[k]? = some child)
    (active : child.status = .echoing) (connected : child.target = .connection number) :
    EchoEnds listenSock k ending server ↔ ending = .zero := by
  constructor
  · intro ends
    cases ending with
    | zero => rfl
    -- the first step already hands -1 to `write`
    | minusOne =>
        have taken := Machine.exec_single (read_step listenSock found active connected .minusOne)
        refine absurd ends (Endings.not_ends_of_loud ?_ taken
          (List.mem_cons_of_mem _ List.mem_cons_self) (fun quiet => quiet rfl))
        simp
  -- at 0 the child has one read to go; killed before that, it has none
  · rintro rfl
    apply Endings.ends_of_measure
      (fun server => ∃ child ∈ server.children[k]?, child.target = .connection number)
      (fun server => if Echoing server k then 1 else 0) _ _ ⟨child, found, connected⟩
    · rintro server event next made ⟨child, found, connected⟩ only taken
      obtain ⟨later, here, target, still⟩ := child_turn found (turn_of_step taken)
      refine ⟨⟨later, here, target.trans connected⟩, unwritten_step taken only, ?_⟩
      by_cases mine : ReadsIn k event
      · simp [mine, read_last taken only mine]
      · have no : Echoing next k → Echoing server k := by
          rintro ⟨other, there, echoing⟩
          rw [here, Option.mem_some_iff] at there
          exact ⟨child, found, still (there ▸ echoing)⟩
        by_cases before : Echoing server k
        · simp only [mine, before, if_true, if_false]
          split <;> omega
        · simp [mine, before, mt no before]
    · rintro server ⟨child, found, connected⟩
      rw [or_iff_not_imp_left, not_not]
      rintro ⟨same, there, active⟩
      rw [found, Option.mem_some_iff] at there
      subst there
      exact ⟨.childRead k StreamEnd.zero.result 0, rfl, rfl,
        Option.isSome_of_eq_some (read_step listenSock found active connected .zero)⟩

end ForkServer

/-! `readSock` of the chat server. -/

namespace ChatServer

def Turns (k : Nat) : Event → Prop
  | .read j _ => j = k
  | .test j => j = k
  | .write j => j = k
  | _ => False

def ReadsOnly (result : ReadResult) : Event → Prop
  | .read _ other => other = result
  | _ => True

/-- The thread sends nothing, and does not end its text at `rcvBuffer[-1]`. -/
def Untold (k : Nat) : Call → Prop
  | .write _ _ message _ => message.sender ≠ k
  | .read message _ => message.sender = k → 0 ≤ message.len
  | _ => True

def Reading (server : Server) (k : Nat) : Prop :=
  ∃ reader ∈ server.readers[k]?, reader.pc = .reading

/-- The thread has returned, or the process has. -/
def Gone (server : Server) (k : Nat) : Prop := server.pc = .exited ∨ ¬ Reading server k

instance (k : Nat) : DecidablePred (Turns k)
  | .read j _ => inferInstanceAs (Decidable (j = k))
  | .test j => inferInstanceAs (Decidable (j = k))
  | .write j => inferInstanceAs (Decidable (j = k))
  | .accept _ => isFalse id
  | .count _ => isFalse id
  | .create => isFalse id
  | .createFails => isFalse id

instance (server : Server) (k : Nat) : Decidable (Reading server k) :=
  inferInstanceAs (Decidable (∃ reader ∈ server.readers[k]?, _))

/-- `readSock` of the thread ends with the connection. -/
def ReaderEnds (k : Nat) (ending : StreamEnd) (server : Server) : Prop :=
  Ends step (Turns k) (ReadsOnly ending.result) (Untold k) (Gone · k) server

def ReaderPc.message : ReaderPc → Option Message
  | .test message _ => some message
  | .send message _ => some message
  | _ => none

/-- Whatever a thread sends it has read itself. -/
def Signed (server : Server) : Prop :=
  ∀ (k : Nat) (reader : Reader), server.readers[k]? = some reader →
    ∀ message ∈ reader.pc.message, message.sender = k

theorem signed_start (beyond : Nat → Int) : Signed (start beyond) := by
  simp [Signed, start]

theorem signed_moved {server : Server} {k count : Nat} {reader : Reader} {pc : ReaderPc}
    (signed : Signed server) (own : ∀ message ∈ pc.message, message.sender = k) :
    Signed { setReader server k reader pc with messages := count } := by
  intro j other found message sends
  simp only [setReader, List.getElem?_set] at found
  split at found
  case isTrue same =>
      split at found
      case isTrue =>
          cases found
          exact same ▸ own message sends
      case isFalse => contradiction
  case isFalse => exact signed j other found message sends

theorem signed_turn {server next : Server} {event : Event} {made : List Call}
    (signed : Signed server) (turn : Turn server event next made) : Signed next := by
  cases turn with
  | created socket ready =>
      intro j other found message sends
      rw [List.getElem?_append] at found
      split at found
      · exact signed j other found message sends
      · have new := List.mem_singleton.mp (List.mem_of_getElem? found)
        subst new
        cases sends
  | ended k reader found reading => exact signed_moved signed (by simp [ReaderPc.message])
  | received k reader result message found reading more sender number =>
      exact signed_moved signed (by simpa [ReaderPc.message] using sender)
  | skipped k reader message i found here inside mine =>
      exact signed_moved signed (by simpa [here, ReaderPc.message] using signed k reader found)
  | chosen k reader message i found here inside other =>
      exact signed_moved signed (by simpa [here, ReaderPc.message] using signed k reader found)
  | finished k reader message i found here past =>
      exact signed_moved signed (by simp [ReaderPc.message])
  | sent k reader message i found here =>
      exact signed_moved signed (by simpa [here, ReaderPc.message] using signed k reader found)
  | _ => exact signed

theorem other_turn {server next : Server} {event : Event} {made : List Call} {k : Nat}
    (signed : Signed server) (turn : Turn server event next made) (other : ¬ Turns k event) :
    (∀ reader, server.readers[k]? = some reader → next.readers[k]? = some reader) ∧
      ∀ call ∈ made, Untold k call := by
  have kept : ∀ j (reader mover : Reader), j ≠ k → server.readers[k]? = some reader →
      (server.readers.set j mover)[k]? = some reader := by
    intro j reader mover differs found
    rw [List.getElem?_set_ne differs, found]
  cases turn with
  | created socket ready =>
      refine ⟨fun reader found => ?_, by simp⟩
      rw [List.getElem?_append_left (List.getElem?_eq_some_iff.mp found).choose, found]
  | ended j reader found reading => exact ⟨fun _ => kept j _ _ other, by simp [Untold]⟩
  | received j reader result message found reading more sender number =>
      refine ⟨fun _ => kept j _ _ other, ?_⟩
      rw [List.forall_mem_singleton]
      exact fun mine => absurd (sender.symm.trans mine) other
  | skipped j | chosen j => exact ⟨fun _ => kept j _ _ other, by simp⟩
  | finished j reader message i found here past =>
      exact ⟨fun _ => kept j _ _ other, by simp [Untold]⟩
  -- another thread's message is signed with that thread's own number
  | sent j reader message i found here =>
      refine ⟨fun _ => kept j _ _ other, ?_⟩
      rw [List.forall_mem_singleton]
      have sender := signed j reader found message (by simp [here, ReaderPc.message])
      exact fun mine => other (sender.symm.trans mine)
  | _ => exact ⟨fun _ => id, by simp [Untold]⟩

theorem own_turn {server next : Server} {event : Event} {made : List Call} {k : Nat}
    {reader : Reader} (found : server.readers[k]? = some reader)
    (idle : reader.pc = .reading ∨ reader.pc = .ended) (turn : Turn server event next made)
    (mine : Turns k event) (only : ReadsOnly (.bytes []) event) :
    reader.pc = .reading ∧ next = setReader server k reader .ended ∧ made = [.sawEnd k] := by
  have busy : ∀ {j other message i}, server.readers[j]? = some other → j = k →
      other.pc = .test message i ∨ other.pc = .send message i → False := by
    rintro j other message i here rfl pc
    rw [found, Option.some.injEq] at here
    subst here
    rcases idle with reading | ended
    · simp [reading] at pc
    · simp [ended] at pc
  cases turn with
  | ended j other here reading =>
      cases show j = k from mine
      rw [found, Option.some.injEq] at here
      subst here
      exact ⟨reading, rfl, rfl⟩
  | received j other result message here reading more => exact absurd only more
  | skipped j other message i here pc | chosen j other message i here pc
  | finished j other message i here pc => exact (busy here mine (.inl pc)).elim
  | sent j other message i here pc => exact (busy here mine (.inr pc)).elim
  | _ => exact mine.elim

theorem reading_setEnded {server : Server} {k : Nat} {reader : Reader}
    (found : server.readers[k]? = some reader) :
    ¬ Reading (setReader server k reader .ended) k := by
  rintro ⟨other, here, reading⟩
  simp only [setReader, List.getElem?_set_self (List.getElem?_eq_some_iff.mp found).choose,
    Option.mem_some_iff] at here
  rw [← here] at reading
  cases reading

structure AtEnd (k : Nat) (server : Server) : Prop where
  signed : Signed server
  idle : ∃ reader ∈ server.readers[k]?, reader.pc = .reading ∨ reader.pc = .ended

theorem atEnd_turn {server next : Server} {event : Event} {made : List Call} {k : Nat}
    (at_end : AtEnd k server) (only : Turns k event → ReadsOnly (.bytes []) event)
    (turn : Turn server event next made) :
    AtEnd k next ∧ (∀ call ∈ made, Untold k call) ∧
      (if Reading next k then 1 else 0) + (if Turns k event then 1 else 0) ≤
        if Reading server k then 1 else 0 := by
  obtain ⟨reader, found, idle⟩ := at_end.idle
  have signed := signed_turn at_end.signed turn
  by_cases mine : Turns k event
  · obtain ⟨reading, rfl, rfl⟩ := own_turn found idle turn mine (only mine)
    have before : Reading server k := ⟨reader, found, reading⟩
    refine ⟨⟨signed, { reader with pc := .ended }, ?_, .inr rfl⟩, by simp [Untold], ?_⟩
    · exact List.getElem?_set_self (List.getElem?_eq_some_iff.mp found).choose
    · simp [reading_setEnded found, mine, before]
  · obtain ⟨kept, untold⟩ := other_turn at_end.signed turn mine
    have here := kept reader found
    refine ⟨⟨signed, reader, here, idle⟩, untold, ?_⟩
    have same : Reading next k ↔ Reading server k := by
      simp only [Reading, here, show server.readers[k]? = some reader from found]
    simp [same, mine]

theorem signed_run {beyond : Nat → Int} {events : List Event} {server : Server}
    {calls : List Call} (ran : exec step (start beyond) events = some (server, calls)) :
    Signed server :=
  Machine.exec_invariant (fun _ => Signed)
    (fun _ _ _ _ _ signed taken => signed_turn signed (turn_of_step taken))
    (signed_start beyond) ran

theorem reader_ends_iff (k : Nat) (ending : StreamEnd) (beyond : Nat → Int)
    (events : List Event) (server : Server) (calls : List Call)
    (ran : exec step (start beyond) events = some (server, calls)) (reading : Reading server k)
    (runs : server.pc ≠ .exited) : ReaderEnds k ending server ↔ ending = .zero := by
  obtain ⟨reader, found, pc⟩ := reading
  rw [Option.mem_def] at found
  constructor
  · intro ends
    cases ending with
    | zero => rfl
    -- `rcvBuffer[-1]`
    | minusOne =>
        have taken : step server (.read k .error) = some (readSock server k reader .error) := by
          simp [step, runs, found, pc]
        refine absurd ends (Endings.not_ends_of_loud ?_ (Machine.exec_single taken)
          List.mem_cons_self ?_)
        · simp [ReadsOnly, StreamEnd.result]
        · simp [Untold]
  · rintro rfl
    apply Endings.ends_of_measure (AtEnd k) (fun server => if Reading server k then 1 else 0)
    · exact fun _ _ _ _ at_end only taken => atEnd_turn at_end only (turn_of_step taken)
    · intro server at_end
      by_cases gone : server.pc = .exited
      · exact .inl (.inl gone)
      · rw [or_iff_not_imp_left]
        intro here
        simp only [Gone, gone, false_or, not_not] at here
        obtain ⟨reader, found, pc⟩ := here
        rw [Option.mem_def] at found
        exact ⟨.read k (.bytes []), rfl, rfl, by simp [step, gone, found, pc]⟩
    · exact ⟨signed_run ran, reader, found, .inl pc⟩

end ChatServer

/-! `do_socket` of the talk server. -/

namespace TalkPair

/-- The loop alone, with whatever its reads return: at 0 and at -1 it goes round. -/
def socketLoop : Step System ReadResult Call := fun system result =>
  match system.socket, result with
  | .reading, .bytes data =>
      if fits : data.length ≤ BUFSIZ then some (do_socket system data fits system.link) else none
  | .reading, .error => some (system, [])
  | .stopped, _ => none

/-- `do_socket` ends with the connection. -/
def SocketEnds (ending : StreamEnd) (system : System) : Prop :=
  Ends socketLoop (fun _ => True) (· = ending.result) (fun call => ∀ chunk, call ≠ .write chunk)
    (fun system => system.socket = .stopped) system

theorem socketLoop_end {system : System} (here : system.socket = .reading) (ending : StreamEnd) :
    socketLoop system ending.result = some (system, []) := by
  cases ending with
  | zero =>
      simp only [socketLoop, here, StreamEnd.result, do_socket, List.length_nil, Nat.zero_le,
        dif_pos, if_true]
      rw [← here]
  | minusOne => simp [socketLoop, here, StreamEnd.result]

theorem socket_ends_iff_stopped (ending : StreamEnd) (system : System) :
    SocketEnds ending system ↔ system.socket = .stopped := by
  constructor
  · intro ends
    rcases pc : system.socket with _ | _
    -- nothing in the state changes, so the step comes back for ever
    · refine absurd ends (Endings.not_ends_of_loop (fun system => system.socket = .reading) ?_ pc)
      intro system here
      exact ⟨ending.result, system, [], trivial, rfl, socketLoop_end here ending, here⟩
    · rfl
  · intro stopped
    apply Endings.ends_of_measure (fun system => system.socket = .stopped) (fun _ => 0)
    · intro system result next made here _ taken
      simp [socketLoop, here] at taken
    · exact fun _ here => .inl here
    · exact stopped

theorem do_socket_socket (system : System) (data : Bytes) (fits : data.length ≤ BUFSIZ)
    (link : Channel.Link UInt8) :
    (do_socket system data fits link).1.socket =
      if BeginsQuit data then .stopped else system.socket := by
  have short : ¬ BeginsQuit [] := not_begins_short (by decide)
  simp only [do_socket, begins_received]
  by_cases nothing : data = []
  · subst nothing
    simp [short]
  · by_cases word : BeginsQuit data <;> simp [nothing, word]

theorem stopped_stays {results : List ReadResult} {start last : System} {calls : List Call}
    (stopped : start.socket = .stopped)
    (ran : exec socketLoop start results = some (last, calls)) : last = start := by
  cases results with
  | nil =>
      simp only [exec, Option.some.injEq, Prod.mk.injEq] at ran
      exact ran.1.symm
  | cons result rest => simp [exec, socketLoop, stopped] at ran

/-- It stops at the word, and at nothing else. -/
theorem socketLoop_stopped_iff {results : List ReadResult} {start last : System}
    {calls : List Call} (here : start.socket = .reading)
    (ran : exec socketLoop start results = some (last, calls)) :
    last.socket = .stopped ↔ ∃ data, .bytes data ∈ results ∧ BeginsQuit data := by
  induction results generalizing start calls with
  | nil =>
      simp only [exec, Option.some.injEq, Prod.mk.injEq] at ran
      simp [← ran.1, here]
  | cons result rest ih =>
      obtain ⟨next, made, later, taken, tail, rfl⟩ := (Machine.exec_cons_iff ..).mp ran
      rcases result with data | _
      · simp only [socketLoop, here, Option.dite_none_right_eq_some, Option.some.injEq] at taken
        obtain ⟨fits, taken⟩ := taken
        have socket := do_socket_socket start data fits start.link
        rw [taken] at socket
        by_cases word : BeginsQuit data
        · rw [if_pos word] at socket
          rw [stopped_stays socket tail]
          exact iff_of_true socket ⟨data, List.mem_cons_self, word⟩
        · rw [if_neg word, here] at socket
          rw [ih socket tail]
          simp [word]
      · simp only [socketLoop, here, Option.some.injEq, Prod.mk.injEq] at taken
        obtain ⟨rfl, rfl⟩ := taken
        simpa using ih here tail

end TalkPair

/-! The session loop of tue/echo. -/

namespace LineServer

def AtEnd (ending : StreamEnd) : Event → Prop
  | .read result => result = ending.data
  | .write _ => True

/-- The session loop ends with the connection. -/
def SessionEnds (ending : StreamEnd) (server : Server) : Prop :=
  Ends step (fun _ => True) (AtEnd ending) (fun call => ∀ data, call ≠ .write data)
    (fun server => server.pc = .closed) server

theorem step_end {server : Server} (here : server.pc = .reading) (ending : StreamEnd) :
    step server (.read ending.data) = some (ended server.reader) := by
  cases ending <;> simp [step, here, StreamEnd.data]

theorem session_ends_iff (ending : StreamEnd) (server : Server) (here : server.pc = .reading) :
    SessionEnds ending server ↔ server.reader.finish.text = quit := by
  constructor
  -- any other unfinished line is echoed to the peer that has gone
  · intro ends
    by_contra other
    have read := step_end here ending
    rw [ended, if_neg other] at read
    have wrote : step { pc := .writing, reader := server.reader.finish } (.write true) =
        some ({ pc := .reading, reader := again server.reader.finish },
          [.write (server.reader.finish.text ++ [0])]) := rfl
    have ran := (Machine.exec_cons_iff ..).mpr
      ⟨_, _, _, read, Machine.exec_single wrote, rfl⟩
    refine Endings.not_ends_of_loud ?_ ran (List.mem_append_right _ List.mem_cons_self) ?_ ends
    · simp [AtEnd]
    · exact fun quiet => quiet _ rfl
  · intro last
    apply Endings.ends_of_measure
      (fun server => server.pc = .closed ∨ server.pc = .reading ∧ server.reader.finish.text = quit)
      (fun server => if server.pc = .closed then 0 else 1)
    · rintro server event next made (closed | ⟨here, last⟩) only taken
      · simp [step, closed] at taken
      · cases event with
        | write ok => simp [step, here] at taken
        | read result =>
            obtain rfl := only trivial
            rw [step_end here, ended, if_pos last] at taken
            cases taken
            simp [here]
    · rintro server (closed | ⟨here, last⟩)
      · exact .inl closed
      · exact .inr ⟨.read ending.data, trivial, rfl, by rw [step_end here]; rfl⟩
    · exact .inr ⟨here, last⟩

end LineServer

namespace LoopEnds

/-- What each of the loops makes of the end of its connection. -/
theorem loops_end_iff (ending : StreamEnd)
    (listenSock : Int) (k : Nat) (server : ForkServer.Server) (child : ForkServer.Child)
    (number : Nat) (found : server.children[k]? = some child) (active : child.status = .echoing)
    (connected : child.target = .connection number)
    (beyond : Nat → Int) (j : Nat) (chats : List ChatServer.Event) (chat : ChatServer.Server)
    (chatCalls : List ChatServer.Call)
    (chatted : exec ChatServer.step (ChatServer.start beyond) chats = some (chat, chatCalls))
    (reads : ChatServer.Reading chat j) (runs : chat.pc ≠ .exited)
    (sbuf rbuf : Memory BUFSIZ) (results : List ReadResult) (talk : TalkPair.System)
    (talkCalls : List TalkPair.Call)
    (talked : exec TalkPair.socketLoop (TalkPair.start sbuf rbuf) results = some (talk, talkCalls))
    (line : LineServer.Server) (here : line.pc = .reading) :
    (ForkServer.EchoEnds listenSock k ending server ↔ ending = .zero) ∧
      (ChatServer.ReaderEnds j ending chat ↔ ending = .zero) ∧
      (TalkPair.SocketEnds ending talk ↔
        ∃ data, .bytes data ∈ results ∧ TalkPair.BeginsQuit data) ∧
      (LineServer.SessionEnds ending line ↔ line.reader.finish.text = LineServer.quit) :=
  ⟨ForkServer.echo_ends_iff listenSock k ending server child number found active connected,
    ChatServer.reader_ends_iff j ending beyond chats chat chatCalls chatted reads runs,
    (TalkPair.socket_ends_iff_stopped ending talk).trans
      (TalkPair.socketLoop_stopped_iff rfl talked),
    LineServer.session_ends_iff ending line here⟩

/-- One client of each server; that of the line server has typed `quit` without
a line feed. -/
def oneChild : List ForkServer.Event := [.callAccept, .accept 4, .fork, .childRead 0 (.bytes [104]) 1]

def oneChat : List ChatServer.Event := [.accept 4, .count .socketFirst, .create]

def lastLine : LineServer.Server where
  pc := .reading
  reader := {
    buffer := (Memory.zeros BUFSIZ).store LineServer.quit (by decide), place := 4, length := 4 }

theorem loops_end_closed :
    ∃ server calls chat chatCalls talk talkCalls,
      exec (ForkServer.step 3) ForkServer.start oneChild = some (server, calls) ∧
      exec ChatServer.step (ChatServer.start fun _ => 0) oneChat = some (chat, chatCalls) ∧
      exec TalkPair.socketLoop (TalkPair.start (Memory.zeros BUFSIZ) (Memory.zeros BUFSIZ))
        [.bytes TalkPair.quit] = some (talk, talkCalls) ∧
      ForkServer.EchoEnds 3 0 .zero server ∧ ChatServer.ReaderEnds 0 .zero chat ∧
      TalkPair.SocketEnds .zero talk ∧ LineServer.SessionEnds .zero lastLine := by
  obtain ⟨server, calls, echoed, child⟩ : ∃ server calls,
      exec (ForkServer.step 3) ForkServer.start oneChild = some (server, calls) ∧
        server.children[0]? = some ⟨4, .connection 0, .echoing⟩ := ⟨_, _, rfl, rfl⟩
  obtain ⟨chat, chatCalls, chatted, reads, runs⟩ : ∃ chat chatCalls,
      exec ChatServer.step (ChatServer.start fun _ => 0) oneChat = some (chat, chatCalls) ∧
        ChatServer.Reading chat 0 ∧ chat.pc ≠ .exited :=
    ⟨_, _, rfl, ⟨⟨4, .reading⟩, rfl, rfl⟩, by simp⟩
  obtain ⟨talk, talkCalls, talked⟩ : ∃ talk talkCalls,
      exec TalkPair.socketLoop (TalkPair.start (Memory.zeros BUFSIZ) (Memory.zeros BUFSIZ))
        [.bytes TalkPair.quit] = some (talk, talkCalls) := ⟨_, _, rfl⟩
  have holds := loops_end_iff .zero 3 0 server _ 0 child rfl rfl (fun _ => 0) 0 oneChat chat
    chatCalls chatted reads runs _ _ [.bytes TalkPair.quit] talk talkCalls talked lastLine rfl
  refine ⟨server, calls, chat, chatCalls, talk, talkCalls, echoed, chatted, talked,
    holds.1.mpr rfl, holds.2.1.mpr rfl, holds.2.2.1.mpr ?_, holds.2.2.2.mpr ?_⟩
  · exact ⟨TalkPair.quit, List.mem_cons_self, rfl⟩
  · decide

/-- The client of the talk server says `h` and hangs up: `do_socket` reads 0 for
ever. -/
theorem socket_goes_round :
    ¬ ∀ (ending : StreamEnd) (sbuf rbuf : Memory BUFSIZ) (results : List ReadResult)
      (talk : TalkPair.System) (talkCalls : List TalkPair.Call),
      exec TalkPair.socketLoop (TalkPair.start sbuf rbuf) results = some (talk, talkCalls) →
        TalkPair.SocketEnds ending talk := by
  intro all
  have ends := all .zero (Memory.zeros BUFSIZ) (Memory.zeros BUFSIZ) [.bytes [104]] _ _ rfl
  have stopped := (TalkPair.socket_ends_iff_stopped ..).mp ends
  revert stopped
  decide

end LoopEnds

end NetworkTest
