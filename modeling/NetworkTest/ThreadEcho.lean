import NetworkTest.Descriptors
import NetworkTest.Projection

/-!
The thread-per-connection echo servers of thu/echo_thread and fri/sock_opt: the
accept loop of `main` and one `func_thread` for each connection, in any
interleaving, with descriptor numbers that are used again. The two programs
differ in a socket option only.
-/

namespace NetworkTest.ThreadEcho

open CBuffer (Bytes BUFSIZ Memory cstring)
open Descriptors (ReadResult Table Target lookup readPossible)
open Machine (Step exec Along)

/-- `failing` is between a `read` that returned -1 and its `write`. -/
inductive Pc where
  | reading
  | writing (data : Bytes)
  | failing
  | closing
  | ended
  deriving DecidableEq

structure Worker where
  pc : Pc
  rcvBuffer : Memory BUFSIZ

inductive Act where
  | read (result : ReadResult)
  | write (taken : Nat)
  | close
  deriving DecidableEq

inductive Made where
  | read (data : Bytes)
  | store (index : Int)
  | printed (text : Bytes)
  | write (data : Bytes)
  | close
  deriving DecidableEq

/-- `func_thread`, behind the message that it has started. -/
def func_thread : Step Worker Act Made := fun worker act =>
  match worker.pc, act with
  | .reading, .read (.bytes data) =>
      if fits : data.length ≤ BUFSIZ then
        if data = [] then some ({ worker with pc := .closing }, [.read []])
        else
          let rcvBuffer := (worker.rcvBuffer.store data fits).set data.length 0
          some ({ pc := .writing data, rcvBuffer := rcvBuffer },
            [.read data, .store data.length, .printed (cstring rcvBuffer.val)])
      else none
  | .reading, .read .error =>
      some ({ worker with pc := .failing },
        [.store (-1), .printed (cstring worker.rcvBuffer.val)])
  | .writing data, .write taken =>
      if taken ≤ data.length then
        some ({ worker with pc := .reading }, [.write (data.take taken)])
      else none
  -- a count of -1 is refused
  | .failing, .write taken =>
      if taken = 0 then some ({ worker with pc := .reading }, [.write []]) else none
  | .closing, .close => some ({ worker with pc := .ended }, [.close])
  | _, _ => none

structure Thread where
  socket : Int
  worker : Worker

inductive Main where
  | accepting
  | creating (c_socket : Int)
  | sleeping
  | exited
  deriving DecidableEq

structure Server where
  pc : Main
  opened : Table
  accepted : Nat
  threads : List Thread

inductive Event where
  | accept (result : Int)
  | create (made : Bool)
  | wake
  | thread (k : Nat) (act : Act)
  deriving DecidableEq

inductive Call where
  | started (k : Nat) (c_socket : Int)
  | thread (k : Nat) (target : Target) (made : Made)
  deriving DecidableEq

/-- What the kernel lets a thread do with what is behind its descriptor. -/
def possible (target : Target) : Act → Bool
  | .read result => readPossible target result
  | .write taken =>
      match target with
      | .connection _ => true
      | _ => decide (taken = 0)
  | .close => true

def closed (opened : Table) (socket : Int) : Act → Table
  | .close => opened.filter (fun entry => entry.1 ≠ socket)
  | _ => opened

/-- A thread begins with whatever is on its stack. -/
def step (stack : Nat → Memory BUFSIZ) (listenSock : Int) : Step Server Event Call :=
  fun server event =>
    match server.pc, event with
    | .exited, _ => none
    | .accepting, .accept result =>
        -- the result is not looked at
        if result = -1 then some ({ server with pc := .creating result }, [])
        else if 0 ≤ result ∧ result ≠ listenSock ∧ lookup result server.opened = .closed then
          some ({ server with
            pc := .creating result
            opened := (result, server.accepted) :: server.opened
            accepted := server.accepted + 1 }, [])
        else none
    | .creating c_socket, .create true =>
        some ({ server with
            pc := .sleeping
            threads := server.threads ++
              [{ socket := c_socket
                 worker := { pc := .reading, rcvBuffer := stack server.threads.length } }] },
          [.started server.threads.length c_socket])
    | .creating _, .create false => some ({ server with pc := .exited }, [])
    | .sleeping, .wake => some ({ server with pc := .accepting }, [])
    | _, .thread k act =>
        match server.threads[k]? with
        | none => none
        | some thread =>
            if possible (lookup thread.socket server.opened) act then
              match func_thread thread.worker act with
              | none => none
              | some (worker, made) =>
                  some ({ server with
                      opened := closed server.opened thread.socket act
                      threads := server.threads.set k { thread with worker := worker } },
                    made.map (.thread k (lookup thread.socket server.opened)))
            else none
    | _, _ => none

def start : Server where
  pc := .accepting
  opened := []
  accepted := 0
  threads := []

/-! What one step can do. -/

inductive Goes (worker : Worker) : Act → Worker → List Made → Prop where
  | seesEnd (here : worker.pc = .reading) :
      Goes worker (.read (.bytes [])) { worker with pc := .closing } [.read []]
  | reads (data : Bytes) (fits : data.length ≤ BUFSIZ) (more : data ≠ [])
      (here : worker.pc = .reading) :
      Goes worker (.read (.bytes data))
        { pc := .writing data
          rcvBuffer := (worker.rcvBuffer.store data fits).set data.length 0 }
        [.read data, .store data.length,
          .printed (cstring ((worker.rcvBuffer.store data fits).set data.length 0).val)]
  | readFails (here : worker.pc = .reading) :
      Goes worker (.read .error) { worker with pc := .failing }
        [.store (-1), .printed (cstring worker.rcvBuffer.val)]
  | writes (data : Bytes) (taken : Nat) (few : taken ≤ data.length)
      (here : worker.pc = .writing data) :
      Goes worker (.write taken) { worker with pc := .reading } [.write (data.take taken)]
  | writeFails (here : worker.pc = .failing) :
      Goes worker (.write 0) { worker with pc := .reading } [.write []]
  | closes (here : worker.pc = .closing) :
      Goes worker .close { worker with pc := .ended } [.close]

theorem goes_of_func_thread {worker next : Worker} {act : Act} {made : List Made}
    (went : func_thread worker act = some (next, made)) : Goes worker act next made := by
  unfold func_thread at went
  split at went
  case h_1 data here =>
      simp only [Option.dite_none_right_eq_some] at went
      obtain ⟨fits, went⟩ := went
      split at went
      case isTrue empty =>
          subst empty
          cases went
          exact .seesEnd here
      case isFalse more =>
          cases went
          exact .reads data fits more here
  case h_2 here =>
      cases went
      exact .readFails here
  case h_3 data taken here =>
      simp only [Option.ite_none_right_eq_some, Option.some.injEq, Prod.mk.injEq] at went
      obtain ⟨few, rfl, rfl⟩ := went
      exact .writes data taken few here
  case h_4 taken here =>
      simp only [Option.ite_none_right_eq_some, Option.some.injEq, Prod.mk.injEq] at went
      obtain ⟨rfl, rfl, rfl⟩ := went
      exact .writeFails here
  case h_5 here =>
      cases went
      exact .closes here
  case h_6 => contradiction

inductive Turn (stack : Nat → Memory BUFSIZ) (listenSock : Int) (server : Server) :
    Event → Server → List Call → Prop where
  | refused (here : server.pc = .accepting) :
      Turn stack listenSock server (.accept (-1)) { server with pc := .creating (-1) } []
  | accepted (fd : Int) (here : server.pc = .accepting) (valid : 0 ≤ fd)
      (free : lookup fd server.opened = .closed) :
      Turn stack listenSock server (.accept fd)
        { server with
          pc := .creating fd
          opened := (fd, server.accepted) :: server.opened
          accepted := server.accepted + 1 } []
  | created (c_socket : Int) (here : server.pc = .creating c_socket) :
      Turn stack listenSock server (.create true)
        { server with
          pc := .sleeping
          threads := server.threads ++
            [{ socket := c_socket
               worker := { pc := .reading, rcvBuffer := stack server.threads.length } }] }
        [.started server.threads.length c_socket]
  | failed (c_socket : Int) (here : server.pc = .creating c_socket) :
      Turn stack listenSock server (.create false) { server with pc := .exited } []
  | wakes (here : server.pc = .sleeping) :
      Turn stack listenSock server .wake { server with pc := .accepting } []
  | acts (k : Nat) (thread : Thread) (act : Act) (worker : Worker) (made : List Made)
      (found : server.threads[k]? = some thread)
      (able : possible (lookup thread.socket server.opened) act = true)
      (went : func_thread thread.worker act = some (worker, made)) :
      Turn stack listenSock server (.thread k act)
        { server with
          opened := closed server.opened thread.socket act
          threads := server.threads.set k { thread with worker := worker } }
        (made.map (.thread k (lookup thread.socket server.opened)))

theorem turn_of_step {stack : Nat → Memory BUFSIZ} {listenSock : Int} {server next : Server}
    {event : Event} {made : List Call}
    (taken : step stack listenSock server event = some (next, made)) :
    Turn stack listenSock server event next made := by
  unfold step at taken
  split at taken
  case h_1 => contradiction
  case h_2 result here =>
      split at taken
      case isTrue minusOne =>
          subst minusOne
          cases taken
          exact .refused here
      case isFalse =>
          simp only [Option.ite_none_right_eq_some, Option.some.injEq, Prod.mk.injEq] at taken
          obtain ⟨⟨valid, _, free⟩, rfl, rfl⟩ := taken
          exact .accepted result here valid free
  case h_3 c_socket here =>
      cases taken
      exact .created c_socket here
  case h_4 c_socket here =>
      cases taken
      exact .failed c_socket here
  case h_5 here =>
      cases taken
      exact .wakes here
  case h_6 k act _ =>
      split at taken
      case h_1 => contradiction
      case h_2 thread found =>
          simp only [Option.ite_none_right_eq_some] at taken
          obtain ⟨able, taken⟩ := taken
          split at taken
          case h_1 => contradiction
          case h_2 worker made went =>
              cases taken
              exact .acts k thread act worker made found able went
  case h_7 => contradiction

/-! Each thread goes its own way. -/

def Server.worker (stack : Nat → Memory BUFSIZ) (k : Nat) (server : Server) : Worker :=
  (server.threads[k]?.map Thread.worker).getD { pc := .reading, rcvBuffer := stack k }

def actOf (k : Nat) : Event → Option Act
  | .thread j act => if j = k then some act else none
  | _ => none

def madeOf (k : Nat) : Call → Option Made
  | .thread j _ made => if j = k then some made else none
  | _ => none

theorem madeOf_self (k : Nat) (target : Target) (made : List Made) :
    (made.map (Call.thread k target)).filterMap (madeOf k) = made := by
  induction made with
  | nil => rfl
  | cons first rest ih => simpa [madeOf] using ih

theorem madeOf_other {j k : Nat} (differs : j ≠ k) (target : Target) (made : List Made) :
    (made.map (Call.thread j target)).filterMap (madeOf k) = [] := by
  induction made with
  | nil => rfl
  | cons first rest ih => simp [madeOf, differs]

theorem worker_silent {stack : Nat → Memory BUFSIZ} {listenSock : Int} {k : Nat}
    {server next : Server} {event : Event} {made : List Call}
    (taken : step stack listenSock server event = some (next, made))
    (other : actOf k event = none) :
    next.worker stack k = server.worker stack k ∧ made.filterMap (madeOf k) = [] := by
  cases turn_of_step taken with
  | refused here => exact ⟨rfl, rfl⟩
  | accepted fd here valid free => exact ⟨rfl, rfl⟩
  | created c_socket here =>
      refine ⟨?_, rfl⟩
      by_cases inside : k < server.threads.length
      · simp only [Server.worker]
        rw [List.getElem?_append_left inside]
      · by_cases last : k = server.threads.length
        · subst last
          simp [Server.worker]
        · simp only [Server.worker]
          rw [List.getElem?_eq_none, List.getElem?_eq_none (Nat.not_lt.mp inside)]
          rw [List.length_append, List.length_singleton]
          omega
  | failed c_socket here => exact ⟨rfl, rfl⟩
  | wakes here => exact ⟨rfl, rfl⟩
  | acts j thread act worker made found able went =>
      have differs : j ≠ k := by
        intro same
        simp [actOf, same] at other
      refine ⟨?_, madeOf_other differs _ _⟩
      simp only [Server.worker]
      rw [List.getElem?_set_ne differs]

theorem worker_acts {stack : Nat → Memory BUFSIZ} {listenSock : Int} {k : Nat}
    {server next : Server} {event : Event} {act : Act} {made : List Call}
    (taken : step stack listenSock server event = some (next, made))
    (own : actOf k event = some act) :
    func_thread (server.worker stack k) act =
      some (next.worker stack k, made.filterMap (madeOf k)) := by
  cases turn_of_step taken with
  | acts j thread other worker made found able went =>
      simp only [actOf, Option.ite_none_right_eq_some, Option.some.injEq] at own
      obtain ⟨rfl, rfl⟩ := own
      have inside := (List.getElem?_eq_some_iff.mp found).choose
      rw [madeOf_self]
      simp only [Server.worker, found, Option.map_some, Option.getD_some,
        List.getElem?_set_self inside]
      exact went
  | refused here => simp [actOf] at own
  | accepted fd here valid free => simp [actOf] at own
  | created c_socket here => simp [actOf] at own
  | failed c_socket here => simp [actOf] at own
  | wakes here => simp [actOf] at own

theorem worker_run {stack : Nat → Memory BUFSIZ} {listenSock : Int} {events : List Event}
    {server : Server} {calls : List Call}
    (ran : exec (step stack listenSock) start events = some (server, calls)) (k : Nat) :
    exec func_thread { pc := .reading, rcvBuffer := stack k } (events.filterMap (actOf k)) =
      some (server.worker stack k, calls.filterMap (madeOf k)) :=
  Projection.exec_projects (Server.worker stack k) (actOf k) (madeOf k)
    (fun _ _ _ _ taken other => worker_silent taken other)
    (fun _ _ _ _ _ taken own => worker_acts taken own) ran

/-! Each thread has a connection of its own. -/

def Main.Starts (pc : Main) (opened : Table) (accepted threads : Nat) : Prop :=
  match pc with
  | .creating c_socket => (c_socket, threads) ∈ opened ∧ accepted = threads + 1
  | .exited => True
  | _ => accepted = threads

structure Owned (server : Server) : Prop where
  keys : (server.opened.map Prod.fst).Nodup
  numbers : (server.opened.map Prod.snd).Nodup
  counted : ∀ number ∈ server.opened.map Prod.snd, number < server.accepted
  held : ∀ k thread, server.threads[k]? = some thread → thread.worker.pc ≠ .ended →
    (thread.socket, k) ∈ server.opened
  starts : server.pc.Starts server.opened server.accepted server.threads.length

theorem owned_start : Owned start := by
  constructor <;> simp [start, Main.Starts]

theorem running_of_went {worker next : Worker} {act : Act} {made : List Made}
    (went : func_thread worker act = some (next, made)) : worker.pc ≠ .ended := by
  intro ended
  simp [func_thread, ended] at went

theorem close_of_went {worker next : Worker} {made : List Made}
    (went : func_thread worker .close = some (next, made)) : next.pc = .ended := by
  cases goes_of_func_thread went
  rfl

theorem mem_closed {opened : Table} {socket fd : Int} {k number : Nat} {act : Act}
    (keys : (opened.map Prod.fst).Nodup) (mine : (socket, k) ∈ opened)
    (other : act = .close → number ≠ k) (member : (fd, number) ∈ opened) :
    (fd, number) ∈ closed opened socket act := by
  cases act with
  | read result => exact member
  | write taken => exact member
  | close =>
      refine List.mem_filter.mpr ⟨member, decide_eq_true fun same => ?_⟩
      change fd = socket at same
      subst same
      have entries := List.inj_on_of_nodup_map keys member mine rfl
      exact other rfl (congrArg Prod.snd entries)

theorem closed_sublist (opened : Table) (socket : Int) (act : Act) :
    (closed opened socket act).Sublist opened := by
  cases act with
  | close => exact List.filter_sublist
  | read result => exact List.Sublist.refl _
  | write taken => exact List.Sublist.refl _

theorem owned_turn {stack : Nat → Memory BUFSIZ} {listenSock : Int} {server next : Server}
    {event : Event} {made : List Call} (owned : Owned server) (well : event ≠ .accept (-1))
    (turn : Turn stack listenSock server event next made) : Owned next := by
  obtain ⟨keys, numbers, counted, held, starts⟩ := owned
  cases turn with
  | refused here => exact absurd rfl well
  | accepted fd here valid free =>
      rw [here] at starts
      change server.accepted = server.threads.length at starts
      constructor
      case keys =>
          rw [List.map_cons, List.nodup_cons]
          exact ⟨(Descriptors.lookup_closed_iff ..).mp free, keys⟩
      case numbers =>
          rw [List.map_cons, List.nodup_cons]
          exact ⟨fun member => Nat.lt_irrefl _ (counted _ member), numbers⟩
      case counted =>
          intro number member
          rcases List.mem_cons.mp member with rfl | old
          · exact Nat.lt_succ_self _
          · exact Nat.lt_succ_of_lt (counted number old)
      case held =>
          intro k thread found going
          exact List.mem_cons_of_mem _ (held k thread found going)
      case starts =>
          rw [← starts]
          exact ⟨List.mem_cons_self, rfl⟩
  | created c_socket here =>
      rw [here] at starts
      obtain ⟨entry, accepted⟩ := starts
      refine ⟨keys, numbers, counted, fun k thread found going => ?_, ?_⟩
      · by_cases inside : k < server.threads.length
        · rw [List.getElem?_append_left inside] at found
          exact held k thread found going
        · rw [List.getElem?_append_right (Nat.not_lt.mp inside)] at found
          obtain ⟨last, same⟩ := List.getElem?_eq_some_iff.mp found
          rw [List.length_singleton] at last
          obtain rfl : k = server.threads.length := by omega
          rw [List.getElem_singleton] at same
          subst same
          exact entry
      · simpa [Main.Starts] using accepted
  | failed c_socket here => exact ⟨keys, numbers, counted, held, trivial⟩
  | wakes here =>
      rw [here] at starts
      exact ⟨keys, numbers, counted, held, starts⟩
  | acts k thread act worker made found able went =>
      have mine := held k thread found (running_of_went went)
      have sub := closed_sublist server.opened thread.socket act
      constructor
      case keys => exact keys.sublist (sub.map Prod.fst)
      case numbers => exact numbers.sublist (sub.map Prod.snd)
      case counted => exact fun number member => counted number ((sub.map Prod.snd).subset member)
      case held =>
          intro j other there going
          by_cases same : j = k
          · subst same
            have inside := (List.getElem?_eq_some_iff.mp found).choose
            simp only [List.getElem?_set_self inside, Option.some.injEq] at there
            subst there
            refine mem_closed keys mine (fun closes => ?_) mine
            subst closes
            exact absurd (close_of_went went) going
          · rw [List.getElem?_set_ne (Ne.symm same)] at there
            exact mem_closed keys mine (fun _ => same) (held j other there going)
      case starts =>
          rw [List.length_set]
          cases pc : server.pc with
          | creating c_socket =>
              rw [pc] at starts
              have inside := (List.getElem?_eq_some_iff.mp found).choose
              exact ⟨mem_closed keys mine (fun _ => by omega) starts.1, starts.2⟩
          | accepting =>
              rw [pc] at starts
              exact starts
          | sleeping =>
              rw [pc] at starts
              exact starts
          | exited => trivial

/-- What a thread does, it does on the connection it was started for. -/
def Own : Call → Prop
  | .started _ _ => True
  | .thread k target _ => target = .connection k

theorem own_turn {stack : Nat → Memory BUFSIZ} {listenSock : Int} {server next : Server}
    {event : Event} {made : List Call} (owned : Owned server)
    (turn : Turn stack listenSock server event next made) : ∀ call ∈ made, Own call := by
  cases turn with
  | acts k thread act worker made found able went =>
      have mine := owned.held k thread found (running_of_went went)
      intro call member
      obtain ⟨each, _, rfl⟩ := List.mem_map.mp member
      exact (Descriptors.lookup_eq_iff owned.keys).mpr mine
  | created c_socket here => simp [Own]
  | _ => simp

theorem own_run {stack : Nat → Memory BUFSIZ} {listenSock : Int} {events : List Event}
    {server : Server} {calls : List Call} (well : ∀ event ∈ events, event ≠ .accept (-1))
    (ran : exec (step stack listenSock) start events = some (server, calls)) :
    ∀ call ∈ calls, Own call := by
  have kept := Machine.exec_invariant_forall
    (fun calls server => Owned server ∧ ∀ call ∈ calls, Own call)
    (fun before server event next made holds well taken => by
      have turn := turn_of_step taken
      exact ⟨owned_turn holds.1 well turn,
        List.forall_mem_append.mpr ⟨holds.2, own_turn holds.1 turn⟩⟩)
    ⟨owned_start, by simp⟩ well ran
  exact kept.2

/-- While every `accept` succeeds, the k-th thread serves the k-th connection,
and does so as if it were alone. -/
theorem threads_apart (stack : Nat → Memory BUFSIZ) (listenSock : Int) (events : List Event)
    (server : Server) (calls : List Call) (well : ∀ event ∈ events, event ≠ .accept (-1))
    (ran : exec (step stack listenSock) start events = some (server, calls)) :
    (∀ call ∈ calls, Own call) ∧
      ∀ k, exec func_thread { pc := .reading, rcvBuffer := stack k }
        (events.filterMap (actOf k)) =
          some (server.worker stack k, calls.filterMap (madeOf k)) :=
  ⟨own_run well ran, worker_run ran⟩

/-- Two connections; the first ends, and a third takes over its number while the
second is being served. -/
def takenOver : List Event :=
  [.accept 4, .create true, .wake, .thread 0 (.read (.bytes [97, 98])), .accept 5,
    .create true, .wake, .thread 1 (.read (.bytes [99])), .thread 0 (.write 2),
    .thread 0 (.read (.bytes [])), .thread 0 .close, .accept 4, .create true,
    .thread 2 (.read (.bytes [100])), .thread 1 (.write 1), .thread 2 (.write 1)]

def zeros (_ : Nat) : Memory BUFSIZ := Memory.zeros BUFSIZ

theorem threads_apart_takenOver :
    ∃ server calls, exec (step zeros 3) start takenOver = some (server, calls) ∧
      ∀ call ∈ calls, Own call := by
  have runs : (exec (step zeros 3) start takenOver).isSome = true := by decide +kernel
  obtain ⟨server, calls, ran⟩ := Machine.exec_of_isSome runs
  exact ⟨server, calls, ran,
    (threads_apart zeros 3 takenOver server calls (by simp [takenOver]) ran).1⟩

/-! What each connection gets back. -/

def Made.readBytes : Made → Bytes
  | .read data => data
  | _ => []

def Made.writtenBytes : Made → Bytes
  | .write data => data
  | _ => []

/-- What a thread has read and not written yet. -/
def Pc.inHand : Pc → Bytes
  | .writing data => data
  | _ => []

/-- A `write` takes all it is given. -/
def Whole (worker : Worker) : Act → Prop
  | .write taken => taken = worker.pc.inHand.length
  | _ => True

theorem hand_goes {worker next : Worker} {act : Act} {made : List Made}
    (whole : Whole worker act) (goes : Goes worker act next made) :
    worker.pc.inHand ++ made.flatMap Made.readBytes =
      made.flatMap Made.writtenBytes ++ next.pc.inHand := by
  cases goes with
  | writes data taken few here =>
      obtain rfl : taken = data.length := by simpa [Whole, here, Pc.inHand] using whole
      simp [here, Pc.inHand, Made.readBytes, Made.writtenBytes]
  | seesEnd here => simp [here, Pc.inHand, Made.readBytes, Made.writtenBytes]
  | reads data fits more here => simp [here, Pc.inHand, Made.readBytes, Made.writtenBytes]
  | readFails here => simp [here, Pc.inHand, Made.readBytes, Made.writtenBytes]
  | writeFails here => simp [here, Pc.inHand, Made.readBytes, Made.writtenBytes]
  | closes here => simp [here, Pc.inHand, Made.readBytes, Made.writtenBytes]

theorem worker_echoes {worker : Worker} {acts : List Act} {made : List Made}
    {rcvBuffer : Memory BUFSIZ}
    (whole : Along func_thread Whole { pc := .reading, rcvBuffer := rcvBuffer } acts)
    (ran : exec func_thread { pc := .reading, rcvBuffer := rcvBuffer } acts =
      some (worker, made)) :
    made.flatMap Made.readBytes = made.flatMap Made.writtenBytes ++ worker.pc.inHand := by
  refine Machine.exec_invariant_along
    (fun made worker =>
      made.flatMap Made.readBytes = made.flatMap Made.writtenBytes ++ worker.pc.inHand)
    ?_ rfl whole ran
  intro before worker act next made echoed whole went
  have hand := hand_goes whole (goes_of_func_thread went)
  rw [List.flatMap_append, List.flatMap_append, echoed, List.append_assoc, hand,
    List.append_assoc]

def moved (bytes : Made → Bytes) (number : Nat) : Call → Bytes
  | .thread _ (.connection other) made => if other = number then bytes made else []
  | _ => []

def readFrom (number : Nat) (calls : List Call) : Bytes :=
  calls.flatMap (moved Made.readBytes number)

def writtenTo (number : Nat) (calls : List Call) : Bytes :=
  calls.flatMap (moved Made.writtenBytes number)

theorem moved_own (bytes : Made → Bytes) (number : Nat) {calls : List Call}
    (own : ∀ call ∈ calls, Own call) :
    calls.flatMap (moved bytes number) = (calls.filterMap (madeOf number)).flatMap bytes := by
  induction calls with
  | nil => rfl
  | cons call rest ih =>
      rw [List.forall_mem_cons] at own
      rw [List.flatMap_cons, ih own.2]
      cases call with
      | started k c_socket => rfl
      | thread k target made =>
          obtain rfl : target = .connection k := own.1
          by_cases same : k = number
          · simp [moved, madeOf, same]
          · simp [moved, madeOf, same]

/-- Accepts succeed, and writes take all they are given. -/
def EchoOk (stack : Nat → Memory BUFSIZ) (server : Server) : Event → Prop
  | .accept result => result ≠ -1
  | .thread k act => Whole (server.worker stack k) act
  | _ => True

theorem accepts_of_echoOk {stack : Nat → Memory BUFSIZ} {listenSock : Int}
    {events : List Event} {server : Server} {calls : List Call}
    (echo : Along (step stack listenSock) (EchoOk stack) start events)
    (ran : exec (step stack listenSock) start events = some (server, calls)) :
    ∀ event ∈ events, event ≠ .accept (-1) := by
  have all : Along (step stack listenSock) (fun _ event => event ≠ .accept (-1)) start events := by
    refine Machine.along_mono start events ?_ echo
    rintro server event met rfl
    exact met rfl
  exact (Machine.along_iff_forall ran).mp all

instance (stack : Nat → Memory BUFSIZ) (server : Server) :
    (event : Event) → Decidable (EchoOk stack server event)
  | .accept result => inferInstanceAs (Decidable (result ≠ -1))
  | .thread k (.write taken) =>
      inferInstanceAs (Decidable (taken = (server.worker stack k).pc.inHand.length))
  | .thread _ (.read _) => isTrue trivial
  | .thread _ .close => isTrue trivial
  | .create _ => isTrue trivial
  | .wake => isTrue trivial

/-- The byte stream written to each connection is the one read from it, but for
what its thread has in hand. -/
theorem connections_echoed (stack : Nat → Memory BUFSIZ) (listenSock : Int)
    (events : List Event) (server : Server) (calls : List Call)
    (echo : Along (step stack listenSock) (EchoOk stack) start events)
    (ran : exec (step stack listenSock) start events = some (server, calls)) (number : Nat) :
    readFrom number calls =
      writtenTo number calls ++ (server.worker stack number).pc.inHand := by
  have own := own_run (accepts_of_echoOk echo ran) ran
  have whole : Along func_thread Whole { pc := .reading, rcvBuffer := stack number }
      (events.filterMap (actOf number)) := by
    refine Projection.along_projects (Server.worker stack number) (actOf number)
      (madeOf number) (fun _ _ _ _ taken other => worker_silent taken other)
      (fun _ _ _ _ _ taken own => worker_acts taken own) ?_ echo ran
    intro server event act met seen
    cases event with
    | thread k other =>
        simp only [actOf, Option.ite_none_right_eq_some, Option.some.injEq] at seen
        obtain ⟨rfl, rfl⟩ := seen
        exact met
    | accept result => simp [actOf] at seen
    | create made => simp [actOf] at seen
    | wake => simp [actOf] at seen
  rw [readFrom, writtenTo, moved_own _ _ own, moved_own _ _ own]
  exact worker_echoes whole (worker_run ran number)

theorem connections_echoed_takenOver :
    ∃ server calls, exec (step zeros 3) start takenOver = some (server, calls) ∧
      readFrom 2 calls = writtenTo 2 calls ++ (server.worker zeros 2).pc.inHand := by
  have runs : (exec (step zeros 3) start takenOver).isSome = true := by decide +kernel
  have whole : Machine.misses (step zeros 3) (EchoOk zeros) start takenOver = 0 := by
    decide +kernel
  obtain ⟨server, calls, ran⟩ := Machine.exec_of_isSome runs
  exact ⟨server, calls, ran, connections_echoed zeros 3 takenOver server calls
    ((Machine.misses_zero_iff _ _).mp whole) ran 2⟩

/-! Where the threads store. -/

def StoreInside : Made → Prop
  | .store index => 0 ≤ index ∧ index < BUFSIZ
  | _ => True

/-- A `read` that neither fails nor fills the buffer. -/
def ReadFits : Act → Prop
  | .read .error => False
  | .read (.bytes data) => data.length ≠ BUFSIZ
  | _ => True

theorem stores_goes_iff {worker next : Worker} {act : Act} {made : List Made}
    (goes : Goes worker act next made) : (∀ call ∈ made, StoreInside call) ↔ ReadFits act := by
  cases goes with
  | reads data fits more here =>
      have whole : (data.length : Int) < BUFSIZ ↔ data.length ≠ BUFSIZ := by omega
      simp [StoreInside, ReadFits, whole]
  | seesEnd here => simp [StoreInside, ReadFits, BUFSIZ]
  | readFails here => simp [StoreInside, ReadFits]
  | writes data taken few here => simp [StoreInside, ReadFits]
  | writeFails here => simp [StoreInside, ReadFits]
  | closes here => simp [StoreInside, ReadFits]

theorem worker_stores_iff {worker last : Worker} {acts : List Act} {made : List Made}
    (ran : exec func_thread worker acts = some (last, made)) :
    (∀ call ∈ made, StoreInside call) ↔ ∀ act ∈ acts, ReadFits act := by
  rw [← Machine.along_iff_forall ran]
  apply Machine.calls_good_iff_along StoreInside (fun _ => True) (fun _ _ _ _ _ _ _ => trivial)
    ?_ trivial ran
  intro worker act next made _ went
  exact stores_goes_iff (goes_of_func_thread went)

end NetworkTest.ThreadEcho
