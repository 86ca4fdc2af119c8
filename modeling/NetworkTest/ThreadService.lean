import NetworkTest.EchoService
import NetworkTest.ThreadEcho

/-!
The thread-per-connection servers are echo servers: the calls of all threads
together, in any interleaving, are a run of the service. A connection is open
from the start of its thread on.
-/

namespace NetworkTest.ThreadEcho

open CBuffer (Bytes BUFSIZ Memory)
open Descriptors (Target lookup)
open EchoService (Connection Lived Serves)
open Machine (Step exec Along)

def Made.act : Made → Option (EchoService.Act UInt8)
  | .read data => some (.gets data)
  | .write data => some (.sends data)
  | .close => some .closes
  | .store _ => none
  | .printed _ => none

def acts : Call → List (Nat × EchoService.Act UInt8)
  | .started k _ => [(k, .opens)]
  | .thread _ (.connection number) made => made.act.toList.map (Prod.mk number)
  | .thread _ _ _ => []

def Worker.connection (worker : Worker) : Connection UInt8 where
  status := if worker.pc = .ended then .closed else .opened
  hand := worker.pc.inHand

def Server.connection (server : Server) (number : Nat) : Connection UInt8 :=
  match server.threads[number]? with
  | none => EchoService.fresh
  | some thread => thread.worker.connection

theorem acts_thread (k number : Nat) (made : List Made) :
    (made.map (Call.thread k (.connection number))).flatMap acts =
      (made.filterMap Made.act).map (Prod.mk number) := by
  induction made with
  | nil => rfl
  | cons first rest ih =>
      rw [List.map_cons, List.flatMap_cons, ih]
      cases shown : first.act with
      | none => rw [List.filterMap_cons_none shown, acts, shown]; rfl
      | some act => rw [List.filterMap_cons_some shown, acts, shown]; rfl

theorem worker_serves {worker next : Worker} {act : Act} {made : List Made} {k : Nat}
    {service : Nat → Connection UInt8} {actions : List (Nat × EchoService.Act UInt8)}
    (serves : Serves service actions) (same : service k = worker.connection)
    (whole : Whole worker act) (goes : Goes worker act next made) :
    Serves (Function.update service k next.connection)
      (actions ++ (made.filterMap Made.act).map (Prod.mk k)) := by
  cases goes with
  | seesEnd here =>
      have got := EchoService.serves_gets serves (by rw [same, Worker.connection, here]; rfl) []
      exact got
  | reads data fits more here =>
      have got := EchoService.serves_gets serves (by rw [same, Worker.connection, here]; rfl) data
      exact got
  | readFails here =>
      have still : Worker.connection { worker with pc := .failing } = service k := by
        rw [same, Worker.connection, Worker.connection, here]
        rfl
      have silent : (([.store (-1), .printed (CBuffer.cstring worker.rcvBuffer.val)] :
          List Made).filterMap Made.act).map (Prod.mk k) = [] := rfl
      rw [still, Function.update_eq_self, silent, List.append_nil]
      exact serves
  | writes data taken few here =>
      obtain rfl : taken = data.length := by simpa [Whole, here, Pc.inHand] using whole
      rw [List.take_length]
      exact EchoService.serves_sends serves (by rw [same, Worker.connection, here]; rfl)
  | writeFails here =>
      exact EchoService.serves_sends serves (by rw [same, Worker.connection, here]; rfl)
  | closes here =>
      exact EchoService.serves_closes serves (by rw [same, Worker.connection, here]; rfl)

theorem connection_created (server : Server) (pc : Main) (thread : Thread) :
    Server.connection { server with pc := pc, threads := server.threads ++ [thread] } =
      Function.update server.connection server.threads.length thread.worker.connection := by
  funext number
  by_cases new : number = server.threads.length
  · subst new
    simp [Server.connection]
  · rw [Function.update_of_ne new, Server.connection, Server.connection]
    by_cases inside : number < server.threads.length
    · rw [List.getElem?_append_left inside]
    · have past : (server.threads ++ [thread])[number]? = none := by
        rw [List.getElem?_eq_none_iff, List.length_append, List.length_singleton]
        omega
      rw [past, List.getElem?_eq_none (Nat.not_lt.mp inside)]

theorem connection_acted {server : Server} {k : Nat} {thread : Thread} (opened : Descriptors.Table)
    (worker : Worker) (found : server.threads[k]? = some thread) :
    Server.connection { server with
        opened := opened
        threads := server.threads.set k { thread with worker := worker } } =
      Function.update server.connection k worker.connection := by
  have inside := (List.getElem?_eq_some_iff.mp found).choose
  funext number
  by_cases same : number = k
  · subst same
    rw [Function.update_self, Server.connection, List.getElem?_set_self inside]
  · rw [Function.update_of_ne same, Server.connection, List.getElem?_set_ne (Ne.symm same)]
    rfl

theorem serves_turn {stack : Nat → Memory BUFSIZ} {listenSock : Int} {calls made : List Call}
    {server next : Server} {event : Event} (owned : Owned server)
    (serves : Serves server.connection (calls.flatMap acts)) (echo : EchoOk stack server event)
    (turn : Turn stack listenSock server event next made) :
    Serves next.connection ((calls ++ made).flatMap acts) := by
  rw [List.flatMap_append]
  cases turn with
  | refused here => exact absurd rfl echo
  | accepted fd here valid free =>
      rw [List.flatMap_nil, List.append_nil]
      exact serves
  | created c_socket here =>
      have unknown : server.connection server.threads.length = EchoService.fresh := by
        rw [Server.connection, List.getElem?_eq_none (Nat.le_refl _)]
      rw [connection_created]
      exact EchoService.serves_opens serves unknown
  | failed c_socket here =>
      rw [List.flatMap_nil, List.append_nil]
      exact serves
  | wakes here =>
      rw [List.flatMap_nil, List.append_nil]
      exact serves
  | acts k thread act worker made found able went =>
      -- the descriptor of a running thread is still that of its own connection
      have mine := owned.held k thread found (running_of_went went)
      have target : lookup thread.socket server.opened = .connection k :=
        (Descriptors.lookup_eq_iff owned.keys).mpr mine
      have same : server.connection k = thread.worker.connection := by
        rw [Server.connection, found]
      have whole : Whole thread.worker act := by
        have met : Whole (server.worker stack k) act := echo
        rwa [Server.worker, found] at met
      rw [connection_acted _ worker found, target, acts_thread]
      exact worker_serves serves same whole (goes_of_func_thread went)

structure ServiceInv (calls : List Call) (server : Server) : Prop where
  owned : Owned server
  serves : Serves server.connection (calls.flatMap acts)

/-- Where accepts succeed and writes are whole, the threads together are an echo
server, whatever their interleaving: what one of them has in hand is what the
service has in hand on its connection. -/
theorem threads_serve (stack : Nat → Memory BUFSIZ) (listenSock : Int) (events : List Event)
    (server : Server) (calls : List Call)
    (echo : Along (step stack listenSock) (EchoOk stack) start events)
    (ran : exec (step stack listenSock) start events = some (server, calls)) :
    Serves server.connection (calls.flatMap acts) ∧
      ∀ number, Lived (server.connection number)
        ((calls.flatMap acts).filterMap (Projection.mine number)) := by
  have inv := Machine.exec_invariant_along ServiceInv
    (fun before server event next made inv echo taken => by
      have turn := turn_of_step taken
      have well : event ≠ .accept (-1) := by
        rintro rfl
        exact echo rfl
      exact ⟨owned_turn inv.owned well turn, serves_turn inv.owned inv.serves echo turn⟩)
    ⟨owned_start, EchoService.serves_nil⟩ echo ran
  exact ⟨inv.serves, inv.serves.lived⟩

theorem threads_serve_takenOver :
    ∃ server calls, exec (step zeros 3) start takenOver = some (server, calls) ∧
      Serves server.connection (calls.flatMap acts) := by
  have runs : (exec (step zeros 3) start takenOver).isSome = true := by decide +kernel
  have whole : Machine.misses (step zeros 3) (EchoOk zeros) start takenOver = 0 := by
    decide +kernel
  obtain ⟨server, calls, ran⟩ := Machine.exec_of_isSome runs
  exact ⟨server, calls, ran, (threads_serve zeros 3 takenOver server calls
    ((Machine.misses_zero_iff _ _).mp whole) ran).1⟩

end NetworkTest.ThreadEcho
