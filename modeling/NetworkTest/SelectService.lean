import NetworkTest.EchoService
import NetworkTest.SelectEcho

/-!
The select server is an echo server: its calls on the connections are a run of
the service, whatever descriptors they were made on and in whatever order.
-/

namespace NetworkTest.SelectServer

open CBuffer (Bytes BUFSIZ overwrite)
open Descriptors
open EchoService (Act Connection Lived Serves)
open Machine (Step exec Along)

def acts : Call → List (Nat × Act UInt8)
  | .store _ _ (.connection number) => [(number, .opens)]
  | .read _ (.connection number) data => [(number, .gets data)]
  | .write _ (.connection number) data => [(number, .sends data)]
  | .close _ (.connection number) => [(number, .closes)]
  | _ => []

/-- How the server stands to a connection: it has nothing in hand between two
steps. -/
def Server.connection (server : Server) (number : Nat) : Connection UInt8 :=
  if number ∈ server.opened.map Prod.snd then EchoService.idle
  else if number < server.accepted then EchoService.finished
  else EchoService.fresh

theorem acts_selectCalls (listenSock : Int) (server : Server) (ready : List Int) :
    (selectCalls listenSock server ready).flatMap acts = [] := by
  apply List.flatMap_eq_nil_iff.mpr
  intro call member
  rcases (mem_selectCalls_iff ..).mp member with ⟨fd, _, rfl⟩ | rfl
  · rfl
  · rfl

theorem connection_accepted (server : Server) (fd : Int) (pc : Pc) (clientSock : List Int) :
    Server.connection { server with
        clientSock := clientSock
        opened := (fd, server.accepted) :: server.opened
        accepted := server.accepted + 1
        pc := pc } =
      Function.update server.connection server.accepted EchoService.idle := by
  funext number
  by_cases new : number = server.accepted
  · subst new
    rw [Function.update_self, Server.connection, if_pos (by simp)]
  · rw [Function.update_of_ne new, Server.connection, Server.connection]
    have known : number < server.accepted + 1 ↔ number < server.accepted := by omega
    simp only [List.map_cons, List.mem_cons, new, false_or, known]

theorem connection_closed {server : Server} {fd : Int} {number : Nat} (pc : Pc)
    (clientSock : List Int) (unique : (server.opened.map Prod.fst).Nodup)
    (numbers : (server.opened.map Prod.snd).Nodup) (entry : (fd, number) ∈ server.opened)
    (known : number < server.accepted) :
    Server.connection { server with
        clientSock := clientSock
        opened := server.opened.filter (fun entry => entry.1 ≠ fd)
        pc := pc } =
      Function.update server.connection number EchoService.finished := by
  funext other
  rw [Server.connection, opened_numbers_filter unique numbers entry]
  by_cases same : other = number
  · subst same
    rw [Function.update_self, if_neg (by simp), if_pos known]
  · rw [Function.update_of_ne same, Server.connection]
    simp only [List.mem_filter, same, ne_eq, not_false_eq_true, decide_true, and_true]

structure ServiceInv (listenSock : Int) (calls : List Call) (server : Server) : Prop where
  table : TableInv listenSock calls server
  serves : Serves server.connection (calls.flatMap acts)

theorem serves_turn {listenSock : Int} {calls made : List Call} {server next : Server}
    {event : Event} (inv : ServiceInv listenSock calls server) (echo : EchoOk server event)
    (turn : Turn listenSock server event next made) :
    Serves next.connection ((calls ++ made).flatMap acts) := by
  obtain ⟨table, serves⟩ := inv
  rw [List.flatMap_append]
  cases turn with
  | selectFailed top =>
      rw [acts_selectCalls, List.append_nil]
      exact serves
  | selected ready top known =>
      have tested : [Call.fdIsSet listenSock .listening].flatMap acts = [] := rfl
      rw [List.flatMap_append, acts_selectCalls, tested, List.append_nil, List.append_nil]
      exact serves
  | acceptFailed waiting => exact absurd echo.1 (by decide)
  | accepted fd waiting valid fresh =>
      have unknown : server.connection server.accepted = EchoService.fresh := by
        rw [Server.connection, if_neg fun member => Nat.lt_irrefl _ (table.counted _ member),
          if_neg (Nat.lt_irrefl _)]
      rw [connection_accepted]
      exact EchoService.serves_opens serves unknown
  | finished i loop past =>
      rw [List.flatMap_nil, List.append_nil]
      exact serves
  | skipped i fd loop found idle =>
      have tested : [Call.fdIsSet fd (server.target listenSock fd)].flatMap acts = [] := rfl
      rw [tested, List.append_nil]
      exact serves
  | served i fd result count loop found ready possible =>
      obtain ⟨number, entry, connected⟩ := table.target_of_mem (List.mem_of_getElem? found)
      have listed : number ∈ server.opened.map Prod.snd :=
        List.mem_map.mpr ⟨(fd, number), entry, rfl⟩
      have here : server.connection number = EchoService.idle := if_pos listed
      match result with
      | .bytes [] =>
          have closed := connection_closed (.service (i + 1)) (dropClient server.clientSock i)
            table.unique table.numbers entry (table.counted number listed)
          simp only [serve, connected]
          rw [closed]
          exact EchoService.serves_ends serves here
      | .bytes (first :: rest) =>
          obtain ⟨_, taken⟩ : (first :: rest).length < BUFSIZ ∧
            count = (first :: rest).length := echo
          -- what is written is what was read, as the buffer was not filled
          have sent : (((overwrite server.rcvBuffer (first :: rest)).set
              (first :: rest).length 0).take (first :: rest).length).take count =
              first :: rest := by
            rw [CBuffer.overwrite_set_take, taken, List.take_length]
          simp only [serve, connected, sent]
          exact EchoService.serves_echoes serves here (first :: rest)
      | .error => exact absurd echo id

/-- Where accepts succeed and reads and writes are whole, the select server is an
echo server for all its clients at once. -/
theorem select_serves (listenSock : Int) (events : List Event) (server : Server)
    (calls : List Call) (echo : Along (step listenSock) EchoOk start events)
    (ran : exec (step listenSock) start events = some (server, calls)) :
    Serves server.connection (calls.flatMap acts) ∧
      ∀ number, Lived (server.connection number)
        ((calls.flatMap acts).filterMap (Projection.mine number)) := by
  have inv := Machine.exec_invariant_along (ServiceInv listenSock)
    (fun _ _ _ _ _ inv echo taken =>
      ⟨table_turn inv.table (acceptOk_of_echoOk echo) (turn_of_step taken),
        serves_turn inv echo (turn_of_step taken)⟩)
    ⟨table_start listenSock, EchoService.serves_nil⟩ echo ran
  exact ⟨inv.serves, inv.serves.lived⟩

theorem select_serves_crossing :
    ∃ server calls, exec (step 3) start crossing = some (server, calls) ∧
      Serves server.connection (calls.flatMap acts) := by
  have runs : (exec (step 3) start crossing).isSome = true := by decide
  obtain ⟨server, calls, ran⟩ := Machine.exec_of_isSome runs
  exact ⟨server, calls, ran, (select_serves 3 crossing server calls
    ((Machine.misses_zero_iff _ _).mp (by decide)) ran).1⟩

end NetworkTest.SelectServer
