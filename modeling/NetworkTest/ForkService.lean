import NetworkTest.EchoService
import NetworkTest.ForkRuns

/-!
The forking server is an echo server too: what its children do on the
connections they were forked with is a run of the service, in any order of the
processes' steps. A connection is served from the fork of its child until that
child has exited; the parent's copy, which it only closes, does not count. What
a `write` has not taken is never sent, nor what a child has read when it is
killed, so here each `write` takes all that it is given and no child is killed.
-/

namespace NetworkTest.ForkServer

open CBuffer (Bytes)
open Descriptors
open EchoService (Act Connection Lived Serves)
open Machine (Step exec Along)

/-- What a call does to a connection; `targets` are those of the children so far. -/
def act (targets : List Target) : Call → List (Nat × Act UInt8)
  | .fork _ (.connection number) => [(number, .opens)]
  | .read _ (.connection number) data => [(number, .gets data)]
  -- behind a failed `read` this is a `write` of -1 bytes, which sends none
  | .write _ (.connection number) _ data => [(number, .sends data)]
  | .exit k =>
      match targets[k]? with
      | some (.connection number) => [(number, .closes)]
      | _ => []
  | _ => []

def forked : Call → List Target
  | .fork _ target => [target]
  | _ => []

def acts : List Target → List Call → List (Nat × Act UInt8)
  | _, [] => []
  | targets, call :: rest => act targets call ++ acts (targets ++ forked call) rest

theorem acts_append (targets : List Target) (calls made : List Call) :
    acts targets (calls ++ made) =
      acts targets calls ++ acts (targets ++ calls.flatMap forked) made := by
  induction calls generalizing targets with
  | nil => simp [acts]
  | cons call rest ih =>
      simp only [List.cons_append, acts, ih, List.flatMap_cons, List.append_assoc]

theorem connection_or_astray (target : Target) :
    (∃ number, target = .connection number) ∨ ∀ number, target ≠ .connection number := by
  cases target with
  | connection number => exact .inl ⟨number, rfl⟩
  | closed => exact .inr (by simp)
  | listening => exact .inr (by simp)

theorem act_astray {targets : List Target} {target : Target}
    (astray : ∀ number, target ≠ .connection number) :
    (∀ connSock, act targets (.fork connSock target) = []) ∧
      (∀ k data, act targets (.read k target data) = []) ∧
      (∀ k n data, act targets (.write k target n data) = []) ∧
      ∀ k, targets[k]? = some target → act targets (.exit k) = [] := by
  cases target with
  | connection number => exact absurd rfl (astray number)
  | closed =>
      exact ⟨fun _ => rfl, fun _ _ => rfl, fun _ _ _ => rfl, fun k found => by simp [act, found]⟩
  | listening =>
      exact ⟨fun _ => rfl, fun _ _ => rfl, fun _ _ _ => rfl, fun k found => by simp [act, found]⟩

/-- How a child stands to its connection: between two turns it has nothing in hand. -/
def Child.connection (child : Child) : Connection UInt8 :=
  if child.status = .echoing then EchoService.idle else EchoService.finished

def connectionOf : List Child → Nat → Connection UInt8
  | [], _ => EchoService.fresh
  | child :: rest, number =>
      if child.target = .connection number then child.connection else connectionOf rest number

def Server.connection (server : Server) (number : Nat) : Connection UInt8 :=
  connectionOf server.children number

def Server.targets (server : Server) : List Target := server.children.map Child.target

/-- No two children have the same connection. -/
def Apart (targets : List Target) : Prop :=
  targets.Pairwise fun one other => ∀ number, one = .connection number → other ≠ .connection number

theorem connectionOf_absent {children : List Child} {number : Nat}
    (absent : .connection number ∉ children.map Child.target) :
    connectionOf children number = EchoService.fresh := by
  induction children with
  | nil => rfl
  | cons child rest ih =>
      rw [List.map_cons, List.mem_cons, not_or] at absent
      rw [connectionOf, if_neg (Ne.symm absent.1), ih absent.2]

theorem apart_cons {first child : Child} {rest : List Child} {k number : Nat}
    (apart : Apart ((first :: rest).map Child.target)) (found : rest[k]? = some child)
    (mine : child.target = .connection number) : first.target ≠ .connection number := by
  intro same
  exact (List.pairwise_cons.mp apart).1 child.target
    (List.mem_map_of_mem (List.mem_of_getElem? found)) number same mine

theorem connectionOf_found {children : List Child} {k number : Nat} {child : Child}
    (apart : Apart (children.map Child.target)) (found : children[k]? = some child)
    (mine : child.target = .connection number) :
    connectionOf children number = child.connection := by
  induction children generalizing k with
  | nil => simp at found
  | cons first rest ih =>
      cases k with
      | zero =>
          obtain rfl : first = child := by simpa using found
          rw [connectionOf, if_pos mine]
      | succ k =>
          rw [List.getElem?_cons_succ] at found
          rw [connectionOf, if_neg (apart_cons apart found mine),
            ih (List.pairwise_cons.mp apart).2 found]

theorem connectionOf_forked {children : List Child} {number : Nat} {child : Child}
    (absent : .connection number ∉ children.map Child.target)
    (mine : child.target = .connection number) :
    connectionOf (children ++ [child]) =
      Function.update (connectionOf children) number child.connection := by
  funext other
  induction children with
  | nil =>
      by_cases same : other = number
      · subst same
        simp [connectionOf, mine]
      · simp [connectionOf, mine, same, Ne.symm same]
  | cons first rest ih =>
      rw [List.map_cons, List.mem_cons, not_or] at absent
      rw [List.cons_append, connectionOf, ih absent.2]
      by_cases same : other = number
      · subst same
        rw [if_neg (Ne.symm absent.1), Function.update_self, Function.update_self]
      · rw [Function.update_of_ne same, Function.update_of_ne same, connectionOf]

theorem connectionOf_astray {children : List Child} {child : Child}
    (none : ∀ number, child.target ≠ .connection number) :
    connectionOf (children ++ [child]) = connectionOf children := by
  funext other
  induction children with
  | nil => simp [connectionOf, none]
  | cons first rest ih => rw [List.cons_append, connectionOf, ih, connectionOf]

theorem connectionOf_set {children : List Child} {k number : Nat} {child : Child}
    (status : Status) (apart : Apart (children.map Child.target))
    (found : children[k]? = some child) (mine : child.target = .connection number) :
    connectionOf (children.set k { child with status := status }) =
      Function.update (connectionOf children) number
        (Child.connection { child with status := status }) := by
  funext other
  induction children generalizing k with
  | nil => simp at found
  | cons first rest ih =>
      cases k with
      | zero =>
          obtain rfl : first = child := by simpa using found
          rw [List.set_cons_zero, connectionOf]
          by_cases same : other = number
          · subst same
            rw [if_pos mine, Function.update_self]
          · have differs : Target.connection number ≠ .connection other := by
              simpa using Ne.symm same
            rw [Function.update_of_ne same, connectionOf, mine, if_neg differs, if_neg differs]
      | succ k =>
          rw [List.getElem?_cons_succ] at found
          have differs := apart_cons apart found mine
          rw [List.set_cons_succ, connectionOf, ih (List.pairwise_cons.mp apart).2 found]
          by_cases same : other = number
          · subst same
            rw [if_neg differs, Function.update_self, Function.update_self]
          · rw [Function.update_of_ne same, Function.update_of_ne same, connectionOf]

theorem connectionOf_same {children : List Child} {k : Nat} {child : Child} {status : Status}
    (found : children[k]? = some child)
    (same : (∀ number, child.target ≠ .connection number) ∨
      Child.connection { child with status := status } = child.connection) :
    connectionOf (children.set k { child with status := status }) = connectionOf children := by
  funext other
  induction children generalizing k with
  | nil => simp at found
  | cons first rest ih =>
      cases k with
      | zero =>
          obtain rfl : first = child := by simpa using found
          rw [List.set_cons_zero, connectionOf, connectionOf]
          rcases same with none | equal
          · rw [if_neg (none other), if_neg (none other)]
          · rw [equal]
      | succ k =>
          rw [List.set_cons_succ, connectionOf, ih (by simpa using found), connectionOf]

theorem targets_set {children : List Child} {k : Nat} {child : Child} (status : Status)
    (found : children[k]? = some child) :
    (children.set k { child with status := status }).map Child.target =
      children.map Child.target := by
  obtain ⟨inside, rfl⟩ := List.getElem?_eq_some_iff.mp found
  have bound : k < (children.map Child.target).length := by simpa using inside
  have same : (children.map Child.target)[k] = children[k].target := List.getElem_map ..
  rw [List.map_set, ← same, List.set_getElem_self]

/-- The parent has only the connection that it is about to pass on or to close;
no child has the one that is to be passed on. -/
def Passing (opened : Table) (accepted : Nat) (targets : List Target) : Pc → Prop
  | .top => opened = []
  | .accepting => opened = []
  | .forking connSock => (∀ entry ∈ opened, entry.1 = connSock) ∧
      ∀ number, lookup connSock opened = .connection number →
        number < accepted ∧ .connection number ∉ targets
  | .closing connSock => ∀ entry ∈ opened, entry.1 = connSock
  | .exited => True

theorem passing_nothing {opened : Table} {accepted : Nat} {targets : List Target} {connSock : Int}
    (nothing : opened = []) : Passing opened accepted targets (.forking connSock) := by
  subst nothing
  exact ⟨by simp, fun number behind => by simp [lookup] at behind⟩

structure ServiceInv (calls : List Call) (server : Server) : Prop where
  recorded : calls.flatMap forked = server.targets
  apart : Apart server.targets
  counted : ∀ number, .connection number ∈ server.targets → number < server.accepted
  accepts : ∃ disturbed, AcceptInv disturbed server
  passing : Passing server.opened server.accepted server.targets server.pc
  serves : Serves server.connection (acts [] calls)

section Steps

variable {calls made : List Call} {server next : Server} (inv : ServiceInv calls server)
include inv

theorem acts_made : acts [] (calls ++ made) = acts [] calls ++ acts server.targets made := by
  rw [acts_append, List.nil_append, inv.recorded]

theorem service_parent (children : next.children = server.children)
    (grows : server.accepted ≤ next.accepted) (quiet : acts server.targets made = [])
    (unforked : made.flatMap forked = []) (accepts : ∃ disturbed, AcceptInv disturbed next)
    (passing : Passing next.opened next.accepted next.targets next.pc) :
    ServiceInv (calls ++ made) next := by
  have same : next.targets = server.targets := by rw [Server.targets, children, Server.targets]
  have stays : next.connection = server.connection := by
    funext number
    rw [Server.connection, children, Server.connection]
  constructor
  case recorded => rw [List.flatMap_append, unforked, List.append_nil, same, inv.recorded]
  case apart => rw [same]; exact inv.apart
  case counted =>
      rw [same]
      exact fun number member => Nat.lt_of_lt_of_le (inv.counted number member) grows
  case accepts => exact accepts
  case passing => exact passing
  case serves => rw [acts_made inv, quiet, List.append_nil, stays]; exact inv.serves

theorem service_child {k : Nat} {child : Child} {status : Status}
    (found : server.children[k]? = some child)
    (children : next.children = server.children.set k { child with status := status })
    (accepted : next.accepted = server.accepted) (opened : next.opened = server.opened)
    (pc : next.pc = server.pc) (unforked : made.flatMap forked = [])
    (accepts : ∃ disturbed, AcceptInv disturbed next)
    (serves : Serves (connectionOf (server.children.set k { child with status := status }))
      (acts [] calls ++ acts server.targets made)) : ServiceInv (calls ++ made) next := by
  have same : next.targets = server.targets := by
    rw [Server.targets, children, targets_set status found, Server.targets]
  have stands : next.connection =
      connectionOf (server.children.set k { child with status := status }) := by
    funext number
    rw [Server.connection, children]
  constructor
  case recorded => rw [List.flatMap_append, unforked, List.append_nil, same, inv.recorded]
  case apart => rw [same]; exact inv.apart
  case counted => rw [same, accepted]; exact inv.counted
  case accepts => exact accepts
  case passing => rw [same, accepted, opened, pc]; exact inv.passing
  case serves => rw [acts_made inv, stands]; exact serves

/-- The parent forks a child with the connection it has accepted, or with none
when a signal has cut `accept` short. -/
theorem service_forked {connSock : Int} (ready : server.pc = .forking connSock)
    (children : next.children = server.children ++
      [{ connSock := connSock, target := lookup connSock server.opened, status := .echoing }])
    (accepted : next.accepted = server.accepted) (opened : next.opened = server.opened)
    (pc : next.pc = .closing connSock) (accepts : ∃ disturbed, AcceptInv disturbed next) :
    ServiceInv (calls ++ [.fork connSock (lookup connSock server.opened)]) next := by
  obtain ⟨alone, free⟩ : (∀ entry ∈ server.opened, entry.1 = connSock) ∧
      ∀ number, lookup connSock server.opened = .connection number →
        number < server.accepted ∧ .connection number ∉ server.targets := by
    have passing := inv.passing
    rwa [ready] at passing
  have more : next.targets = server.targets ++ [lookup connSock server.opened] := by
    rw [Server.targets, children, List.map_append]
    rfl
  constructor
  case recorded =>
      rw [List.flatMap_append, inv.recorded, more]
      rfl
  case apart =>
      rw [more]
      refine List.pairwise_append.mpr ⟨inv.apart, List.pairwise_singleton .., ?_⟩
      intro one member other new number mine same
      rw [List.mem_singleton.mp new] at same
      exact (free number same).2 (mine ▸ member)
  case counted =>
      intro number member
      rw [more, List.mem_append, List.mem_singleton] at member
      rw [accepted]
      rcases member with old | new
      · exact inv.counted number old
      · exact (free number new.symm).1
  case accepts => exact accepts
  case passing => rw [pc, opened]; exact alone
  case serves =>
      rw [acts_made inv]
      have stands : next.connection = connectionOf next.children := rfl
      rw [stands, children]
      rcases connection_or_astray (lookup connSock server.opened) with ⟨number, target⟩ | astray
      · have absent := (free number target).2
        rw [connectionOf_forked absent target, target]
        exact EchoService.serves_opens inv.serves (connectionOf_absent absent)
      · have silent : acts server.targets [.fork connSock (lookup connSock server.opened)] =
            [] := by
          rw [acts, acts, List.append_nil, (act_astray astray).1]
        rw [connectionOf_astray astray, silent, List.append_nil]
        exact inv.serves

theorem service_echoed {k : Nat} {child : Child} {data : Bytes} (n : Int)
    (found : server.children[k]? = some child) (active : child.status = .echoing) :
    ServiceInv (calls ++ [.read k child.target data, .write k child.target n data]) server := by
  have unforked : [Call.read k child.target data, .write k child.target n data].flatMap forked =
      [] := rfl
  constructor
  case recorded => rw [List.flatMap_append, unforked, List.append_nil, inv.recorded]
  case apart => exact inv.apart
  case counted => exact inv.counted
  case accepts => exact inv.accepts
  case passing => exact inv.passing
  case serves =>
      rw [acts_made inv]
      rcases connection_or_astray child.target with ⟨number, target⟩ | astray
      · have here : server.connection number = EchoService.idle :=
          (connectionOf_found inv.apart found target).trans (if_pos active)
        rw [target]
        exact EchoService.serves_echoes inv.serves here data
      · obtain ⟨_, read, write, _⟩ := @act_astray server.targets _ astray
        have silent : acts server.targets
            [.read k child.target data, .write k child.target n data] = [] := by
          simp [acts, forked, read, write]
        rw [silent, List.append_nil]
        exact inv.serves

theorem service_ended {k : Nat} {child : Child} (found : server.children[k]? = some child)
    (active : child.status = .echoing)
    (accepts : ∃ disturbed, AcceptInv disturbed (exitChild server k child)) :
    ServiceInv (calls ++ [.read k child.target [], .exit k]) (exitChild server k child) := by
  refine service_child inv found rfl rfl rfl rfl rfl accepts ?_
  have listed : server.targets[k]? = some child.target := by
    rw [Server.targets, List.getElem?_map, found]
    rfl
  rcases connection_or_astray child.target with ⟨number, target⟩ | astray
  · have here : server.connection number = EchoService.idle :=
      (connectionOf_found inv.apart found target).trans (if_pos active)
    have closes : acts server.targets [.read k child.target [], .exit k] =
        [(number, .gets []), (number, .closes)] := by
      simp [acts, act, forked, listed, target]
    rw [closes, connectionOf_set _ inv.apart found target]
    exact EchoService.serves_ends inv.serves here
  · obtain ⟨_, read, _, exit⟩ := @act_astray server.targets _ astray
    have silent : acts server.targets [.read k child.target [], .exit k] = [] := by
      simp [acts, forked, read, exit k listed]
    rw [silent, List.append_nil, connectionOf_same found (.inl astray)]
    exact inv.serves

end Steps

/-- Writes take all they are given, and no child is killed. -/
def echoOk : Event → Bool
  | .childRead _ result taken => taken = (readBytes result).length
  | .childKilled _ => false
  | _ => true

theorem service_turn {listenSock : Int} {calls made : List Call} {server next : Server}
    {event : Event} (inv : ServiceInv calls server) (ok : echoOk event = true)
    (taken : step listenSock server event = some (next, made)) :
    ServiceInv (calls ++ made) next := by
  have turn := turn_of_step taken
  have accepts : ∃ disturbed, AcceptInv disturbed next := by
    obtain ⟨disturbed, counted⟩ := inv.accepts
    exact ⟨_, accept_turn counted turn⟩
  have passing := inv.passing
  cases turn with
  | callAccept top idle =>
      rw [top] at passing
      exact service_parent inv rfl (Nat.le_refl _) rfl rfl accepts passing
  | accepted fd waiting idle valid fresh =>
      rw [waiting] at passing
      refine service_parent inv rfl (Nat.le_succ _) rfl rfl accepts ⟨?_, ?_⟩
      · intro entry member
        rw [passing, List.mem_singleton] at member
        rw [member]
      · intro number behind
        have newest : server.accepted = number := by simpa [lookup] using behind
        subst newest
        exact ⟨Nat.lt_succ_self _, fun member => Nat.lt_irrefl _ (inv.counted _ member)⟩
  | refused waiting idle =>
      rw [waiting] at passing
      exact service_parent inv rfl (Nat.le_refl _) rfl rfl accepts (passing_nothing passing)
  | delivered pending idle =>
      exact service_parent inv rfl (Nat.le_refl _) rfl rfl accepts passing
  | reaped k child found entered gone =>
      refine service_child inv found rfl rfl rfl rfl rfl accepts ?_
      have still : Child.connection { child with status := .reaped } = child.connection := by
        rw [Child.connection, Child.connection, gone]
        rfl
      have silent : acts server.targets [.wait (some k)] = [] := rfl
      rw [connectionOf_same found (.inr still), silent, List.append_nil]
      exact inv.serves
  | noChild entered allReaped =>
      exact service_parent inv rfl (Nat.le_refl _) rfl rfl accepts passing
  | interrupted waited cut =>
      obtain ⟨_, balanced⟩ := inv.accepts
      have nothing : server.opened = [] := by rwa [(balanced.cut cut).1] at passing
      exact service_parent inv rfl (Nat.le_refl _) rfl rfl accepts (passing_nothing nothing)
  | returned waited uncut =>
      exact service_parent inv rfl (Nat.le_refl _) rfl rfl accepts passing
  | forked connSock ready idle => exact service_forked inv ready rfl rfl rfl rfl accepts
  | forkFailed connSock ready idle =>
      exact service_parent inv rfl (Nat.le_refl _) rfl rfl accepts trivial
  | closed connSock ready idle =>
      rw [ready] at passing
      refine service_parent inv rfl (Nat.le_refl _) rfl rfl accepts ?_
      refine List.filter_eq_nil_iff.mpr fun entry member => ?_
      simp [passing entry member]
  | echoed k child result count n found active more few =>
      obtain rfl : count = (readBytes result).length := by simpa [echoOk] using ok
      rw [List.take_length]
      exact service_echoed inv n found active
  | ended k child found active => exact service_ended inv found active accepts
  | killed k child found active => exact Bool.noConfusion ok

theorem service_start : ServiceInv [] start where
  recorded := rfl
  apart := List.Pairwise.nil
  counted := by simp [start, Server.targets]
  accepts := ⟨0, rfl, by simp [start]⟩
  passing := rfl
  serves := EchoService.serves_nil

/-- Where writes are whole and no child is killed, the parent and its children
together are an echo server, in any interleaving, with signals at any time and
`accept` failing at any time: a child that was forked without a connection takes
no part in it. -/
theorem fork_serves (listenSock : Int) (events : List Event) (server : Server)
    (calls : List Call) (ok : ∀ event ∈ events, echoOk event = true)
    (ran : exec (step listenSock) start events = some (server, calls)) :
    Serves server.connection (acts [] calls) ∧
      (∀ (k : Nat) (child : Child) (number : Nat), server.children[k]? = some child →
        child.target = .connection number → server.connection number = child.connection) ∧
      ∀ number, Lived (server.connection number)
        ((acts [] calls).filterMap (Projection.mine number)) := by
  have inv := Machine.exec_invariant_forall ServiceInv
    (fun _ _ _ _ _ inv ok taken => service_turn inv ok taken) service_start ok ran
  exact ⟨inv.serves, fun _ _ _ found mine => connectionOf_found inv.apart found mine,
    inv.serves.lived⟩

/-- Two clients at once; the first one's child is reaped while the parent waits
for a third. -/
def twoClients : List Event :=
  [.callAccept, .accept 4, .fork, .close, .callAccept, .accept 4, .fork,
    .childRead 1 (.bytes [98]) 1, .close, .callAccept, .childRead 0 (.bytes [97]) 1,
    .childRead 0 (.bytes []) 0, .deliver, .wait 0, .handlerReturn, .fork,
    .childRead 2 .error 0]

theorem fork_serves_twoClients :
    ∃ server calls, exec (step 3) start twoClients = some (server, calls) ∧
      Serves server.connection (acts [] calls) := by
  have runs : (exec (step 3) start twoClients).isSome = true := by decide
  obtain ⟨server, calls, ran⟩ := Machine.exec_of_isSome runs
  exact ⟨server, calls, ran, (fork_serves 3 twoClients server calls (by decide) ran).1⟩

end NetworkTest.ForkServer
