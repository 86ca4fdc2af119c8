import NetworkTest.Descriptors
import NetworkTest.Machine

/-!
The talk server of thu/talk_thread/talk_server_without_thread.c: an accept loop
that starts a `do_socket` thread for each connection and counts them in
`thr_id`. A thread that has seen the end of its connection returns; nothing
lowers `thr_id`. `do_keyboard` is never started.
-/

namespace NetworkTest.TalkServer

open Descriptors (ReadResult)
open Machine (Step exec Along)

def MAX_THREAD_SIZE : Nat := 3

inductive Pc where
  | accepting
  | creating
  | exited
  deriving DecidableEq

structure Thread where
  socket : Int
  ended : Bool
  deriving DecidableEq

structure Server where
  pc : Pc
  connSock : Int
  thrId : Nat
  threads : List Thread
  accepted : List Int

inductive Event where
  | accept (result : Int)
  | create
  | createFails
  | read (thread : Nat) (result : ReadResult)

inductive Call where
  | storeThread (index : Nat)
  | sawEnd (thread : Nat)
  deriving DecidableEq

def step : Step Server Event Call := fun server event =>
  if server.pc = .exited then none else
  match event with
  | .accept result =>
      if server.pc = .accepting then
        if result = -1 then some ({ server with connSock := result, pc := .exited }, [])
        else if 0 < result ∧ result ∉ server.accepted then
          some ({ server with
            connSock := result, accepted := server.accepted ++ [result], pc := .creating }, [])
        else none
      else none
  | .create =>
      if server.pc = .creating then
        some ({ server with
            threads := server.threads ++ [{ socket := server.connSock, ended := false }]
            thrId := server.thrId + 1
            pc := .accepting }, [.storeThread server.thrId])
      else none
  | .createFails =>
      -- the argument has been evaluated all the same
      if server.pc = .creating then
        some ({ server with thrId := server.thrId + 1, pc := .exited },
          [.storeThread server.thrId])
      else none
  | .read k result =>
      match server.threads[k]? with
      | none => none
      | some thread =>
          if thread.ended then none
          else if result = .bytes [] then
            some ({ server with threads := server.threads.set k { thread with ended := true } },
              [.sawEnd k])
          else some (server, [])

def start : Server where
  pc := .accepting
  connSock := 0
  thrId := 0
  threads := []
  accepted := []

/-- Every store stays inside `thread_id[MAX_THREAD_SIZE]`. -/
def StoreInside : Call → Prop
  | .storeThread index => index < MAX_THREAD_SIZE
  | .sawEnd _ => True

/-- No more than `MAX_THREAD_SIZE` connections have been accepted, open or
not, when a thread is started. -/
def FewConnections (server : Server) : Event → Prop
  | .create => server.accepted.length ≤ MAX_THREAD_SIZE
  | .createFails => server.accepted.length ≤ MAX_THREAD_SIZE
  | _ => True

instance (server : Server) : (event : Event) → Decidable (FewConnections server event)
  | .create => inferInstanceAs (Decidable (server.accepted.length ≤ MAX_THREAD_SIZE))
  | .createFails => inferInstanceAs (Decidable (server.accepted.length ≤ MAX_THREAD_SIZE))
  | .accept _ => isTrue trivial
  | .read _ _ => isTrue trivial

/-- `thr_id` counts the accepted connections, the one in hand apart. -/
def Counted (server : Server) : Prop :=
  match server.pc with
  | .accepting => server.thrId = server.accepted.length
  | .creating => server.thrId + 1 = server.accepted.length
  | .exited => True

theorem counted_step {server next : Server} {event : Event} {made : List Call}
    (counted : Counted server) (taken : step server event = some (next, made)) :
    Counted next ∧ ((∀ call ∈ made, StoreInside call) ↔ FewConnections server event) := by
  unfold step at taken
  split at taken
  · contradiction
  cases event with
  | accept result =>
      simp only [Option.ite_none_right_eq_some] at taken
      obtain ⟨waiting, taken⟩ := taken
      simp only [Counted, waiting] at counted
      split at taken
      case isTrue =>
          simp only [Option.some.injEq, Prod.mk.injEq] at taken
          obtain ⟨rfl, rfl⟩ := taken
          simp [Counted, FewConnections]
      case isFalse =>
          simp only [Option.ite_none_right_eq_some, Option.some.injEq, Prod.mk.injEq] at taken
          obtain ⟨_, rfl, rfl⟩ := taken
          simp [Counted, FewConnections, counted]
  | create =>
      simp only [Option.ite_none_right_eq_some, Option.some.injEq, Prod.mk.injEq] at taken
      obtain ⟨ready, rfl, rfl⟩ := taken
      simp only [Counted, ready] at counted
      refine ⟨counted, ?_⟩
      simp only [List.mem_singleton, forall_eq, StoreInside, FewConnections]
      omega
  | createFails =>
      simp only [Option.ite_none_right_eq_some, Option.some.injEq, Prod.mk.injEq] at taken
      obtain ⟨ready, rfl, rfl⟩ := taken
      simp only [Counted, ready] at counted
      refine ⟨trivial, ?_⟩
      simp only [List.mem_singleton, forall_eq, StoreInside, FewConnections]
      omega
  | read k result =>
      cases found : server.threads[k]? with
      | none => simp [found] at taken
      | some thread =>
          simp only [found, Option.ite_none_left_eq_some] at taken
          obtain ⟨_, taken⟩ := taken
          split at taken
          case isTrue =>
              simp only [Option.some.injEq, Prod.mk.injEq] at taken
              obtain ⟨rfl, rfl⟩ := taken
              exact ⟨counted, by simp [StoreInside, FewConnections]⟩
          case isFalse =>
              simp only [Option.some.injEq, Prod.mk.injEq] at taken
              obtain ⟨rfl, rfl⟩ := taken
              exact ⟨counted, by simp [FewConnections]⟩

theorem stores_inside_iff {events : List Event} {server : Server} {calls : List Call}
    (ran : exec step start events = some (server, calls)) :
    (∀ call ∈ calls, StoreInside call) ↔ Along step FewConnections start events := by
  have counted : Counted start := rfl
  apply Machine.calls_good_iff_along StoreInside Counted _ _ counted ran
  · exact fun _ _ _ _ counted _ taken => (counted_step counted taken).1
  · exact fun _ _ _ _ counted taken => (counted_step counted taken).2

end NetworkTest.TalkServer
