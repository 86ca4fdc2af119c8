import NetworkTest.SelectTable

/-!
One pass of the select server through its clients. Where a read returns 0 the
last client moves into the place that the loop leaves behind.
-/

namespace NetworkTest.SelectPass

open CBuffer (BUFSIZ)
open Descriptors (ReadResult)
open Machine (Step exec Along)
open SelectServer

def readOf : Call → List Int
  | .read fd _ _ => [fd]
  | _ => []

def reads (calls : List Call) : List Int := calls.flatMap readOf

def InLoop : Event → Prop
  | .pass => True
  | .read _ _ => True
  | .select _ => False
  | .accept _ => False

/-- If a read returns 0, the client is the last of the table, or the last one is
not ready. -/
def LastIdle (server : Server) : Event → Prop
  | .read (.bytes []) _ => server.pc = .service (server.clientSock.length - 1) ∨
      ∀ last ∈ server.clientSock.getLast?, last ∉ server.readFds
  | _ => True

instance (server : Server) : (event : Event) → Decidable (LastIdle server event)
  | .read (.bytes []) _ => inferInstanceAs (Decidable (_ ∨ _))
  | .read (.bytes (_ :: _)) _ => isTrue trivial
  | .read .error _ => isTrue trivial
  | .select _ => isTrue trivial
  | .accept _ => isTrue trivial
  | .pass => isTrue trivial

def readyFrom (server : Server) (i : Nat) : List Int :=
  (server.clientSock.drop i).filter (· ∈ server.readFds)

section

variable {listenSock : Int} {server next last : Server} {events : List Event} {calls : List Call}

theorem drop_eq_cons {i : Nat} {fd : Int} (found : server.clientSock[i]? = some fd) :
    server.clientSock.drop i = fd :: server.clientSock.drop (i + 1) := by
  obtain ⟨inside, rfl⟩ := List.getElem?_eq_some_iff.mp found
  exact List.drop_eq_getElem_cons inside

theorem readyFrom_ready {i : Nat} {fd : Int} (found : server.clientSock[i]? = some fd)
    (ready : fd ∈ server.readFds) : readyFrom server i = fd :: readyFrom server (i + 1) := by
  rw [readyFrom, drop_eq_cons found, List.filter_cons_of_pos (by simpa using ready), readyFrom]

theorem readyFrom_idle {i : Nat} {fd : Int} (found : server.clientSock[i]? = some fd)
    (idle : fd ∉ server.readFds) : readyFrom server i = readyFrom server (i + 1) := by
  rw [readyFrom, drop_eq_cons found, List.filter_cons_of_neg (by simpa using idle), readyFrom]

/-- Without the client at `i`, the last one is missing behind it, if it is
another one. -/
theorem readyFrom_dropped {i : Nat} {fd : Int} (found : server.clientSock[i]? = some fd)
    (here : server.pc = .service i)
    (clientSock : next.clientSock = dropClient server.clientSock i)
    (readFds : next.readFds = server.readFds) :
    ∃ missed, readyFrom server (i + 1) = readyFrom next (i + 1) ++ missed ∧
      (missed = [] ↔ server.pc = .service (server.clientSock.length - 1) ∨
        ∀ last ∈ server.clientSock.getLast?, last ∉ server.readFds) := by
  have inside := (List.getElem?_eq_some_iff.mp found).1
  have behind : next.clientSock.drop (i + 1) = (server.clientSock.drop (i + 1)).dropLast := by
    rw [clientSock, dropClient_eq, SwapRemove.swapRemove_drop found]
  rcases List.eq_nil_or_concat (server.clientSock.drop (i + 1)) with none | ⟨middle, last, some⟩
  · have atEnd : i = server.clientSock.length - 1 := by
      rw [List.drop_eq_nil_iff] at none
      omega
    exact ⟨[], by simp [readyFrom, behind, none], by simp [here, ← atEnd]⟩
  · rw [List.concat_eq_append] at some
    have more : i + 1 < server.clientSock.length := by
      have length := congrArg List.length some
      rw [List.length_drop, List.length_append, List.length_singleton] at length
      omega
    have final : server.clientSock.getLast? = Option.some last := by
      have found := @List.getLast?_drop Int (i + 1) server.clientSock
      rwa [some, List.getLast?_concat, if_neg (by omega), eq_comm] at found
    refine ⟨[last].filter (· ∈ server.readFds), ?_, ?_⟩
    · rw [readyFrom, readyFrom, behind, readFds, some, List.dropLast_concat, List.filter_append]
    · rw [final, here]
      have other : i ≠ server.clientSock.length - 1 := by omega
      simp [other]

theorem pass_done (top : server.pc = .top) (inLoop : ∀ event ∈ events, InLoop event)
    (ran : exec (step listenSock) server events = some (last, calls)) :
    events = [] ∧ calls = [] := by
  cases events with
  | nil =>
      simp only [exec, Option.some.injEq, Prod.mk.injEq] at ran
      exact ⟨rfl, ran.2.symm⟩
  | cons event rest =>
      obtain ⟨next, made, later, taken, _, _⟩ := (Machine.exec_cons_iff ..).mp ran
      have belongs := inLoop event List.mem_cons_self
      cases turn_of_step taken with
      | selectFailed | selected | acceptFailed | accepted => exact belongs.elim
      | finished i loop => cases top.symm.trans loop
      | skipped i fd loop => cases top.symm.trans loop
      | served i fd result taken loop => cases top.symm.trans loop

theorem serve_reads (listenSock : Int) (server : Server) (i : Nat) (fd : Int)
    (result : ReadResult) (taken : Nat) :
    (serve listenSock server i fd result taken).1.pc = .service (i + 1) ∧
      reads (serve listenSock server i fd result taken).2 = [fd] := by
  match result with
  | .bytes [] => exact ⟨rfl, rfl⟩
  | .bytes (_ :: _) => exact ⟨rfl, rfl⟩
  | .error => exact ⟨rfl, rfl⟩

theorem serve_misses {i : Nat} {fd : Int} (found : server.clientSock[i]? = some fd)
    (here : server.pc = .service i) (result : ReadResult) (taken : Nat) :
    ∃ missed, readyFrom server (i + 1) =
        readyFrom (serve listenSock server i fd result taken).1 (i + 1) ++ missed ∧
      (missed = [] ↔ LastIdle server (.read result taken)) := by
  match result with
  | .bytes [] => exact readyFrom_dropped found here rfl rfl
  | .bytes (_ :: _) => exact ⟨[], (List.append_nil _).symm, by simp [LastIdle]⟩
  | .error => exact ⟨[], (List.append_nil _).symm, by simp [LastIdle]⟩

theorem pass_skips {i : Nat} (here : server.pc = .service i)
    (inLoop : ∀ event ∈ events, InLoop event) (ended : last.pc = .top)
    (ran : exec (step listenSock) server events = some (last, calls)) :
    ∃ skipped, (reads calls ++ skipped).Perm (readyFrom server i) ∧
      (skipped = [] ↔ Along (step listenSock) LastIdle server events) := by
  -- a read that returns 0 changes the table, so the server goes along with the index
  induction events generalizing server i calls with
  | nil =>
      simp only [exec, Option.some.injEq, Prod.mk.injEq] at ran
      rw [← ran.1, here] at ended
      contradiction
  | cons event rest ih =>
      obtain ⟨next, made, later, taken, tail, rfl⟩ := (Machine.exec_cons_iff ..).mp ran
      have belongs := inLoop event List.mem_cons_self
      have others := fun event member => inLoop event (List.mem_cons_of_mem _ member)
      rw [Machine.along_cons_iff taken, reads, List.flatMap_append]
      cases turn_of_step taken with
      | selectFailed | selected | acceptFailed | accepted => exact belongs.elim
      | finished k loop past =>
          cases here.symm.trans loop
          obtain ⟨rfl, rfl⟩ := pass_done rfl others tail
          have none : server.clientSock.drop i = [] :=
            List.drop_eq_nil_iff.mpr (List.getElem?_eq_none_iff.mp past)
          exact ⟨[], by simp [readyFrom, none], by simp [LastIdle, Along]⟩
      | skipped k fd loop found idle =>
          cases here.symm.trans loop
          obtain ⟨skipped, perm, whole⟩ := ih rfl others tail
          refine ⟨skipped, ?_, by simpa [LastIdle] using whole⟩
          rw [readyFrom_idle found idle]
          exact perm
      | served k fd result count loop found ready possible =>
          cases here.symm.trans loop
          obtain ⟨pc, read⟩ := serve_reads listenSock server i fd result count
          obtain ⟨missed, split, idle⟩ :=
            @serve_misses listenSock server i fd found here result count
          obtain ⟨skipped, perm, whole⟩ := ih pc others tail
          refine ⟨skipped ++ missed, ?_, by rw [List.append_eq_nil_iff, idle, whole, and_comm]⟩
          rw [readyFrom_ready found ready, split, ← reads, read, List.singleton_append,
            List.cons_append, ← List.append_assoc]
          exact (perm.append_right missed).cons fd

/-- A pass reads each ready client exactly once if and only if no read that
returns 0 brings another ready client from the end of the table into a place
that the loop has left. -/
theorem pass_reads_iff (listenSock : Int) (server : Server) (events : List Event)
    (last : Server) (calls : List Call) (begun : server.pc = .service 0)
    (inLoop : ∀ event ∈ events, InLoop event) (ended : last.pc = .top)
    (ran : exec (step listenSock) server events = some (last, calls)) :
    (reads calls).Perm (server.clientSock.filter (· ∈ server.readFds)) ↔
      Along (step listenSock) LastIdle server events := by
  obtain ⟨skipped, perm, whole⟩ := pass_skips begun inLoop ended ran
  rw [← whole]
  constructor
  · intro all
    have same := (all.trans perm.symm).length_eq
    rw [List.length_append] at same
    exact List.length_eq_zero_iff.mp (by omega)
  · rintro rfl
    rwa [List.append_nil] at perm

end

def threeClients (ready : List Int) : Server where
  pc := .service 0
  clientSock := [4, 5, 6]
  readFds := ready
  rcvBuffer := List.replicate BUFSIZ 0
  opened := [(4, 0), (5, 1), (6, 2)]
  accepted := 3

/-- 4 closes, and 6, which is not ready, takes its place. -/
theorem pass_reads_two :
    ∃ last calls, exec (step 3) (threeClients [4, 5])
        [.read (.bytes []) 0, .read (.bytes [1]) 1, .pass] = some (last, calls) ∧
      (reads calls).Perm ((threeClients [4, 5]).clientSock.filter
        (· ∈ (threeClients [4, 5]).readFds)) :=
  ⟨_, _, rfl, (pass_reads_iff 3 (threeClients [4, 5])
    [.read (.bytes []) 0, .read (.bytes [1]) 1, .pass] _ _ rfl (by simp [InLoop]) rfl rfl).mpr
    ((Machine.misses_zero_iff _ _).mp (by decide))⟩

/-- 4 closes, and 6 is not read although it is ready. -/
theorem ready_client_skipped :
    ∃ last calls, exec (step 3) (threeClients [4, 6]) [.read (.bytes []) 0, .pass, .pass] =
        some (last, calls) ∧
      last.pc = .top ∧ reads calls = [4] ∧
      (threeClients [4, 6]).clientSock.filter (· ∈ (threeClients [4, 6]).readFds) = [4, 6] :=
  ⟨_, _, rfl, rfl, rfl, by decide⟩

end NetworkTest.SelectPass
