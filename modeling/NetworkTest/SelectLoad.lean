import NetworkTest.SelectTable

/-!
The select server under load. Neither the index of the store nor the result
of `accept` is checked, so safety is a matter of what happens at the accepts:
a run is safe exactly when each of them succeeds with room in the table.
-/

namespace NetworkTest.SelectServer

open Descriptors
open Machine (Step exec Along)

/-- Stores stay inside `clientSock[MAX]`, and no descriptor is stored, put into
a set, tested or read that stands for nothing. -/
def SafeCall : Call → Prop
  | .store index _ target => index < MAX ∧ target ≠ .closed
  | .fdSet _ target => target ≠ .closed
  | .fdIsSet _ target => target ≠ .closed
  | .read _ target _ => target ≠ .closed
  | _ => True

theorem selectCalls_safe {listenSock : Int} {calls : List Call} {server : Server}
    (inv : TableInv listenSock calls server) (ready : List Int) :
    ∀ call ∈ selectCalls listenSock server ready, SafeCall call := by
  intro call member
  rcases (mem_selectCalls_iff ..).mp member with ⟨fd, put, rfl⟩ | rfl
  · rcases List.mem_cons.mp put with rfl | client
    · simp [SafeCall, Server.target]
    · obtain ⟨number, _, connected⟩ := inv.target_of_mem client
      simp [SafeCall, connected]
  · trivial

theorem turn_safe {listenSock : Int} {calls made : List Call} {server next : Server}
    {event : Event} (inv : TableInv listenSock calls server)
    (accepts : AcceptOk server event) (turn : Turn listenSock server event next made) :
    ∀ call ∈ made, SafeCall call := by
  cases turn with
  | selectFailed top => exact selectCalls_safe inv []
  | selected ready top known =>
      intro call member
      rcases List.mem_append.mp member with asked | tested
      · exact selectCalls_safe inv ready call asked
      · rw [List.mem_singleton] at tested
        subst tested
        simp [SafeCall]
  | acceptFailed waiting => exact absurd accepts.1 (by decide)
  | accepted fd waiting valid fresh =>
      have size : server.numClient = server.opened.length := by
        simpa [Server.numClient] using inv.listed.length_eq
      have room : server.opened.length < MAX := accepts.2
      simpa [SafeCall, size] using room
  | finished i loop past => simp
  | skipped i fd loop found idle =>
      obtain ⟨number, _, connected⟩ := inv.target_of_mem (List.mem_of_getElem? found)
      simp [SafeCall, connected]
  | served i fd result count loop found ready possible =>
      obtain ⟨number, _, connected⟩ := inv.target_of_mem (List.mem_of_getElem? found)
      match result with
      | .bytes [] => simp [serve, SafeCall, connected]
      | .bytes (first :: rest) => simp [serve, SafeCall, connected]
      | .error => simp [serve, SafeCall, connected]

/-- However the accepts end, the table has an entry for each open connection. -/
def Crowded (server : Server) : Prop := server.opened.length ≤ server.numClient

theorem dropClient_length {clientSock : List Int} {i : Nat} {fd : Int}
    (found : clientSock[i]? = some fd) :
    (dropClient clientSock i).length + 1 = clientSock.length := by
  rw [dropClient_eq]
  exact SwapRemove.swapRemove_length found

theorem crowded_closed {server : Server} {fd : Int} {i : Nat} (crowded : Crowded server)
    (found : server.clientSock[i]? = some fd) (isOpen : fd ∈ server.opened.map Prod.fst) :
    (server.opened.filter (fun entry => entry.1 ≠ fd)).length ≤
      (dropClient server.clientSock i).length := by
  have size := dropClient_length found
  have fewer : (server.opened.filter (fun entry => entry.1 ≠ fd)).length <
      server.opened.length := by
    obtain ⟨entry, member, same⟩ := List.mem_map.mp isOpen
    exact List.length_filter_lt_length_iff_exists.mpr ⟨entry, member, by simp [same]⟩
  have room : server.opened.length ≤ server.clientSock.length := crowded
  omega

theorem crowded_turn {listenSock : Int} {made : List Call} {server next : Server}
    {event : Event} (crowded : Crowded server)
    (turn : Turn listenSock server event next made) : Crowded next := by
  have room : server.opened.length ≤ server.clientSock.length := crowded
  cases turn with
  | selectFailed top => exact crowded
  | selected ready top known => exact crowded
  | acceptFailed waiting =>
      simp only [Crowded, Server.numClient, List.length_append, List.length_singleton]
      omega
  | accepted fd waiting valid fresh =>
      simp only [Crowded, Server.numClient, List.length_append, List.length_cons]
      omega
  | finished i loop past => exact crowded
  | skipped i fd loop found idle => exact crowded
  | served i fd result count loop found ready possible =>
      match result with
      | .bytes (first :: rest) => exact crowded
      | .error => exact crowded
      | .bytes [] =>
          -- a read that returns 0 was made on an open connection
          have connected : ∃ number, server.target listenSock fd = .connection number := by
            cases target : server.target listenSock fd with
            | closed => simp [readPossible, target] at possible
            | listening => simp [readPossible, target] at possible
            | connection number => exact ⟨number, rfl⟩
          obtain ⟨number, connected⟩ := connected
          have isOpen : fd ∈ server.opened.map Prod.fst := by
            by_contra absent
            have closed := (lookup_closed_iff fd server.opened).mpr absent
            unfold Server.target at connected
            split at connected
            · cases connected
            · rw [closed] at connected
              cases connected
          exact crowded_closed crowded found isOpen

theorem accept_shows {listenSock : Int} {made : List Call} {server next : Server}
    {event : Event} (crowded : Crowded server)
    (turn : Turn listenSock server event next made)
    (safe : ∀ call ∈ made, SafeCall call) : AcceptOk server event := by
  cases turn with
  | selectFailed top => trivial
  | selected ready top known => trivial
  | acceptFailed waiting =>
      -- the result -1 was stored in the table
      have stored := safe _ (List.mem_singleton.mpr rfl)
      exact absurd rfl stored.2
  | accepted fd waiting valid fresh =>
      have stored := safe _ (List.mem_singleton.mpr rfl)
      exact ⟨valid, Nat.lt_of_le_of_lt crowded stored.1⟩
  | finished i loop past => trivial
  | skipped i fd loop found idle => trivial
  | served i fd result count loop found ready possible => trivial

/-- A run is safe exactly when every accept of it succeeds while fewer than
`MAX` connections are open. -/
theorem run_safe_iff (listenSock : Int) (events : List Event) (server : Server)
    (calls : List Call) (ran : exec (step listenSock) start events = some (server, calls)) :
    ((∀ call ∈ calls, SafeCall call) ∧ server.numClient ≤ MAX) ↔
      Along (step listenSock) AcceptOk start events := by
  constructor
  · rintro ⟨safe, _⟩
    exact Machine.along_of_calls SafeCall Crowded
      (fun _ _ _ _ crowded taken => crowded_turn crowded (turn_of_step taken))
      (fun _ _ _ _ crowded taken => accept_shows crowded (turn_of_step taken))
      (Nat.le_refl 0) ran safe
  · intro accepts
    have inv := Machine.exec_invariant_along
      (fun calls server => TableInv listenSock calls server ∧ ∀ call ∈ calls, SafeCall call)
      (fun before server event next made inv accepts taken => by
        refine ⟨table_turn inv.1 accepts (turn_of_step taken), fun call member => ?_⟩
        rcases List.mem_append.mp member with old | new
        · exact inv.2 call old
        · exact turn_safe inv.1 accepts (turn_of_step taken) call new)
      ⟨table_start listenSock, by simp⟩ accepts ran
    have size : server.numClient = server.opened.length := by
      simpa [Server.numClient] using inv.1.listed.length_eq
    exact ⟨inv.2, size ▸ inv.1.bounded⟩

theorem run_safe_iff_session :
    ∃ server calls, exec (step 3) start session = some (server, calls) ∧
      ∀ call ∈ calls, SafeCall call := by
  refine ⟨_, _, rfl, ?_⟩
  exact ((run_safe_iff 3 session _ _ rfl).mpr
    ((Machine.misses_zero_iff _ _).mp (by decide))).1

/-- The listening socket is ready, and `accept` returns -1. -/
theorem failed_accept_unsafe :
    ¬ ∀ (listenSock : Int) (events : List Event) (server : Server) (calls : List Call),
      exec (step listenSock) start events = some (server, calls) →
        (∀ call ∈ calls, SafeCall call) ∧ server.numClient ≤ MAX := by
  intro all
  obtain ⟨safe, _⟩ := all 3 [.select (some [3]), .accept (-1)] _ _ rfl
  have stored := safe (.store 0 (-1) .closed) (by decide)
  exact stored.2 rfl

end NetworkTest.SelectServer
