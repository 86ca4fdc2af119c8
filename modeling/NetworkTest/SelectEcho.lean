import NetworkTest.SelectTable

/-!
What each connection of the select server gets back. All clients share one
buffer and one table; the streams below are projections of the call sequence
to one connection, whatever its descriptor number was at the time.
-/

namespace NetworkTest.SelectServer

open CBuffer (Bytes BUFSIZ overwrite)
open Descriptors
open Machine (Step exec Along)

def readOf (number : Nat) : Call → Bytes
  | .read _ (.connection source) data => if source = number then data else []
  | _ => []

def writeOf (number : Nat) : Call → Bytes
  | .write _ (.connection sink) data => if sink = number then data else []
  | _ => []

def readFrom (number : Nat) (calls : List Call) : Bytes := calls.flatMap (readOf number)

def writtenTo (number : Nat) (calls : List Call) : Bytes := calls.flatMap (writeOf number)

/-- Accepts succeed, each read returns between 0 and `BUFSIZ - 1`, and each
write takes all the bytes it is given. -/
def EchoOk (server : Server) : Event → Prop
  | .read (.bytes data) taken => data.length < BUFSIZ ∧ taken = data.length
  | .read .error _ => False
  | event => AcceptOk server event

instance (server : Server) : (event : Event) → Decidable (EchoOk server event)
  | .read (.bytes data) taken =>
      inferInstanceAs (Decidable (data.length < BUFSIZ ∧ taken = data.length))
  | .read .error _ => isFalse id
  | .accept result => inferInstanceAs (Decidable (AcceptOk server (.accept result)))
  | .select _ => isTrue trivial
  | .pass => isTrue trivial

theorem acceptOk_of_echoOk {server : Server} {event : Event} (echo : EchoOk server event) :
    AcceptOk server event := by
  match event with
  | .read _ _ => trivial
  | .select _ => trivial
  | .pass => trivial
  | .accept _ => exact echo

/-- A call that moves data names an accepted connection. -/
def OnConnection (accepted : Nat) : Call → Prop
  | .read _ target _ => ∃ number < accepted, target = .connection number
  | .write _ target _ => ∃ number < accepted, target = .connection number
  | _ => True

theorem onConnection_mono {before after : Nat} (grows : before ≤ after) {call : Call}
    (named : OnConnection before call) : OnConnection after call := by
  cases call with
  | read fd target data =>
      obtain ⟨number, small, rfl⟩ := named
      exact ⟨number, Nat.lt_of_lt_of_le small grows, rfl⟩
  | write fd target data =>
      obtain ⟨number, small, rfl⟩ := named
      exact ⟨number, Nat.lt_of_lt_of_le small grows, rfl⟩
  | fdSet fd target => trivial
  | select maxfd readFds ready => trivial
  | store index fd target => trivial
  | fdIsSet fd target => trivial
  | terminate index => trivial
  | close fd target => trivial

theorem selectCalls_named (listenSock : Int) (server : Server) (ready : List Int)
    (accepted : Nat) :
    ∀ call ∈ selectCalls listenSock server ready, OnConnection accepted call := by
  intro call member
  rcases (mem_selectCalls_iff ..).mp member with ⟨fd, _, rfl⟩ | rfl
  · trivial
  · trivial

theorem selectCalls_silent (listenSock : Int) (server : Server) (ready : List Int)
    (number : Nat) :
    readFrom number (selectCalls listenSock server ready) = [] ∧
      writtenTo number (selectCalls listenSock server ready) = [] := by
  simp [selectCalls, readFrom, writtenTo, readOf, writeOf]

theorem turn_echoes {listenSock : Int} {calls made : List Call} {server next : Server}
    {event : Event} (inv : TableInv listenSock calls server) (echo : EchoOk server event)
    (turn : Turn listenSock server event next made) :
    (∀ number, writtenTo number made = readFrom number made) ∧
      (∀ call ∈ made, OnConnection next.accepted call) ∧ server.accepted ≤ next.accepted := by
  cases turn with
  | selectFailed top =>
      refine ⟨fun number => ?_, ?_, Nat.le_refl _⟩
      · rw [(selectCalls_silent ..).1, (selectCalls_silent ..).2]
      · exact selectCalls_named listenSock server [] server.accepted
  | selected ready top known =>
      refine ⟨fun number => ?_, ?_, Nat.le_refl _⟩
      · have silent := selectCalls_silent listenSock server ready number
        simp only [readFrom, writtenTo] at silent ⊢
        simp [silent.1, silent.2, readOf, writeOf]
      · intro call member
        rcases List.mem_append.mp member with asked | tested
        · exact selectCalls_named listenSock server ready server.accepted call asked
        · rw [List.mem_singleton] at tested
          subst tested
          trivial
  | acceptFailed waiting => exact absurd echo.1 (by decide)
  | accepted fd waiting valid fresh =>
      exact ⟨fun _ => rfl, by simp [OnConnection], Nat.le_succ _⟩
  | finished i loop past => exact ⟨fun _ => rfl, by simp, Nat.le_refl _⟩
  | skipped i fd loop found idle =>
      exact ⟨fun _ => rfl, by simp [OnConnection], Nat.le_refl _⟩
  | served i fd result count loop found ready possible =>
      obtain ⟨number, entry, connected⟩ := inv.target_of_mem (List.mem_of_getElem? found)
      have known : number < server.accepted :=
        inv.counted number (List.mem_map.mpr ⟨(fd, number), entry, rfl⟩)
      match result with
      | .bytes [] =>
          refine ⟨fun other => ?_, ?_, Nat.le_refl _⟩
          · simp [serve, writtenTo, readFrom, readOf, writeOf, connected]
          · simpa [serve, OnConnection, connected] using known
      | .bytes (first :: rest) =>
          obtain ⟨_, taken⟩ : (first :: rest).length < BUFSIZ ∧
            count = (first :: rest).length := echo
          -- the buffer's first n bytes are the bytes just read
          have sent : (((overwrite server.rcvBuffer (first :: rest)).set
              (first :: rest).length 0).take (first :: rest).length).take count =
              first :: rest := by
            rw [CBuffer.overwrite_set_take, taken, List.take_length]
          refine ⟨fun other => ?_, ?_, Nat.le_refl _⟩
          · simp only [serve, connected, sent, writtenTo, readFrom, List.flatMap_cons,
              List.flatMap_nil, readOf, writeOf, List.nil_append, List.append_nil]
          · simpa [serve, OnConnection, connected] using known
      | .error => exact absurd echo id

structure EchoInv (listenSock : Int) (calls : List Call) (server : Server) : Prop where
  table : TableInv listenSock calls server
  echoed : ∀ number, writtenTo number calls = readFrom number calls
  named : ∀ call ∈ calls, OnConnection server.accepted call

theorem echo_turn {listenSock : Int} {calls made : List Call} {server next : Server}
    {event : Event} (inv : EchoInv listenSock calls server) (echo : EchoOk server event)
    (turn : Turn listenSock server event next made) :
    EchoInv listenSock (calls ++ made) next := by
  obtain ⟨echoes, named, grows⟩ := turn_echoes inv.table echo turn
  refine ⟨table_turn inv.table (acceptOk_of_echoOk echo) turn, fun number => ?_, ?_⟩
  · have before := inv.echoed number
    have now := echoes number
    simp only [writtenTo, readFrom, List.flatMap_append] at before now ⊢
    rw [before, now]
  · intro call member
    rcases List.mem_append.mp member with old | new
    · exact onConnection_mono grows (inv.named call old)
    · exact named call new

/-- No cross-talk: what is written to a connection is what was read from it,
byte for byte, and no byte is read from or written to anything else. -/
theorem echo_exact (listenSock : Int) (events : List Event) (server : Server)
    (calls : List Call) (echo : Along (step listenSock) EchoOk start events)
    (ran : exec (step listenSock) start events = some (server, calls)) :
    (∀ number, writtenTo number calls = readFrom number calls) ∧
      ∀ call ∈ calls, OnConnection server.accepted call := by
  have inv := Machine.exec_invariant_along (EchoInv listenSock)
    (fun _ _ _ _ _ inv echo taken => echo_turn inv echo (turn_of_step taken))
    ⟨table_start listenSock, fun _ => rfl, by simp⟩ echo ran
  exact ⟨inv.echoed, inv.named⟩

/-- Two clients, the second of which is moved in the table and whose number
is taken over by a third. -/
def crossing : List Event :=
  [.select (some [3]), .accept 4, .pass, .pass,
    .select (some [3, 4]), .accept 5, .read (.bytes [97]) 1, .pass, .pass,
    .select (some [4, 5]), .read (.bytes []) 0, .pass,
    .select (some [3, 5]), .accept 4, .read (.bytes [98]) 1, .pass, .pass,
    .select (some [4]), .pass, .read (.bytes [99]) 1, .pass]

theorem echo_exact_crossing :
    ∃ server calls, exec (step 3) start crossing = some (server, calls) ∧
      writtenTo 2 calls = [99] ∧ writtenTo 1 calls = readFrom 1 calls := by
  refine ⟨_, _, rfl, rfl, ?_⟩
  exact (echo_exact 3 crossing _ _ ((Machine.misses_zero_iff _ _).mp (by decide)) rfl).1 1

end NetworkTest.SelectServer
