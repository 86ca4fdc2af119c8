import NetworkTest.ForkServer

/-!
Accepting and reaping in the forking server, over whole runs. Both counts go
wrong in the same way: by one for each event of one kind, so each law is
proved by counting those events along the run.
-/

namespace NetworkTest.ForkServer

open Descriptors
open Machine (Step exec Along misses)
open StandardSignal (Signal raise deliver)

inductive Turn (listenSock : Int) (server : Server) : Event → Server → List Call → Prop where
  | callAccept (top : server.pc = .top) (idle : server.handler = .idle) :
      Turn listenSock server .callAccept { server with pc := .accepting } []
  | accepted (fd : Int) (waiting : server.pc = .accepting) (idle : server.handler = .idle)
      (valid : 0 ≤ fd) (fresh : lookup fd server.opened = .closed) :
      Turn listenSock server (.accept fd)
        { server with
          opened := (fd, server.accepted) :: server.opened
          accepted := server.accepted + 1
          pc := .forking fd } []
  | refused (waiting : server.pc = .accepting) (idle : server.handler = .idle) :
      Turn listenSock server (.accept (-1)) { server with pc := .forking (-1) } [.acceptError]
  | delivered (pending : server.sigchld.pending = true) (idle : server.handler = .idle) :
      Turn listenSock server .deliver
        { server with
          handler := .entered
          interrupted := decide (server.pc = .accepting)
          sigchld := deliver server.sigchld pending } []
  | reaped (k : Nat) (child : Child) (found : server.children[k]? = some child)
      (entered : server.handler = .entered) (gone : child.status = .exited) :
      Turn listenSock server (.wait k)
        { server with
          handler := .waited
          children := server.children.set k { child with status := .reaped } }
        [.wait (some k)]
  | noChild (entered : server.handler = .entered)
      (allReaped : ∀ child ∈ server.children, child.status = .reaped) :
      Turn listenSock server .waitNone { server with handler := .waited } [.wait none]
  | interrupted (waited : server.handler = .waited) (cut : server.interrupted = true) :
      Turn listenSock server .handlerReturn
        { server with handler := .idle, interrupted := false, pc := .forking (-1) }
        [.acceptError]
  | returned (waited : server.handler = .waited) (uncut : server.interrupted = false) :
      Turn listenSock server .handlerReturn { server with handler := .idle } []
  | forked (connSock : Int) (ready : server.pc = .forking connSock)
      (idle : server.handler = .idle) :
      Turn listenSock server .fork
        { server with
          children := server.children ++ [{
            connSock := connSock
            target := lookup connSock server.opened
            status := .echoing }]
          pc := .closing connSock }
        [.fork connSock (lookup connSock server.opened)]
  | forkFailed (connSock : Int) (ready : server.pc = .forking connSock)
      (idle : server.handler = .idle) :
      Turn listenSock server .forkFails { server with pc := .exited } []
  | closed (connSock : Int) (ready : server.pc = .closing connSock)
      (idle : server.handler = .idle) :
      Turn listenSock server .close
        { server with
          opened := server.opened.filter (fun entry => entry.1 ≠ connSock)
          pc := .top }
        [.close connSock]
  | echoed (k : Nat) (child : Child) (result : ReadResult) (taken : Nat) (n : Int)
      (found : server.children[k]? = some child) (active : child.status = .echoing)
      (more : result ≠ .bytes []) (few : taken ≤ (readBytes result).length) :
      Turn listenSock server (.childRead k result taken) server
        [.read k child.target (readBytes result),
          .write k child.target n ((readBytes result).take taken)]
  | ended (k : Nat) (child : Child) (found : server.children[k]? = some child)
      (active : child.status = .echoing) :
      Turn listenSock server (.childRead k (.bytes []) 0) (exitChild server k child)
        [.read k child.target [], .exit k]
  | killed (k : Nat) (child : Child) (found : server.children[k]? = some child)
      (active : child.status = .echoing) :
      Turn listenSock server (.childKilled k) (exitChild server k child) [.exit k]

theorem turn_of_step {listenSock : Int} {server next : Server} {event : Event}
    {made : List Call} (taken : step listenSock server event = some (next, made)) :
    Turn listenSock server event next made := by
  cases event with
  | callAccept =>
      simp only [step, Option.ite_none_right_eq_some, Option.some.injEq, Prod.mk.injEq] at taken
      obtain ⟨⟨top, idle⟩, rfl, rfl⟩ := taken
      exact .callAccept top idle
  | accept fd =>
      simp only [step, Option.ite_none_right_eq_some] at taken
      obtain ⟨⟨waiting, idle⟩, taken⟩ := taken
      split at taken
      case isTrue failed =>
          cases taken
          rw [failed]
          exact .refused waiting idle
      case isFalse =>
          simp only [Option.ite_none_right_eq_some, Option.some.injEq, Prod.mk.injEq] at taken
          obtain ⟨⟨valid, _, fresh⟩, rfl, rfl⟩ := taken
          exact .accepted fd waiting idle valid fresh
  | deliver =>
      simp only [step] at taken
      split at taken
      case isTrue pending =>
          simp only [Option.ite_none_right_eq_some, Option.some.injEq, Prod.mk.injEq] at taken
          obtain ⟨⟨idle, _⟩, rfl, rfl⟩ := taken
          exact .delivered pending idle
      case isFalse => contradiction
  | wait k =>
      cases found : server.children[k]? with
      | none => simp [step, found] at taken
      | some child =>
          simp only [step, found, Option.ite_none_right_eq_some, Option.some.injEq,
            Prod.mk.injEq] at taken
          obtain ⟨⟨entered, gone⟩, rfl, rfl⟩ := taken
          exact .reaped k child found entered gone
  | waitNone =>
      simp only [step, Option.ite_none_right_eq_some, Option.some.injEq, Prod.mk.injEq] at taken
      obtain ⟨⟨entered, allReaped⟩, rfl, rfl⟩ := taken
      exact .noChild entered allReaped
  | handlerReturn =>
      simp only [step, Option.ite_none_right_eq_some] at taken
      obtain ⟨waited, taken⟩ := taken
      split at taken
      case isTrue cut =>
          simp only [Option.some.injEq, Prod.mk.injEq] at taken
          obtain ⟨rfl, rfl⟩ := taken
          exact .interrupted waited cut
      case isFalse uncut =>
          simp only [Option.some.injEq, Prod.mk.injEq] at taken
          obtain ⟨rfl, rfl⟩ := taken
          exact .returned waited (by simpa using uncut)
  | fork =>
      simp only [step] at taken
      split at taken
      case h_1 connSock ready =>
          simp only [Option.ite_none_right_eq_some, Option.some.injEq, Prod.mk.injEq] at taken
          obtain ⟨idle, rfl, rfl⟩ := taken
          exact .forked connSock ready idle
      case h_2 => contradiction
  | forkFails =>
      simp only [step] at taken
      split at taken
      case h_1 connSock ready =>
          simp only [Option.ite_none_right_eq_some, Option.some.injEq, Prod.mk.injEq] at taken
          obtain ⟨idle, rfl, rfl⟩ := taken
          exact .forkFailed connSock ready idle
      case h_2 => contradiction
  | close =>
      simp only [step] at taken
      split at taken
      case h_1 connSock ready =>
          simp only [Option.ite_none_right_eq_some, Option.some.injEq, Prod.mk.injEq] at taken
          obtain ⟨idle, rfl, rfl⟩ := taken
          exact .closed connSock ready idle
      case h_2 => contradiction
  | childRead k result count =>
      cases found : server.children[k]? with
      | none => simp [step, found] at taken
      | some child =>
          simp only [step, found, Option.ite_none_right_eq_some, Option.some.injEq] at taken
          obtain ⟨⟨active, _, few⟩, taken⟩ := taken
          match result with
          | .bytes [] =>
              obtain rfl : count = 0 := Nat.le_zero.mp few
              simp only [doEcho, Prod.mk.injEq] at taken
              obtain ⟨rfl, rfl⟩ := taken
              exact .ended k child found active
          | .bytes (first :: rest) =>
              simp only [doEcho, Prod.mk.injEq] at taken
              obtain ⟨rfl, rfl⟩ := taken
              exact .echoed k child _ count _ found active (by simp) few
          | .error =>
              obtain rfl : count = 0 := Nat.le_zero.mp few
              simp only [doEcho, Prod.mk.injEq] at taken
              obtain ⟨rfl, rfl⟩ := taken
              exact .echoed k child .error 0 _ found active (by simp) few
  | childKilled k =>
      cases found : server.children[k]? with
      | none => simp [step, found] at taken
      | some child =>
          simp only [step, found, Option.ite_none_right_eq_some, Option.some.injEq,
            Prod.mk.injEq] at taken
          obtain ⟨active, rfl, rfl⟩ := taken
          exact .killed k child found active

/-! Accepting: each failure of `accept`, and each delivery while it waits, costs a
fork without a connection. -/

/-- `accept` does not fail, and no SIGCHLD is delivered while the parent waits in it. -/
def Undisturbed (server : Server) : Event → Prop
  | .accept fd => fd ≠ -1
  | .deliver => server.pc ≠ .accepting
  | _ => True

instance (server : Server) (event : Event) : Decidable (Undisturbed server event) := by
  cases event <;> unfold Undisturbed <;> infer_instance

/-- Returns of `accept` that have not led to a fork yet. -/
def inFlight (server : Server) : Nat :=
  match server.pc with
  | .accepting => server.interrupted.toNat
  | .forking _ => 1
  | .exited => 1
  | .top => 0
  | .closing _ => 0

structure AcceptInv (disturbed : Nat) (server : Server) : Prop where
  balance : server.children.length + inFlight server = server.accepted + disturbed
  cut : server.interrupted = true → server.pc = .accepting ∧ server.handler ≠ .idle

theorem accept_turn {listenSock : Int} {disturbed : Nat} {made : List Call} {server next : Server}
    {event : Event} (inv : AcceptInv disturbed server)
    (turn : Turn listenSock server event next made) :
    AcceptInv (disturbed + if Undisturbed server event then 0 else 1) next := by
  obtain ⟨balance, cut⟩ := inv
  have uncut : server.handler = .idle → server.interrupted = false := by
    intro idle
    cases flag : server.interrupted with
    | false => rfl
    | true => exact absurd idle (cut flag).2
  cases turn with
  | callAccept top idle =>
      refine ⟨?_, by simp [uncut idle]⟩
      simpa [inFlight, top, uncut idle, Undisturbed] using balance
  | accepted fd waiting idle valid fresh =>
      refine ⟨?_, by simp [uncut idle]⟩
      have connected : fd ≠ -1 := by omega
      simp [inFlight, waiting, uncut idle, Undisturbed, connected] at balance ⊢
      omega
  | refused waiting idle =>
      refine ⟨?_, by simp [uncut idle]⟩
      simp [inFlight, waiting, uncut idle, Undisturbed] at balance ⊢
      omega
  | delivered pending idle =>
      by_cases waiting : server.pc = .accepting
      · refine ⟨?_, by simp [waiting]⟩
        simp [inFlight, waiting, uncut idle, Undisturbed] at balance ⊢
        omega
      · refine ⟨?_, by simp [waiting]⟩
        simpa [inFlight, waiting, uncut idle, Undisturbed] using balance
  | reaped k child found entered gone =>
      refine ⟨by simpa [inFlight, Undisturbed] using balance, ?_⟩
      intro flag
      exact ⟨(cut flag).1, by simp⟩
  | noChild entered allReaped =>
      refine ⟨by simpa [inFlight, Undisturbed] using balance, ?_⟩
      intro flag
      exact ⟨(cut flag).1, by simp⟩
  | interrupted waited flag =>
      refine ⟨?_, by simp⟩
      simpa [inFlight, (cut flag).1, flag, Undisturbed] using balance
  | returned waited flag =>
      refine ⟨?_, by simp [flag]⟩
      simp only [Undisturbed, ↓reduceIte, Nat.add_zero]
      exact balance
  | forked connSock ready idle =>
      refine ⟨?_, by simp [uncut idle]⟩
      simpa [inFlight, ready, Undisturbed] using balance
  | forkFailed connSock ready idle =>
      refine ⟨?_, by simp [uncut idle]⟩
      simpa [inFlight, ready, Undisturbed] using balance
  | closed connSock ready idle =>
      refine ⟨?_, by simp [uncut idle]⟩
      simpa [inFlight, ready, Undisturbed] using balance
  | echoed k child result taken n found active more few =>
      exact ⟨by simpa [Undisturbed] using balance, cut⟩
  | ended k child found active =>
      exact ⟨by simpa [inFlight, exitChild, Undisturbed] using balance, cut⟩
  | killed k child found active =>
      exact ⟨by simpa [inFlight, exitChild, Undisturbed] using balance, cut⟩

structure ConnectedInv (server : Server) : Prop where
  children : ∀ child ∈ server.children, ∃ number < server.accepted,
    child.target = .connection number
  forking : ∀ connSock, server.pc = .forking connSock →
    ∃ number < server.accepted, lookup connSock server.opened = .connection number
  uncut : server.interrupted = false

theorem connected_turn {listenSock : Int} {made : List Call} {server next : Server}
    {event : Event} (inv : ConnectedInv server) (quiet : Undisturbed server event)
    (turn : Turn listenSock server event next made) : ConnectedInv next := by
  obtain ⟨children, forking, uncut⟩ := inv
  have updated : ∀ k child status, server.children[k]? = some child →
      ∀ other ∈ server.children.set k { child with status := status },
        ∃ number < server.accepted, other.target = .connection number := by
    intro k child status found other member
    rcases List.mem_or_eq_of_mem_set member with old | rfl
    · exact children other old
    · exact children child (List.mem_of_getElem? found)
  cases turn with
  | callAccept top idle => exact ⟨children, by simp, uncut⟩
  | accepted fd waiting idle valid fresh =>
      refine ⟨?_, ?_, uncut⟩
      · intro child member
        obtain ⟨number, small, target⟩ := children child member
        exact ⟨number, Nat.lt_succ_of_lt small, target⟩
      · intro connSock same
        cases same
        exact ⟨server.accepted, Nat.lt_succ_self _, by simp [lookup]⟩
  | refused waiting idle => exact absurd rfl quiet
  | delivered pending idle =>
      -- outside of `accept` the handler interrupts nothing
      have elsewhere : server.pc ≠ .accepting := quiet
      exact ⟨children, forking, by simp [elsewhere]⟩
  | reaped k child found entered gone => exact ⟨updated k child _ found, forking, uncut⟩
  | noChild entered allReaped => exact ⟨children, forking, uncut⟩
  -- only an interrupted `accept` makes the parent fork without a connection
  | interrupted waited flag => simp [uncut] at flag
  | returned waited flag => exact ⟨children, forking, uncut⟩
  | forked connSock ready idle =>
      refine ⟨?_, by simp, uncut⟩
      intro child member
      rcases List.mem_append.mp member with old | new
      · exact children child old
      · rw [List.mem_singleton] at new
        subst new
        exact forking connSock ready
  | forkFailed connSock ready idle => exact ⟨children, by simp, uncut⟩
  | closed connSock ready idle => exact ⟨children, by simp, uncut⟩
  | echoed k child result taken n found active more few => exact ⟨children, forking, uncut⟩
  | ended k child found active => exact ⟨updated k child _ found, forking, uncut⟩
  | killed k child found active => exact ⟨updated k child _ found, forking, uncut⟩

theorem connected_start : ConnectedInv start :=
  ⟨by simp [start], by simp [start], rfl⟩

/-- When the parent is about to call `accept`, there is one child for each
accepted connection, echoing on it, exactly when no `accept` of the run failed
and no SIGCHLD was delivered while one waited. -/
theorem forked_iff_undisturbed (listenSock : Int) (events : List Event) (server : Server)
    (calls : List Call) (ran : exec (step listenSock) start events = some (server, calls))
    (top : server.pc = .top) :
    (server.children.length = server.accepted ∧
      ∀ child ∈ server.children, ∃ number < server.accepted,
        child.target = .connection number) ↔
      Along (step listenSock) Undisturbed start events := by
  have counted := @Machine.exec_misses _ _ _ (step listenSock) Undisturbed _ AcceptInv
    (fun count state event next made inv met taken => by
      simpa [met] using accept_turn inv (turn_of_step taken))
    (fun count state event next made inv missed taken => by
      simpa [missed] using accept_turn inv (turn_of_step taken))
    0 start server events calls ⟨rfl, by simp [start]⟩ ran
  have balance := counted.balance
  simp only [inFlight, top] at balance
  rw [← Machine.misses_zero_iff]
  constructor
  · rintro ⟨equal, _⟩
    omega
  · intro none
    have quiet := (Machine.misses_zero_iff _ _).mp none
    have inv := Machine.exec_invariant_along (fun _ server => ConnectedInv server)
      (fun _ _ _ _ _ inv quiet taken => connected_turn inv quiet (turn_of_step taken))
      connected_start quiet ran
    exact ⟨by omega, inv.children⟩

def oneClient : List Event :=
  [.callAccept, .accept 4, .fork, .childRead 0 (.bytes [104]) 1, .childRead 0 (.bytes []) 0,
    .deliver, .wait 0, .handlerReturn, .close]

theorem forked_iff_undisturbed_oneClient :
    ∃ server calls, exec (step 3) start oneClient = some (server, calls) ∧
      server.children.length = server.accepted := by
  refine ⟨_, _, rfl, ?_⟩
  exact ((forked_iff_undisturbed 3 oneClient _ _ rfl rfl).mpr
    ((Machine.misses_zero_iff _ _).mp (by decide))).1

/-- The same client, reaped while the parent waits for the next one: the
parent forks a second child, which has no connection. -/
theorem interrupted_accept_forks :
    ¬ ∀ (listenSock : Int) (events : List Event) (server : Server) (calls : List Call),
      exec (step listenSock) start events = some (server, calls) → server.pc = .top →
        server.children.length = server.accepted ∧
          ∀ child ∈ server.children, ∃ number < server.accepted,
            child.target = .connection number := by
  intro all
  have claimed := all 3 [.callAccept, .accept 4, .fork, .close, .callAccept,
    .childRead 0 (.bytes []) 0, .deliver, .wait 0, .handlerReturn, .fork, .close] _ _ rfl rfl
  exact absurd claimed.1 (by decide)

/-! Reaping: the handler waits once for each delivery, so each exit that is
merged into a pending SIGCHLD leaves a child that nobody waits for. -/

/-- No child exits while a SIGCHLD is already pending. -/
def ExitsApart (server : Server) : Event → Prop
  | .childRead _ (.bytes []) _ => server.sigchld.pending = false
  | .childKilled _ => server.sigchld.pending = false
  | _ => True

instance (server : Server) (event : Event) : Decidable (ExitsApart server event) := by
  unfold ExitsApart
  split <;> infer_instance

def unreaped (server : Server) : Nat :=
  server.children.countP (fun child => child.status = .exited)

def reapedCount (server : Server) : Nat :=
  server.children.countP (fun child => child.status = .reaped)

structure ReapInv (server : Server) : Prop where
  raised : server.sigchld.raised = unreaped server + reapedCount server
  handled : server.sigchld.delivered =
    reapedCount server + if server.handler = .entered then 1 else 0

theorem countP_status {children : List Child} {k : Nat} {child : Child} (status goal : Status)
    (found : children[k]? = some child) :
    (children.set k { child with status := status }).countP (fun other => other.status = goal) +
        (if child.status = goal then 1 else 0) =
      children.countP (fun other => other.status = goal) +
        (if status = goal then 1 else 0) := by
  obtain ⟨inside, rfl⟩ := List.getElem?_eq_some_iff.mp found
  rw [List.countP_set inside]
  have positive : children[k].status = goal →
      0 < children.countP (fun other => other.status = goal) := by
    intro same
    exact List.countP_pos_iff.mpr ⟨children[k], List.getElem_mem inside, by simpa using same⟩
  by_cases same : children[k].status = goal
  · have enough := positive same
    simp only [same, decide_true, ↓reduceIte, decide_eq_true_eq]
    omega
  · simp [same]

theorem reap_exitChild {server : Server} {k : Nat} {child : Child} (inv : ReapInv server)
    (found : server.children[k]? = some child) (active : child.status = .echoing) :
    ReapInv (exitChild server k child) := by
  have exits := countP_status .exited .exited found
  have reaps := countP_status .exited .reaped found
  simp [active] at exits reaps
  have raised := inv.raised
  have handled := inv.handled
  simp only [unreaped, reapedCount] at raised handled
  constructor
  · simp only [exitChild, StandardSignal.raise_raised, unreaped, reapedCount, reaps, exits]
    omega
  · simp only [exitChild, StandardSignal.raise_delivered, reapedCount, reaps]
    exact handled

theorem reap_turn {listenSock : Int} {made : List Call} {server next : Server}
    {event : Event} (inv : ReapInv server)
    (turn : Turn listenSock server event next made) : ReapInv next := by
  have raised := inv.raised
  have handled := inv.handled
  cases turn with
  | callAccept top idle => exact ⟨raised, handled⟩
  | accepted fd waiting idle valid fresh => exact ⟨raised, handled⟩
  | refused waiting idle => exact ⟨raised, handled⟩
  | delivered pending idle =>
      refine ⟨raised, ?_⟩
      simpa [reapedCount, idle] using handled
  | reaped k child found entered gone =>
      have exits := countP_status .reaped .exited found
      have reaps := countP_status .reaped .reaped found
      simp [gone] at exits reaps
      simp only [unreaped, reapedCount, entered] at raised handled
      constructor
      · simp only [unreaped, reapedCount, reaps]
        omega
      · simp only [reapedCount, reaps]
        simpa using handled
  | noChild entered allReaped =>
      -- the handler was entered, so an exit has not been waited for
      have bound := StandardSignal.delivered_le_raised server.sigchld
      rw [raised, handled, entered] at bound
      have waiting : 0 < unreaped server := by
        simp only [↓reduceIte] at bound
        omega
      obtain ⟨child, member, exited⟩ := List.countP_pos_iff.mp waiting
      rw [decide_eq_true_eq, allReaped child member] at exited
      cases exited
  | interrupted waited flag => exact ⟨raised, by simpa [waited, reapedCount] using handled⟩
  | returned waited flag => exact ⟨raised, by simpa [waited, reapedCount] using handled⟩
  | forked connSock ready idle =>
      refine ⟨?_, ?_⟩
      · simpa [unreaped, reapedCount, List.countP_append] using raised
      · simpa [reapedCount, List.countP_append] using handled
  | forkFailed connSock ready idle => exact ⟨raised, handled⟩
  | closed connSock ready idle => exact ⟨raised, handled⟩
  | echoed k child result taken n found active more few => exact inv
  | ended k child found active => exact reap_exitChild inv found active
  | killed k child found active => exact reap_exitChild inv found active

/-- The signal's own record of merged instances counts the exits that came
while one was pending. -/
theorem merged_turn {listenSock : Int} {made : List Call} {server next : Server}
    {event : Event} (turn : Turn listenSock server event next made) :
    next.sigchld.merged =
      server.sigchld.merged + if ExitsApart server event then 0 else 1 := by
  cases turn with
  | echoed k child result taken n found active more few =>
      match result with
      | .bytes [] => exact absurd rfl more
      | .bytes (first :: rest) => simp [ExitsApart]
      | .error => simp [ExitsApart]
  | ended k child found active =>
      cases pending : server.sigchld.pending <;> simp [exitChild, ExitsApart, pending]
  | killed k child found active =>
      cases pending : server.sigchld.pending <;> simp [exitChild, ExitsApart, pending]
  -- no child exits
  | _ => simp [ExitsApart]

theorem merged_run {listenSock : Int} {events : List Event} {server : Server}
    {calls : List Call} (ran : exec (step listenSock) start events = some (server, calls)) :
    server.sigchld.merged = misses (step listenSock) ExitsApart start events := by
  have counted := @Machine.exec_misses _ _ _ (step listenSock) ExitsApart _
    (fun count server => server.sigchld.merged = count)
    (fun count state event next made same met taken => by
      have merged := merged_turn (turn_of_step taken)
      simpa [met, same] using merged)
    (fun count state event next made same missed taken => by
      have merged := merged_turn (turn_of_step taken)
      simpa [missed, same] using merged)
    0 start server events calls rfl ran
  simpa using counted

/-- In a state with no SIGCHLD pending and the handler not running, every
child that has exited has been waited for exactly when no child of the run
exited while a SIGCHLD was pending. -/
theorem reaped_iff_exits_apart (listenSock : Int) (events : List Event) (server : Server)
    (calls : List Call) (ran : exec (step listenSock) start events = some (server, calls))
    (nothing : server.sigchld.pending = false) (idle : server.handler = .idle) :
    (∀ child ∈ server.children, child.status ≠ .exited) ↔
      Along (step listenSock) ExitsApart start events := by
  have inv : ReapInv server := Machine.exec_invariant (fun _ server => ReapInv server)
    (fun _ _ _ _ _ inv taken => reap_turn inv (turn_of_step taken)) ⟨rfl, rfl⟩ ran
  have handled : server.sigchld.delivered = reapedCount server := by
    simpa [idle] using inv.handled
  have raised := inv.raised
  -- each delivery has waited for one exit, so what is left over was merged
  calc (∀ child ∈ server.children, child.status ≠ .exited)
      ↔ unreaped server = 0 := by simp [unreaped, List.countP_eq_zero]
    _ ↔ server.sigchld.delivered = server.sigchld.raised := by omega
    _ ↔ server.sigchld.merged = 0 := StandardSignal.caught_up_iff server.sigchld nothing
    _ ↔ misses (step listenSock) ExitsApart start events = 0 := by rw [merged_run ran]
    _ ↔ Along (step listenSock) ExitsApart start events := Machine.misses_zero_iff _ _

theorem reaped_iff_exits_apart_oneClient :
    ∃ server calls, exec (step 3) start oneClient = some (server, calls) ∧
      ∀ child ∈ server.children, child.status ≠ .exited := by
  refine ⟨_, _, rfl, ?_⟩
  exact (reaped_iff_exits_apart 3 oneClient _ _ rfl rfl rfl).mpr
    ((Machine.misses_zero_iff _ _).mp (by decide))

/-- Three clients leave; two of the exits come while the handler runs and
share one SIGCHLD, so one child stays unreaped. -/
theorem merged_exit_unreaped :
    ¬ ∀ (listenSock : Int) (events : List Event) (server : Server) (calls : List Call),
      exec (step listenSock) start events = some (server, calls) →
        server.sigchld.pending = false → server.handler = .idle →
          ∀ child ∈ server.children, child.status ≠ .exited := by
  intro all
  have reaped := all 3 [.callAccept, .accept 4, .fork, .close, .callAccept, .accept 4, .fork,
    .close, .callAccept, .accept 4, .fork, .close, .childRead 0 (.bytes []) 0, .deliver,
    .childRead 1 (.bytes []) 0, .childRead 2 (.bytes []) 0, .wait 0, .handlerReturn, .deliver,
    .wait 1, .handlerReturn] _ _ rfl rfl rfl
  exact absurd rfl (reaped ⟨4, .connection 2, .exited⟩ (by decide))

end NetworkTest.ForkServer
