import NetworkTest.SelectServer

/-!
The client table over whole runs of the select loop. `Turn` lists what one
step can do; every invariant below is a case analysis on it.
-/

namespace NetworkTest.SelectServer

open Descriptors
open Machine (Step exec Along)

inductive Turn (listenSock : Int) (server : Server) : Event → Server → List Call → Prop where
  | selectFailed (top : server.pc = .top) :
      Turn listenSock server (.select none) { server with pc := .exited }
        (selectCalls listenSock server [])
  | selected (ready : List Int) (top : server.pc = .top)
      (known : ready ⊆ listenSock :: server.clientSock) :
      Turn listenSock server (.select (some ready))
        { server with
          readFds := ready
          pc := if listenSock ∈ ready then .accepting else .service 0 }
        (selectCalls listenSock server ready ++ [.fdIsSet listenSock .listening])
  | acceptFailed (waiting : server.pc = .accepting) :
      Turn listenSock server (.accept (-1))
        { server with clientSock := server.clientSock ++ [-1], pc := .service 0 }
        [.store server.numClient (-1) .closed]
  | accepted (fd : Int) (waiting : server.pc = .accepting) (valid : 0 ≤ fd)
      (fresh : server.target listenSock fd = .closed) :
      Turn listenSock server (.accept fd)
        { server with
          clientSock := server.clientSock ++ [fd]
          opened := (fd, server.accepted) :: server.opened
          accepted := server.accepted + 1
          pc := .service 0 }
        [.store server.numClient fd (.connection server.accepted)]
  | finished (i : Nat) (loop : server.pc = .service i) (past : server.clientSock[i]? = none) :
      Turn listenSock server .pass { server with pc := .top } []
  | skipped (i : Nat) (fd : Int) (loop : server.pc = .service i)
      (found : server.clientSock[i]? = some fd) (idle : fd ∉ server.readFds) :
      Turn listenSock server .pass { server with pc := .service (i + 1) }
        [.fdIsSet fd (server.target listenSock fd)]
  | served (i : Nat) (fd : Int) (result : ReadResult) (taken : Nat)
      (loop : server.pc = .service i) (found : server.clientSock[i]? = some fd)
      (ready : fd ∈ server.readFds)
      (possible : readPossible (server.target listenSock fd) result = true) :
      Turn listenSock server (.read result taken)
        (serve listenSock server i fd result taken).1
        (serve listenSock server i fd result taken).2

theorem turn_of_step {listenSock : Int} {server next : Server} {event : Event}
    {made : List Call} (taken : step listenSock server event = some (next, made)) :
    Turn listenSock server event next made := by
  unfold step at taken
  split at taken
  case h_1 top =>
      simp only [Option.some.injEq, Prod.mk.injEq] at taken
      obtain ⟨rfl, rfl⟩ := taken
      exact .selectFailed top
  case h_2 ready top =>
      split at taken
      case isTrue known =>
          simp only [Option.some.injEq, Prod.mk.injEq] at taken
          obtain ⟨rfl, rfl⟩ := taken
          exact .selected ready top known
      case isFalse => contradiction
  case h_3 result waiting =>
      split at taken
      case isTrue minus =>
          simp only [Option.some.injEq, Prod.mk.injEq] at taken
          obtain ⟨rfl, rfl⟩ := taken
          subst minus
          exact .acceptFailed waiting
      case isFalse =>
          split at taken
          case isTrue given =>
              simp only [Option.some.injEq, Prod.mk.injEq] at taken
              obtain ⟨rfl, rfl⟩ := taken
              exact .accepted result waiting given.1 given.2
          case isFalse => contradiction
  case h_4 i loop =>
      split at taken
      case h_1 past =>
          simp only [Option.some.injEq, Prod.mk.injEq] at taken
          obtain ⟨rfl, rfl⟩ := taken
          exact .finished i loop past
      case h_2 fd found =>
          split at taken
          case isTrue => contradiction
          case isFalse idle =>
              simp only [Option.some.injEq, Prod.mk.injEq] at taken
              obtain ⟨rfl, rfl⟩ := taken
              exact .skipped i fd loop found idle
  case h_5 i result count loop =>
      split at taken
      case h_1 => contradiction
      case h_2 fd found =>
          split at taken
          case isTrue given =>
              rw [Option.some.injEq] at taken
              have first := congrArg Prod.fst taken
              have second := congrArg Prod.snd taken
              subst first second
              exact .served i fd result count loop found given.1 given.2
          case isFalse => contradiction
  case h_6 => contradiction

theorem mem_selectCalls_iff (listenSock : Int) (server : Server) (ready : List Int)
    (call : Call) :
    call ∈ selectCalls listenSock server ready ↔
      (∃ fd ∈ listenSock :: server.clientSock,
        call = .fdSet fd (server.target listenSock fd)) ∨
      call = .select (getMaxfd server.clientSock listenSock + 1)
        (listenSock :: server.clientSock) ready := by
  simp [selectCalls, eq_comm, or_assoc]

theorem dropClient_eq (clientSock : List Int) (i : Nat) :
    dropClient clientSock i = SwapRemove.swapRemove clientSock i := by
  rcases List.eq_nil_or_concat clientSock with rfl | ⟨front, last, rfl⟩
  · simp [dropClient, SwapRemove.swapRemove]
  · rw [List.concat_eq_append]
    unfold dropClient SwapRemove.swapRemove
    simp only [List.getLast?_concat, List.length_append, List.length_singleton,
      Nat.add_sub_cancel]
    by_cases atEnd : i = front.length
    · simp [atEnd]
    · have final : (front ++ [last]).getD front.length 0 = last := by simp
      rw [if_pos atEnd, final, List.dropLast_eq_take]
      simp

theorem getMaxfd_ge (clientSock : List Int) (n : Int) :
    n ≤ getMaxfd clientSock n ∧ ∀ fd ∈ clientSock, fd ≤ getMaxfd clientSock n := by
  induction clientSock generalizing n with
  | nil => simp [getMaxfd]
  | cons head rest ih =>
      obtain ⟨start, tail⟩ := ih (if head > n then head else n)
      have unfolded : getMaxfd (head :: rest) n =
          getMaxfd rest (if head > n then head else n) := rfl
      rw [unfolded]
      have bounds : n ≤ (if head > n then head else n) ∧
          head ≤ (if head > n then head else n) := by
        split <;> omega
      refine ⟨Int.le_trans bounds.1 start, ?_⟩
      intro fd member
      rcases List.mem_cons.mp member with rfl | later
      · exact Int.le_trans bounds.2 start
      · exact tail fd later

/-! An observer of the calls: the connections accepted and not yet closed,
what `select` reported last, and the reads made since. A descriptor is kept
with what was behind it, so that a reused number is not mistaken for the
connection that was ready. -/

structure Pass where
  live : List Nat
  put : List (Int × Target)
  ready : List (Int × Target)
  reads : List (Int × Target)

def watch (pass : Pass) : Call → Pass
  | .fdSet fd target => { pass with put := pass.put ++ [(fd, target)] }
  | .select _ _ ready =>
      { pass with
        put := []
        ready := pass.put.filter (fun entry => entry.1 ∈ ready)
        reads := [] }
  | .store _ _ (.connection number) => { pass with live := number :: pass.live }
  | .read fd target _ => { pass with reads := pass.reads ++ [(fd, target)] }
  | .close _ (.connection number) =>
      { pass with live := pass.live.filter (fun other => other ≠ number) }
  | _ => pass

def lastPass (calls : List Call) : Pass :=
  calls.foldl watch { live := [], put := [], ready := [], reads := [] }

theorem lastPass_append (calls made : List Call) :
    lastPass (calls ++ made) = made.foldl watch (lastPass calls) := by
  simp [lastPass]

theorem watch_fdSets (pass : Pass) (fds : List Int) (target : Int → Target) :
    (fds.map (fun fd => Call.fdSet fd (target fd))).foldl watch pass =
      { pass with put := pass.put ++ fds.map (fun fd => (fd, target fd)) } := by
  induction fds generalizing pass with
  | nil => simp
  | cons fd rest ih => simp [watch, ih]

theorem lastPass_selectCalls (listenSock : Int) (server : Server) (ready : List Int)
    (calls : List Call) (put : (lastPass calls).put = []) :
    lastPass (calls ++ selectCalls listenSock server ready) =
      { live := (lastPass calls).live
        put := []
        ready := ((listenSock :: server.clientSock).map
          (fun fd => (fd, server.target listenSock fd))).filter (fun entry => entry.1 ∈ ready)
        reads := [] } := by
  rw [lastPass_append, selectCalls, List.foldl_append, watch_fdSets, put]
  rfl

/-- The accepts of the run succeed, and at most `MAX` connections are open at
once. -/
def AcceptOk (server : Server) : Event → Prop
  | .accept result => 0 ≤ result ∧ server.opened.length < MAX
  | _ => True

instance (server : Server) : (event : Event) → Decidable (AcceptOk server event)
  | .accept result => inferInstanceAs (Decidable (0 ≤ result ∧ server.opened.length < MAX))
  | .select _ => isTrue trivial
  | .pass => isTrue trivial
  | .read _ _ => isTrue trivial

/-- Where the entries behind the loop index still stand to be read. -/
def PhaseInv (listenSock : Int) (pass : Pass) (server : Server) : Prop :=
  match server.pc with
  | .top => True
  | .exited => True
  | .accepting =>
      server.readFds ⊆ listenSock :: server.clientSock ∧ pass.reads = [] ∧
        ∀ fd ∈ server.clientSock, fd ∈ server.readFds →
          (fd, server.target listenSock fd) ∈ pass.ready
  | .service i =>
      (∀ fd ∈ server.clientSock.drop i, fd ∉ pass.reads.map Prod.fst) ∧
        ∀ fd ∈ server.clientSock, fd ∈ server.readFds →
          (fd, server.target listenSock fd) ∈ pass.ready

structure TableInv (listenSock : Int) (calls : List Call) (server : Server) : Prop where
  listed : server.clientSock.Perm (server.opened.map Prod.fst)
  unique : (server.opened.map Prod.fst).Nodup
  numbers : (server.opened.map Prod.snd).Nodup
  alive : server.opened.map Prod.snd = (lastPass calls).live
  counted : ∀ number ∈ server.opened.map Prod.snd, number < server.accepted
  apart : listenSock ∉ server.opened.map Prod.fst
  valid : ∀ fd ∈ server.opened.map Prod.fst, 0 ≤ fd
  bounded : server.opened.length ≤ MAX
  put : (lastPass calls).put = []
  reported : (lastPass calls).reads ⊆ (lastPass calls).ready
  once : ((lastPass calls).reads.map Prod.fst).Nodup
  phase : PhaseInv listenSock (lastPass calls) server

theorem TableInv.nodup {listenSock : Int} {calls : List Call} {server : Server}
    (inv : TableInv listenSock calls server) : server.clientSock.Nodup :=
  inv.listed.nodup_iff.mpr inv.unique

theorem TableInv.target_of_mem {listenSock : Int} {calls : List Call} {server : Server}
    (inv : TableInv listenSock calls server) {fd : Int} (member : fd ∈ server.clientSock) :
    ∃ number, (fd, number) ∈ server.opened ∧
      server.target listenSock fd = .connection number := by
  obtain ⟨⟨key, number⟩, entry, rfl⟩ := List.mem_map.mp (inv.listed.mem_iff.mp member)
  refine ⟨number, entry, ?_⟩
  have other : key ≠ listenSock := by
    rintro rfl
    exact inv.apart (List.mem_map_of_mem entry)
  rw [Server.target, if_neg other]
  exact (lookup_eq_iff inv.unique).mpr entry

theorem table_start (listenSock : Int) : TableInv listenSock [] start where
  listed := List.Perm.refl _
  unique := List.nodup_nil
  numbers := List.nodup_nil
  alive := rfl
  counted := by simp [start]
  apart := by simp [start]
  valid := by simp [start]
  bounded := by simp [start]
  put := rfl
  reported := by simp [lastPass]
  once := by simp [lastPass]
  phase := trivial

theorem table_selected {listenSock : Int} {calls : List Call} {server : Server}
    (inv : TableInv listenSock calls server) (ready : List Int) (rest : List Call)
    (quiet : ∀ pass, rest.foldl watch pass = pass) (next : Server)
    (same : next.clientSock = server.clientSock ∧ next.opened = server.opened ∧
      next.accepted = server.accepted)
    (phase : PhaseInv listenSock (lastPass (calls ++ selectCalls listenSock server ready)) next) :
    TableInv listenSock (calls ++ (selectCalls listenSock server ready ++ rest)) next := by
  obtain ⟨table, opened, accepted⟩ := same
  have seen := lastPass_selectCalls listenSock server ready calls inv.put
  have total : lastPass (calls ++ (selectCalls listenSock server ready ++ rest)) =
      lastPass (calls ++ selectCalls listenSock server ready) := by
    rw [← List.append_assoc, lastPass_append _ rest, quiet]
  exact {
    listed := by rw [table, opened]; exact inv.listed
    unique := by rw [opened]; exact inv.unique
    numbers := by rw [opened]; exact inv.numbers
    alive := by rw [total, seen, opened]; exact inv.alive
    counted := by rw [opened, accepted]; exact inv.counted
    apart := by rw [opened]; exact inv.apart
    valid := by rw [opened]; exact inv.valid
    bounded := by rw [opened]; exact inv.bounded
    put := by rw [total, seen]
    reported := by rw [total, seen]; simp
    once := by rw [total, seen]; simp
    phase := by rw [total]; exact phase }

theorem table_accepted {listenSock : Int} {calls : List Call} {server : Server} {fd : Int}
    (inv : TableInv listenSock calls server) (waiting : server.pc = .accepting)
    (valid : 0 ≤ fd) (fresh : server.target listenSock fd = .closed)
    (room : server.opened.length < MAX) (made : List Call)
    (watched : made.foldl watch (lastPass calls) =
      { lastPass calls with live := server.accepted :: (lastPass calls).live }) :
    TableInv listenSock (calls ++ made)
      { server with
        clientSock := server.clientSock ++ [fd]
        opened := (fd, server.accepted) :: server.opened
        accepted := server.accepted + 1
        pc := .service 0 } := by
  have phase := inv.phase
  simp only [PhaseInv, waiting] at phase
  obtain ⟨known, noReads, reported⟩ := phase
  have notListen : fd ≠ listenSock := by
    rintro rfl
    simp [Server.target] at fresh
  have closed : lookup fd server.opened = .closed := by
    simpa [Server.target, notListen] using fresh
  have absent : fd ∉ server.opened.map Prod.fst := (lookup_closed_iff _ _).mp closed
  have outside : fd ∉ server.clientSock := fun member =>
    absent (inv.listed.mem_iff.mp member)
  have seen : lastPass (calls ++ made) =
      { lastPass calls with live := server.accepted :: (lastPass calls).live } := by
    rw [lastPass_append, watched]
  have newNumber : server.accepted ∉ server.opened.map Prod.snd := fun member =>
    Nat.lt_irrefl _ (inv.counted _ member)
  refine
    { listed := ?_, unique := ?_, numbers := ?_, alive := ?_, counted := ?_, apart := ?_,
      valid := ?_, bounded := ?_, put := ?_, reported := ?_, once := ?_, phase := ?_ }
  · exact (List.perm_append_singleton fd _).trans (inv.listed.cons fd)
  · exact List.nodup_cons.mpr ⟨absent, inv.unique⟩
  · exact List.nodup_cons.mpr ⟨newNumber, inv.numbers⟩
  · rw [seen, List.map_cons, inv.alive]
  · intro number member
    rcases List.mem_cons.mp member with rfl | old
    · exact Nat.lt_succ_self _
    · exact Nat.lt_succ_of_lt (inv.counted number old)
  · intro member
    rcases List.mem_cons.mp member with same | old
    · exact notListen same.symm
    · exact inv.apart old
  · intro other member
    rcases List.mem_cons.mp member with rfl | old
    · exact valid
    · exact inv.valid other old
  · exact room
  · rw [seen]; exact inv.put
  · rw [seen]; exact inv.reported
  · rw [seen]; exact inv.once
  · rw [seen]
    refine ⟨fun other _ => by simp [noReads], ?_⟩
    intro other member ready
    rcases List.mem_append.mp member with old | new
    · have differs : other ≠ fd := fun same => outside (same ▸ old)
      have before := reported other old ready
      simpa [Server.target, lookup, differs] using before
    · rw [List.mem_singleton] at new
      subst new
      -- a fresh descriptor was not in the set given to select
      rcases List.mem_cons.mp (known ready) with same | old
      · exact absurd same notListen
      · exact absurd old outside

/-- The read of the entry under the loop index is the first one of its
descriptor since `select`, and `select` reported it. -/
theorem read_is_ready {listenSock : Int} {calls : List Call} {server : Server} {i : Nat}
    {fd : Int} (inv : TableInv listenSock calls server) (loop : server.pc = .service i)
    (found : server.clientSock[i]? = some fd) (ready : fd ∈ server.readFds) :
    fd ∉ (lastPass calls).reads.map Prod.fst ∧
      (fd, server.target listenSock fd) ∈ (lastPass calls).ready ∧
      ∀ other ∈ server.clientSock.drop (i + 1),
        other ≠ fd ∧ other ∉ (lastPass calls).reads.map Prod.fst := by
  have phase := inv.phase
  simp only [PhaseInv, loop] at phase
  obtain ⟨unread, reported⟩ := phase
  obtain ⟨inside, here⟩ := List.getElem?_eq_some_iff.mp found
  have split : server.clientSock.drop i = fd :: server.clientSock.drop (i + 1) := by
    rw [List.drop_eq_getElem_cons inside, here]
  have distinct : (server.clientSock.drop i).Nodup :=
    inv.nodup.sublist (List.drop_sublist i _)
  rw [split] at unread distinct
  refine ⟨unread fd List.mem_cons_self, reported fd (List.mem_of_getElem? found) ready, ?_⟩
  intro other later
  refine ⟨?_, unread other (List.mem_cons_of_mem fd later)⟩
  rintro rfl
  exact (List.nodup_cons.mp distinct).1 later

theorem table_echoed {listenSock : Int} {calls : List Call} {server : Server} {i : Nat}
    {fd : Int} (inv : TableInv listenSock calls server) (loop : server.pc = .service i)
    (found : server.clientSock[i]? = some fd) (ready : fd ∈ server.readFds)
    (made : List Call)
    (watched : made.foldl watch (lastPass calls) =
      { lastPass calls with
        reads := (lastPass calls).reads ++ [(fd, server.target listenSock fd)] })
    (buffer : CBuffer.Bytes) :
    TableInv listenSock (calls ++ made)
      { server with rcvBuffer := buffer, pc := .service (i + 1) } := by
  obtain ⟨first, reported, later⟩ := read_is_ready inv loop found ready
  have phase := inv.phase
  simp only [PhaseInv, loop] at phase
  have seen : lastPass (calls ++ made) = { lastPass calls with
      reads := (lastPass calls).reads ++ [(fd, server.target listenSock fd)] } := by
    rw [lastPass_append, watched]
  refine
    { listed := inv.listed, unique := inv.unique, numbers := inv.numbers, alive := ?_,
      counted := inv.counted, apart := inv.apart, valid := inv.valid,
      bounded := inv.bounded, put := ?_, reported := ?_, once := ?_, phase := ?_ }
  · rw [seen]; exact inv.alive
  · rw [seen]; exact inv.put
  · rw [seen]
    exact List.append_subset.mpr ⟨inv.reported, by simpa using reported⟩
  · rw [seen, List.map_append, List.nodup_append]
    refine ⟨inv.once, by simp, ?_⟩
    intro old member new same equal
    rw [List.map_cons, List.map_nil, List.mem_singleton] at same
    rw [equal, same] at member
    exact first member
  · rw [seen]
    refine ⟨?_, phase.2⟩
    intro other member
    rw [List.map_append, List.mem_append, not_or]
    refine ⟨(later other member).2, ?_⟩
    simpa using (later other member).1

theorem table_closed {listenSock : Int} {calls : List Call} {server : Server} {i : Nat}
    {fd : Int} (inv : TableInv listenSock calls server) (loop : server.pc = .service i)
    (found : server.clientSock[i]? = some fd) (ready : fd ∈ server.readFds)
    (number : Nat) (connected : server.target listenSock fd = .connection number) :
    TableInv listenSock
      (calls ++ [.fdIsSet fd (.connection number), .read fd (.connection number) [],
        .close fd (.connection number)])
      { server with
        clientSock := dropClient server.clientSock i
        opened := server.opened.filter (fun entry => entry.1 ≠ fd)
        pc := .service (i + 1) } := by
  obtain ⟨first, reported, later⟩ := read_is_ready inv loop found ready
  have open_fd := inv.listed.mem_iff.mp (List.mem_of_getElem? found)
  have phase := inv.phase
  simp only [PhaseInv, loop] at phase
  -- the reads are those of an echo at the same place
  have echoed := table_echoed inv loop found ready
    [.fdIsSet fd (server.target listenSock fd), .read fd (server.target listenSock fd) []]
    rfl server.rcvBuffer
  rw [connected] at echoed
  have seen : lastPass (calls ++ [.fdIsSet fd (.connection number),
      .read fd (.connection number) [], .close fd (.connection number)]) =
      { lastPass (calls ++ [.fdIsSet fd (.connection number),
          .read fd (.connection number) []]) with
        live := (lastPass calls).live.filter (fun other => other ≠ number) } := by
    simp only [lastPass_append]
    rfl
  have entry : (fd, number) ∈ server.opened := by
    obtain ⟨found, entry, same⟩ := inv.target_of_mem (List.mem_of_getElem? found)
    rw [connected, Target.connection.injEq] at same
    exact same ▸ entry
  have sub : (server.opened.filter (fun entry => entry.1 ≠ fd)).Sublist server.opened :=
    List.filter_sublist
  have keepsFds := (sub.map Prod.fst).subset
  have keepsNumbers := (sub.map Prod.snd).subset
  have table : server.clientSock.Perm (fd :: dropClient server.clientSock i) := by
    rw [dropClient_eq]
    exact SwapRemove.swapRemove_perm found
  refine
    { listed := ?_, unique := inv.unique.sublist (sub.map _),
      numbers := inv.numbers.sublist (sub.map _), alive := ?_,
      counted := fun number member => inv.counted number (keepsNumbers member),
      apart := fun member => inv.apart (keepsFds member),
      valid := fun other member => inv.valid other (keepsFds member),
      bounded := Nat.le_trans sub.length_le inv.bounded, put := ?_, reported := ?_,
      once := ?_, phase := ?_ }
  -- both the table and the open connections have lost just this entry
  · exact ((table.symm.trans inv.listed).trans
      (opened_perm_cons_filter inv.unique open_fd)).cons_inv
  · rw [seen, ← inv.alive]
    exact opened_numbers_filter inv.unique inv.numbers entry
  · rw [seen]; exact echoed.put
  · rw [seen]; exact echoed.reported
  · rw [seen]; exact echoed.once
  · rw [seen]
    have echoedPhase := echoed.phase
    simp only [PhaseInv] at echoedPhase
    refine ⟨?_, ?_⟩
    · intro other member
      apply echoedPhase.1 other
      -- the last entry moves to `i`, behind the index: it is skipped in this pass
      rw [dropClient_eq] at member
      exact SwapRemove.mem_swapRemove_drop found member
    · intro other member isReady
      -- the number is free again, but no entry of the table has it
      have fdDropped : other ≠ fd := by
        rintro rfl
        exact (List.nodup_cons.mp (table.nodup_iff.mp inv.nodup)).1 member
      have before := echoedPhase.2 other
        (table.mem_iff.mpr (List.mem_cons_of_mem fd member)) isReady
      by_cases listening : other = listenSock
      · simpa [Server.target, listening] using before
      · simp only [Server.target, listening, ↓reduceIte] at before ⊢
        rw [lookup_filter_ne server.opened fdDropped]
        exact before

theorem table_turn {listenSock : Int} {calls made : List Call} {server next : Server}
    {event : Event} (inv : TableInv listenSock calls server)
    (accepts : AcceptOk server event) (turn : Turn listenSock server event next made) :
    TableInv listenSock (calls ++ made) next := by
  cases turn with
  | selectFailed top =>
      have kept := table_selected inv [] [] (fun _ => rfl) { server with pc := .exited }
        ⟨rfl, rfl, rfl⟩ trivial
      simpa using kept
  | selected ready top known =>
      refine table_selected inv ready [.fdIsSet listenSock .listening] (fun _ => rfl) _
        ⟨rfl, rfl, rfl⟩ ?_
      rw [lastPass_selectCalls listenSock server ready calls inv.put]
      have reported : ∀ fd ∈ server.clientSock, fd ∈ ready →
          (fd, server.target listenSock fd) ∈
            ((listenSock :: server.clientSock).map
              (fun fd => (fd, server.target listenSock fd))).filter
                (fun entry => entry.1 ∈ ready) := by
        intro fd member isReady
        refine List.mem_filter.mpr ⟨?_, by simpa using isReady⟩
        exact List.mem_map.mpr ⟨fd, List.mem_cons_of_mem _ member, rfl⟩
      by_cases connecting : listenSock ∈ ready
      · simp only [PhaseInv, connecting, ↓reduceIte]
        exact ⟨known, trivial, reported⟩
      · simp only [PhaseInv, connecting, ↓reduceIte]
        exact ⟨by simp, reported⟩
  | acceptFailed waiting => exact absurd accepts.1 (by decide)
  | accepted fd waiting valid fresh =>
      exact table_accepted inv waiting valid fresh accepts.2 _ rfl
  | finished i loop past =>
      simp only [List.append_nil]
      exact { inv with phase := trivial }
  | skipped i fd loop found idle =>
      have phase := inv.phase
      simp only [PhaseInv, loop] at phase
      have seen : lastPass (calls ++ [.fdIsSet fd (server.target listenSock fd)]) =
          lastPass calls := by rw [lastPass_append]; rfl
      refine { inv with alive := ?_, put := ?_, reported := ?_, once := ?_, phase := ?_ }
      · rw [seen]; exact inv.alive
      · rw [seen]; exact inv.put
      · rw [seen]; exact inv.reported
      · rw [seen]; exact inv.once
      · rw [seen]
        refine ⟨?_, phase.2⟩
        intro other member
        apply phase.1 other
        exact (List.drop_sublist_drop_left _ (Nat.le_succ i)).subset member
  | served i fd result count loop found ready possible =>
      match result with
      | .bytes [] =>
          obtain ⟨number, _, connected⟩ := inv.target_of_mem (List.mem_of_getElem? found)
          simp only [serve, connected]
          exact table_closed inv loop found ready number connected
      | .bytes (first :: rest) => exact table_echoed inv loop found ready _ rfl _
      | .error => exact table_echoed inv loop found ready _ rfl server.rcvBuffer

theorem table_run {listenSock : Int} {events : List Event} {server : Server}
    {calls : List Call} (accepts : Along (step listenSock) AcceptOk start events)
    (ran : exec (step listenSock) start events = some (server, calls)) :
    TableInv listenSock calls server :=
  Machine.exec_invariant_along (TableInv listenSock)
    (fun _ _ _ _ _ inv accepts taken => table_turn inv accepts (turn_of_step taken))
    (table_start listenSock) accepts ran

def SelectBound : Call → Prop
  | .select maxfd readFds _ => ∀ fd ∈ readFds, fd < maxfd
  | _ => True

theorem selectBound_made (listenSock : Int) (server : Server) (ready : List Int) :
    ∀ call ∈ selectCalls listenSock server ready, SelectBound call := by
  intro call member
  rcases (mem_selectCalls_iff ..).mp member with ⟨fd, _, rfl⟩ | rfl
  · trivial
  · obtain ⟨listening, clients⟩ := getMaxfd_ge server.clientSock listenSock
    intro fd put
    rcases List.mem_cons.mp put with rfl | client
    · exact Int.lt_add_one_of_le listening
    · exact Int.lt_add_one_of_le (clients fd client)

theorem selectBound_turn {listenSock : Int} {server next : Server} {event : Event}
    {made : List Call} (turn : Turn listenSock server event next made) :
    ∀ call ∈ made, SelectBound call := by
  cases turn with
  | selectFailed top => exact selectBound_made listenSock server []
  | selected ready top known =>
      intro call member
      rcases List.mem_append.mp member with asked | tested
      · exact selectBound_made listenSock server ready call asked
      · rw [List.mem_singleton] at tested
        subst tested
        trivial
  | acceptFailed waiting => simp [SelectBound]
  | accepted fd waiting valid fresh => simp [SelectBound]
  | finished i loop past => simp
  | skipped i fd loop found idle => simp [SelectBound]
  | served i fd result count loop found ready possible =>
      match result with
      | .bytes [] => simp [serve, SelectBound]
      | .bytes (first :: rest) => simp [serve, SelectBound]
      | .error => simp [serve, SelectBound]

/-- At the top of each pass the table lists the connections accepted and not
yet closed, one entry each; `select` is given a bound above all descriptors;
and since `select` only reported descriptors were read, each once and still
standing for the connection that was reported. -/
theorem client_table (listenSock : Int) (events : List Event) (server : Server)
    (calls : List Call) (accepts : Along (step listenSock) AcceptOk start events)
    (ran : exec (step listenSock) start events = some (server, calls)) :
    (server.pc = .top →
      server.clientSock.Nodup ∧ server.clientSock.Perm (server.opened.map Prod.fst) ∧
        server.opened.map Prod.snd = (lastPass calls).live ∧ (lastPass calls).live.Nodup) ∧
      (∀ maxfd readFds ready, Call.select maxfd readFds ready ∈ calls →
        ∀ fd ∈ readFds, fd < maxfd) ∧
      (∀ entry ∈ (lastPass calls).reads, entry ∈ (lastPass calls).ready) ∧
      ((lastPass calls).reads.map Prod.fst).Nodup := by
  have inv := table_run accepts ran
  have bounds := Machine.exec_calls SelectBound
    (fun _ _ _ _ taken => selectBound_turn (turn_of_step taken)) ran
  refine ⟨fun _ => ⟨inv.nodup, inv.listed, inv.alive, inv.alive ▸ inv.numbers⟩, ?_,
    inv.reported, inv.once⟩
  intro maxfd readFds ready member
  exact bounds (.select maxfd readFds ready) member

/-- Connect, echo, leave: a run in which every kind of turn happens. -/
def session : List Event :=
  [.select (some [3]), .accept 4, .pass, .pass,
    .select (some [4]), .read (.bytes [104, 105]) 2, .pass,
    .select (some [4]), .read (.bytes []) 0, .pass]

theorem client_table_session :
    ∃ server calls, exec (step 3) start session = some (server, calls) ∧
      server.pc = .top ∧ server.clientSock.Nodup := by
  refine ⟨_, _, rfl, rfl, ?_⟩
  exact ((client_table 3 session _ _ ((Machine.misses_zero_iff _ _).mp (by decide)) rfl).1
    rfl).1

end NetworkTest.SelectServer
