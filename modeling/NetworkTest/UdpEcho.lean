import Mathlib.Data.List.Perm.Subperm
import NetworkTest.EchoAlarm

/-!
The UDP echo server of wen/udp with any number of the clients of wen/udp, which
wait for the answer to a line before they read the next. Requests and replies
may be lost, late, or out of order.
-/

namespace NetworkTest.UdpEcho

open CBuffer (Bytes BUFSIZ Memory cstring)
open EchoAlarm (quit)
open Machine (Step exec)

/-- A request with its sender, or a reply with its receiver. -/
structure Datagram where
  client : Nat
  payload : Bytes
  deriving DecidableEq

inductive ClientPc where
  | reading
  | receiving
  | exited
  deriving DecidableEq

/-- `last` is the text of the last request. -/
structure Client where
  pc : ClientPc
  sndBuffer : Memory BUFSIZ
  last : Bytes

inductive ServerPc where
  | receiving
  | sending (datagram : Datagram)
  | exited
  deriving DecidableEq

/-- `requests` and `replies` are under way or in a socket. -/
structure System where
  clients : Nat → Client
  requests : List Datagram
  server : ServerPc
  replies : List Datagram

/-- `ok` is whether `sendto` succeeds. -/
inductive Event where
  | key (client : Nat) (typed : Bytes) (ok : Bool)
  | loseRequest (i : Nat)
  | serverRecv (i : Nat)
  | serverRecvFails
  | serverSend (ok : Bool)
  | loseReply (i : Nat)
  | recvfrom (client i : Nat)
  | recvFails (client : Nat)
  deriving DecidableEq

/-- `store` is the terminating zero, at `sndBuffer[index]` of the client. -/
inductive Call where
  | store (client index : Nat)
  | original (client : Nat) (text : Bytes)
  | echoed (client : Nat) (text : Bytes)
  deriving DecidableEq

/-- `recvfrom` into a buffer of `BUFSIZ` bytes. -/
def Datagram.truncated (datagram : Datagram) : Datagram :=
  { datagram with payload := datagram.payload.take BUFSIZ }

/-- The buffer behind a read, with its text terminated. A full buffer is its own text:
the zero is behind it. -/
def terminated (sndBuffer : Memory BUFSIZ) (data : Bytes) (fits : data.length ≤ BUFSIZ) :
    Memory BUFSIZ := (sndBuffer.store data fits).set data.length 0

def System.put (system : System) (client : Nat) (state : Client) : System :=
  { system with clients := Function.update system.clients client state }

/-- One pass of a client's loop up to its `sendto`. -/
def typed (system : System) (client : Nat) (data : Bytes) (fits : data.length ≤ BUFSIZ)
    (ok : Bool) : System × List Call :=
  let old := system.clients client
  let sndBuffer := terminated old.sndBuffer data fits
  let text := cstring sndBuffer.val
  if text = quit then
    (system.put client { old with sndBuffer := sndBuffer, pc := .exited },
      [.store client data.length])
  else if ok then
    ({ system.put client { pc := .receiving, sndBuffer := sndBuffer, last := text } with
        requests := system.requests ++ [⟨client, text⟩] },
      [.store client data.length, .original client text])
  else
    (system.put client { old with sndBuffer := sndBuffer, pc := .exited },
      [.store client data.length, .original client text])

def step : Step System Event Call := fun system event =>
  match event with
  | .key client data ok =>
      if fits : data.length ≤ BUFSIZ then
        if data ≠ [] ∧ (system.clients client).pc = .reading then
          some (typed system client data fits ok)
        else none
      else none
  | .loseRequest i =>
      if i < system.requests.length then
        some ({ system with requests := system.requests.eraseIdx i }, [])
      else none
  | .serverRecv i =>
      match system.server, system.requests[i]? with
      | .receiving, some datagram =>
          some ({ system with
            requests := system.requests.eraseIdx i, server := .sending datagram.truncated }, [])
      | _, _ => none
  | .serverRecvFails =>
      if system.server = .receiving then some ({ system with server := .exited }, []) else none
  | .serverSend ok =>
      match system.server with
      | .sending datagram =>
          if ok then
            some ({ system with
              replies := system.replies ++ [datagram], server := .receiving }, [])
          else some ({ system with server := .exited }, [])
      | _ => none
  | .loseReply i =>
      if i < system.replies.length then
        some ({ system with replies := system.replies.eraseIdx i }, [])
      else none
  | .recvfrom client i =>
      match system.replies[i]? with
      | none => none
      | some datagram =>
          if datagram.client = client ∧ (system.clients client).pc = .receiving then
            let old := system.clients client
            let sndBuffer := terminated old.sndBuffer datagram.truncated.payload
              (List.length_take_le ..)
            some ({ system.put client { old with pc := .reading, sndBuffer := sndBuffer } with
                replies := system.replies.eraseIdx i },
              [.store client datagram.truncated.payload.length,
                .echoed client (cstring sndBuffer.val)])
          else none
  | .recvFails client =>
      if (system.clients client).pc = .receiving then
        some (system.put client { system.clients client with pc := .exited }, [])
      else none

def start (stack : Nat → Memory BUFSIZ) : System where
  clients := fun client => { pc := .reading, sndBuffer := stack client, last := [] }
  requests := []
  server := .receiving
  replies := []

def ServerPc.held : ServerPc → List Datagram
  | .sending datagram => [datagram]
  | _ => []

def System.pool (system : System) : List Datagram :=
  system.requests ++ system.server.held ++ system.replies

/-! What one step can do. -/

inductive Turn (system : System) : Event → System → List Call → Prop where
  | leaves (client : Nat) (data : Bytes) (ok : Bool) (sndBuffer : Memory BUFSIZ)
      (made : List Call) (here : (system.clients client).pc = .reading)
      (silent : made = [.store client data.length] ∨
        made = [.store client data.length, .original client (cstring data)]) :
      Turn system (.key client data ok)
        (system.put client
          { system.clients client with sndBuffer := sndBuffer, pc := .exited }) made
  | sends (client : Nat) (data : Bytes) (sndBuffer : Memory BUFSIZ)
      (fits : data.length ≤ BUFSIZ) (here : (system.clients client).pc = .reading) :
      Turn system (.key client data true)
        { system.put client
            { pc := .receiving, sndBuffer := sndBuffer, last := cstring data } with
          requests := system.requests ++ [⟨client, cstring data⟩] }
        [.store client data.length, .original client (cstring data)]
  | losesRequest (i : Nat) :
      Turn system (.loseRequest i) { system with requests := system.requests.eraseIdx i } []
  | losesReply (i : Nat) :
      Turn system (.loseReply i) { system with replies := system.replies.eraseIdx i } []
  | takes (i : Nat) (datagram : Datagram) (here : system.server = .receiving)
      (found : system.requests[i]? = some datagram) :
      Turn system (.serverRecv i)
        { system with
          requests := system.requests.eraseIdx i, server := .sending datagram.truncated } []
  | recvExits (here : system.server = .receiving) :
      Turn system .serverRecvFails { system with server := .exited } []
  | replies (datagram : Datagram) (here : system.server = .sending datagram) :
      Turn system (.serverSend true)
        { system with replies := system.replies ++ [datagram], server := .receiving } []
  | exits (datagram : Datagram) (here : system.server = .sending datagram) :
      Turn system (.serverSend false) { system with server := .exited } []
  | answers (i : Nat) (datagram : Datagram) (sndBuffer : Memory BUFSIZ)
      (found : system.replies[i]? = some datagram)
      (here : (system.clients datagram.client).pc = .receiving) :
      Turn system (.recvfrom datagram.client i)
        { system.put datagram.client
            { system.clients datagram.client with pc := .reading, sndBuffer := sndBuffer } with
          replies := system.replies.eraseIdx i }
        [.store datagram.client datagram.truncated.payload.length,
          .echoed datagram.client (cstring datagram.truncated.payload)]
  | recvFails (client : Nat) (here : (system.clients client).pc = .receiving) :
      Turn system (.recvFails client)
        (system.put client { system.clients client with pc := .exited }) []

theorem turn_of_typed {system next : System} {client : Nat} {data : Bytes}
    {fits : data.length ≤ BUFSIZ} {ok : Bool} {made : List Call}
    (here : (system.clients client).pc = .reading)
    (taken : typed system client data fits ok = (next, made)) :
    Turn system (.key client data ok) next made := by
  simp only [typed, terminated, CBuffer.cstring_received] at taken
  split at taken
  case isTrue quits =>
      cases taken
      exact .leaves client data ok _ _ here (.inl rfl)
  case isFalse =>
      split at taken
      case isTrue success =>
          subst success
          cases taken
          exact .sends client data _ fits here
      case isFalse =>
          cases taken
          exact .leaves client data ok _ _ here (.inr rfl)

theorem turn_of_step {system next : System} {event : Event} {made : List Call}
    (taken : step system event = some (next, made)) : Turn system event next made := by
  unfold step at taken
  split at taken
  case h_1 client data ok =>
      split at taken
      case isFalse => contradiction
      case isTrue fits =>
          simp only [Option.ite_none_right_eq_some, Option.some.injEq] at taken
          obtain ⟨⟨_, here⟩, taken⟩ := taken
          exact turn_of_typed here taken
  case h_2 i =>
      simp only [Option.ite_none_right_eq_some, Option.some.injEq, Prod.mk.injEq] at taken
      obtain ⟨_, rfl, rfl⟩ := taken
      exact .losesRequest i
  case h_3 i =>
      split at taken
      case h_1 datagram here found =>
          cases taken
          exact .takes i datagram here found
      case h_2 => contradiction
  case h_4 =>
      simp only [Option.ite_none_right_eq_some, Option.some.injEq, Prod.mk.injEq] at taken
      obtain ⟨here, rfl, rfl⟩ := taken
      exact .recvExits here
  case h_5 ok =>
      split at taken
      case h_1 datagram here =>
          split at taken
          case isTrue success =>
              subst success
              cases taken
              exact .replies datagram here
          case isFalse fails =>
              obtain rfl : ok = false := Bool.eq_false_iff.mpr fails
              cases taken
              exact .exits datagram here
      case h_2 => contradiction
  case h_6 i =>
      simp only [Option.ite_none_right_eq_some, Option.some.injEq, Prod.mk.injEq] at taken
      obtain ⟨_, rfl, rfl⟩ := taken
      exact .losesReply i
  case h_7 client i =>
      split at taken
      case h_1 => contradiction
      case h_2 datagram found =>
          simp only [Option.ite_none_right_eq_some, Option.some.injEq, Prod.mk.injEq] at taken
          obtain ⟨⟨rfl, here⟩, rfl, rfl⟩ := taken
          have fits : datagram.truncated.payload.length ≤ BUFSIZ := List.length_take_le ..
          have text := CBuffer.cstring_received (system.clients datagram.client).sndBuffer fits
          have turn := Turn.answers i datagram
            (terminated (system.clients datagram.client).sndBuffer _ fits) found here
          rw [← text] at turn
          exact turn
  case h_8 client =>
      simp only [Option.ite_none_right_eq_some, Option.some.injEq, Prod.mk.injEq] at taken
      obtain ⟨here, rfl, rfl⟩ := taken
      exact .recvFails client here

/-! One datagram a client. -/

def count (client : Nat) (pool : List Datagram) : Nat :=
  pool.countP (fun datagram => datagram.client = client)

/-- A datagram carries its client's last request, the only one of which it can be. -/
structure Inv (system : System) : Prop where
  one : ∀ client, count client system.pool ≤
    if (system.clients client).pc = .reading then 0 else 1
  last : ∀ datagram ∈ system.pool, datagram.payload = (system.clients datagram.client).last
  text : ∀ client, cstring (system.clients client).last = (system.clients client).last
  short : ∀ client, (system.clients client).last.length ≤ BUFSIZ

theorem inv_start (stack : Nat → Memory BUFSIZ) : Inv (start stack) := by
  constructor <;> simp [start, System.pool, ServerPc.held, count, CBuffer.cstring]

theorem count_pos_of_mem {pool : List Datagram} {datagram : Datagram} (member : datagram ∈ pool) :
    0 < count datagram.client pool :=
  List.countP_pos_iff.mpr ⟨datagram, member, by simp⟩

theorem Inv.truncated {system : System} (inv : Inv system) {datagram : Datagram}
    (member : datagram ∈ system.pool) : datagram.truncated = datagram := by
  have short := inv.short datagram.client
  rw [← inv.last datagram member] at short
  rw [Datagram.truncated, List.take_of_length_le short]

theorem inv_of_subperm {system : System} {requests replies : List Datagram} {server : ServerPc}
    (inv : Inv system) (fewer : (requests ++ server.held ++ replies).Subperm system.pool) :
    Inv { system with requests := requests, server := server, replies := replies } := by
  constructor
  case one =>
      intro client
      exact Nat.le_trans (fewer.countP_le _) (inv.one client)
  case last => exact fun datagram member => inv.last datagram (fewer.subset member)
  case text => exact inv.text
  case short => exact inv.short

theorem perm_eraseIdx {datagrams : List Datagram} {i : Nat} {datagram : Datagram}
    (found : datagrams[i]? = some datagram) :
    datagrams.Perm (datagram :: datagrams.eraseIdx i) := by
  obtain ⟨inside, rfl⟩ := List.getElem?_eq_some_iff.mp found
  exact (List.getElem_cons_eraseIdx_perm inside).symm

theorem perm_takes {system : System} {i : Nat} {datagram : Datagram}
    (here : system.server = .receiving) (found : system.requests[i]? = some datagram) :
    (system.requests.eraseIdx i ++ [datagram] ++ system.replies).Perm system.pool := by
  have back : (system.requests.eraseIdx i ++ [datagram]).Perm system.requests :=
    List.perm_append_comm.trans (perm_eraseIdx found).symm
  simpa [System.pool, ServerPc.held, here] using back.append_right system.replies

theorem perm_answers {system : System} {i : Nat} {datagram : Datagram}
    (found : system.replies[i]? = some datagram) :
    system.pool.Perm
      (datagram :: (system.requests ++ system.server.held ++ system.replies.eraseIdx i)) := by
  have front := (perm_eraseIdx found).append_left (system.requests ++ system.server.held)
  exact front.trans List.perm_middle

theorem put_self (system : System) (client : Nat) (state : Client) :
    (system.put client state).clients client = state := Function.update_self ..

theorem put_other (system : System) {client other : Nat} (state : Client)
    (differs : other ≠ client) : (system.put client state).clients other = system.clients other :=
  Function.update_of_ne differs ..

theorem forall_put {holds : Nat → Client → Prop} {system : System} {client : Nat} {state : Client}
    (mine : holds client state)
    (others : ∀ other, other ≠ client → holds other (system.clients other)) :
    ∀ other, holds other ((system.put client state).clients other) :=
  (Function.forall_update_iff _ holds).mpr ⟨mine, others⟩

theorem inv_put {system : System} {client : Nat} {state : Client} (inv : Inv system)
    (one : count client system.pool ≤ if state.pc = .reading then 0 else 1)
    (same : state.last = (system.clients client).last) : Inv (system.put client state) := by
  have lasts : ∀ other, ((system.put client state).clients other).last =
      (system.clients other).last :=
    @forall_put (fun other state => state.last = (system.clients other).last) _ _ _ same
      fun _ _ => rfl
  constructor
  case one =>
      exact @forall_put (fun other state =>
        count other system.pool ≤ if state.pc = .reading then 0 else 1) _ _ _ one
        fun other _ => inv.one other
  case last =>
      intro datagram member
      rw [lasts]
      exact inv.last datagram member
  case text =>
      intro other
      rw [lasts]
      exact inv.text other
  case short =>
      intro other
      rw [lasts]
      exact inv.short other

theorem count_cons_self {datagram : Datagram} {client : Nat} (same : datagram.client = client)
    (pool : List Datagram) : count client (datagram :: pool) = count client pool + 1 :=
  List.countP_cons_of_pos (by simp [same])

theorem count_cons_other {datagram : Datagram} {client : Nat} (differs : client ≠ datagram.client)
    (pool : List Datagram) : count client (datagram :: pool) = count client pool :=
  List.countP_cons_of_neg (by simpa using Ne.symm differs)

theorem inv_sends {system : System} {client : Nat} {data : Bytes} {sndBuffer : Memory BUFSIZ}
    (inv : Inv system) (fits : data.length ≤ BUFSIZ)
    (here : (system.clients client).pc = .reading) :
    Inv { system.put client { pc := .receiving, sndBuffer := sndBuffer, last := cstring data } with
      requests := system.requests ++ [⟨client, cstring data⟩] } := by
  have none : count client system.pool = 0 := by
    have one := inv.one client
    rw [if_pos here] at one
    exact Nat.le_zero.mp one
  have sent : (system.requests ++ [Datagram.mk client (cstring data)] ++ system.server.held ++
      system.replies).Perm (⟨client, cstring data⟩ :: system.pool) := by
    simp [System.pool]
  constructor
  case one =>
      intro other
      refine Nat.le_trans (Nat.le_of_eq (sent.countP_eq _)) ?_
      by_cases own : other = client
      · subst own
        change count other (⟨other, cstring data⟩ :: system.pool) ≤ _
        have first := @count_cons_self ⟨other, cstring data⟩ other rfl system.pool
        rw [first, none]
        simp [put_self]
      · change count other (⟨client, cstring data⟩ :: system.pool) ≤ _
        rw [count_cons_other own]
        simpa [put_other _ _ own] using inv.one other
  case last =>
      intro datagram member
      rcases List.mem_cons.mp (sent.mem_iff.mp member) with rfl | old
      · simp [put_self]
      · -- the client had no datagram under way, so this is another's
        have differs : datagram.client ≠ client := by
          rintro rfl
          have some_ := count_pos_of_mem old
          omega
        simpa [put_other _ _ differs] using inv.last datagram old
  case text =>
      exact @forall_put (fun _ state => cstring state.last = state.last) _ _ _
        (CBuffer.cstring_cstring data) fun other _ => inv.text other
  case short =>
      exact @forall_put (fun _ state => state.last.length ≤ BUFSIZ) _ _ _
        (Nat.le_trans (CBuffer.cstring_length_le data) fits) fun other _ => inv.short other

theorem mem_of_request {system : System} {i : Nat} {datagram : Datagram}
    (found : system.requests[i]? = some datagram) : datagram ∈ system.pool :=
  List.mem_append_left _ (List.mem_append_left _ (List.mem_of_getElem? found))

theorem mem_of_reply {system : System} {i : Nat} {datagram : Datagram}
    (found : system.replies[i]? = some datagram) : datagram ∈ system.pool :=
  List.mem_append_right _ (List.mem_of_getElem? found)

theorem inv_turn {system next : System} {event : Event} {made : List Call} (inv : Inv system)
    (turn : Turn system event next made) : Inv next := by
  cases turn with
  | leaves client data ok sndBuffer made here silent =>
      refine inv_put inv (Nat.le_trans (inv.one client) ?_) rfl
      rw [if_pos here]
      exact Nat.zero_le _
  | sends client data sndBuffer fits here => exact inv_sends inv fits here
  | losesRequest i =>
      have fewer := (List.eraseIdx_sublist system.requests i).append_right
        (system.server.held ++ system.replies)
      refine inv_of_subperm inv ?_
      simpa [System.pool] using fewer.subperm
  | losesReply i =>
      have fewer := (List.eraseIdx_sublist system.replies i).append_left
        (system.requests ++ system.server.held)
      exact inv_of_subperm inv fewer.subperm
  | replies datagram here =>
      have swapped : (system.replies ++ [datagram]).Perm ([datagram] ++ system.replies) :=
        List.perm_append_comm
      refine @inv_of_subperm _ system.requests _ .receiving inv ?_
      simpa [System.pool, ServerPc.held, here] using
        (swapped.append_left system.requests).subperm
  | exits datagram here =>
      have fewer := (List.sublist_cons_self datagram system.replies).append_left system.requests
      refine @inv_of_subperm _ system.requests system.replies .exited inv ?_
      simpa [System.pool, ServerPc.held, here] using fewer.subperm
  | recvExits here =>
      refine @inv_of_subperm _ system.requests system.replies .exited inv ?_
      simpa [System.pool, ServerPc.held, here] using List.Subperm.refl _
  | takes i datagram here found =>
      rw [inv.truncated (mem_of_request found)]
      exact inv_of_subperm inv (perm_takes here found).subperm
  | answers i datagram sndBuffer found here =>
      have all := perm_answers found
      have left := inv_of_subperm inv
        (all.subperm_left.mpr (List.sublist_cons_self ..).subperm)
      refine inv_put left ?_ rfl
      have one := inv.one datagram.client
      simp only [here, reduceCtorEq, if_false, count, all.countP_eq] at one
      have plus := @count_cons_self datagram _ rfl
        (system.requests ++ system.server.held ++ system.replies.eraseIdx i)
      simp only [count] at plus
      simp only [if_true, count, System.pool]
      omega
  | recvFails client here =>
      refine inv_put inv (Nat.le_trans (inv.one client) ?_) rfl
      simp [here]

theorem inv_run {stack : Nat → Memory BUFSIZ} {events : List Event} {system : System}
    {calls : List Call} (ran : exec step (start stack) events = some (system, calls)) :
    Inv system :=
  Machine.exec_invariant (fun _ => Inv)
    (fun _ _ _ _ _ inv taken => inv_turn inv (turn_of_step taken)) (inv_start stack) ran

/-! What each client prints. -/

def originalOf (client : Nat) : Call → Option Bytes
  | .original other text => if other = client then some text else none
  | _ => none

def echoOf (client : Nat) : Call → Option Bytes
  | .echoed other text => if other = client then some text else none
  | _ => none

def originals (client : Nat) (calls : List Call) : List Bytes := calls.filterMap (originalOf client)

def echoes (client : Nat) (calls : List Call) : List Bytes := calls.filterMap (echoOf client)

section

variable (client : Nat) (call : Call) (calls made : List Call)

@[simp] theorem originals_nil : originals client [] = [] := rfl

@[simp] theorem echoes_nil : echoes client [] = [] := rfl

@[simp] theorem originals_append :
    originals client (calls ++ made) = originals client calls ++ originals client made :=
  List.filterMap_append

@[simp] theorem echoes_append :
    echoes client (calls ++ made) = echoes client calls ++ echoes client made :=
  List.filterMap_append

@[simp] theorem originals_cons :
    originals client (call :: calls) = (originalOf client call).toList ++ originals client calls := by
  cases text : originalOf client call <;> simp [originals, text]

@[simp] theorem echoes_cons :
    echoes client (call :: calls) = (echoOf client call).toList ++ echoes client calls := by
  cases text : echoOf client call <;> simp [echoes, text]

end

/-- The echoes keep up with the lines, but for one that is not answered. -/
def Shown (calls : List Call) (system : System) (client : Nat) : Prop :=
  match (system.clients client).pc with
  | .reading => originals client calls = echoes client calls
  | .receiving =>
      originals client calls = echoes client calls ++ [(system.clients client).last]
  | .exited => ∃ rest, originals client calls = echoes client calls ++ rest ∧ rest.length ≤ 1

theorem shown_same {calls made : List Call} {system next : System} {client : Nat}
    (shown : Shown calls system client) (same : next.clients client = system.clients client)
    (silent : originals client made = [] ∧ echoes client made = []) :
    Shown (calls ++ made) next client := by
  rw [Shown, same, originals_append, echoes_append, silent.1, silent.2, List.append_nil,
    List.append_nil]
  exact shown

theorem shown_exits {calls made : List Call} {system : System} {client : Nat}
    {state : Client} (exits : state.pc = .exited) (rest : List Bytes) (few : rest.length ≤ 1)
    (shown : originals client (calls ++ made) = echoes client (calls ++ made) ++ rest) :
    Shown (calls ++ made) (system.put client state) client := by
  rw [Shown, put_self, exits]
  exact ⟨rest, shown, few⟩

theorem shown_turn {calls made : List Call} {system next : System} {event : Event} {client : Nat}
    (inv : Inv system) (shown : Shown calls system client)
    (turn : Turn system event next made) : Shown (calls ++ made) next client := by
  cases turn with
  | losesRequest i => exact shown_same shown rfl ⟨rfl, rfl⟩
  | losesReply i => exact shown_same shown rfl ⟨rfl, rfl⟩
  | replies datagram here => exact shown_same shown rfl ⟨rfl, rfl⟩
  | exits datagram here => exact shown_same shown rfl ⟨rfl, rfl⟩
  | recvExits here => exact shown_same shown rfl ⟨rfl, rfl⟩
  | takes i datagram here found => exact shown_same shown rfl ⟨rfl, rfl⟩
  | leaves other data ok sndBuffer made here silent =>
      by_cases own : other = client
      · subst own
        rw [Shown, here] at shown
        rcases silent with rfl | rfl
        · refine shown_exits rfl [] (by simp) ?_
          simpa [originalOf, echoOf] using shown
        · refine shown_exits rfl [cstring data] (by simp) ?_
          simp [originalOf, echoOf, shown]
      · refine shown_same shown (put_other _ _ (Ne.symm own)) ?_
        rcases silent with rfl | rfl <;> simp [originalOf, echoOf, own]
  | sends other data sndBuffer fits here =>
      by_cases own : other = client
      · subst own
        rw [Shown, here] at shown
        simp [Shown, put_self, originalOf, echoOf, shown]
      · refine shown_same shown (put_other _ _ (Ne.symm own)) ?_
        simp [originalOf, echoOf, own]
  | answers i datagram sndBuffer found here =>
      by_cases own : datagram.client = client
      · subst own
        rw [Shown, here] at shown
        have member := mem_of_reply found
        -- the only datagram of this client carries its last line
        have text : cstring datagram.truncated.payload = (system.clients datagram.client).last := by
          rw [inv.truncated member, inv.last datagram member, inv.text]
        simp [Shown, put_self, originalOf, echoOf, shown, text]
      · refine shown_same shown (put_other _ _ (Ne.symm own)) ?_
        simp [originalOf, echoOf, own]
  | recvFails other here =>
      by_cases own : other = client
      · subst own
        rw [Shown, here] at shown
        exact shown_exits rfl [(system.clients other).last] (by simp) (by simpa using shown)
      · exact shown_same shown (put_other _ _ (Ne.symm own)) ⟨rfl, rfl⟩

/-- Whatever is lost, late or out of order: the lines that a client prints as
echoed are those it has printed as typed, in their order, but for the last one. -/
theorem echoes_in_order (stack : Nat → Memory BUFSIZ) (events : List Event) (system : System)
    (calls : List Call) (ran : exec step (start stack) events = some (system, calls))
    (client : Nat) :
    ∃ rest, originals client calls = echoes client calls ++ rest ∧ rest.length ≤ 1 := by
  have kept := Machine.exec_invariant
    (fun calls system => Inv system ∧ Shown calls system client)
    (fun before system event next made holds taken => by
      have turn := turn_of_step taken
      exact ⟨inv_turn holds.1 turn, shown_turn holds.1 holds.2 turn⟩)
    ⟨inv_start stack, rfl⟩ ran
  have shown := kept.2
  rw [Shown] at shown
  split at shown
  case h_1 => exact ⟨[], by simpa using shown, by simp⟩
  case h_2 => exact ⟨_, shown, by simp⟩
  case h_3 => exact shown

/-- Two clients, whose requests and replies overtake each other. -/
def overtaking : List Event :=
  [.key 0 [104, 105, 10] true, .key 1 [97, 10] true, .serverRecv 1, .serverSend true,
    .serverRecv 0, .serverSend true, .recvfrom 0 1, .recvfrom 1 0, .key 0 [98, 10] true,
    .loseRequest 0]

def zeros (_ : Nat) : Memory BUFSIZ := Memory.zeros BUFSIZ

theorem echoes_in_order_overtaking :
    ∃ system calls, exec step (start zeros) overtaking = some (system, calls) ∧
      ∃ rest, originals 0 calls = echoes 0 calls ++ rest ∧ rest.length ≤ 1 := by
  have runs : (exec step (start zeros) overtaking).isSome = true := by decide +kernel
  obtain ⟨system, calls, ran⟩ := Machine.exec_of_isSome runs
  exact ⟨system, calls, ran, echoes_in_order zeros overtaking system calls ran 0⟩

/-! A client that waits for ever. -/

/-- There is a datagram of the client, and a server if it needs one. -/
def Answerable (system : System) (client : Nat) : Prop :=
  (∃ datagram ∈ system.replies, datagram.client = client) ∨
    system.server ≠ .exited ∧
      ∃ datagram ∈ system.requests ++ system.server.held, datagram.client = client

def PrintedBy (client : Nat) : Call → Prop
  | .store _ _ => False
  | .original other _ => other = client
  | .echoed other _ => other = client

theorem stuck_exited {system : System} {client : Nat}
    (noReply : ¬ ∃ datagram ∈ system.replies, datagram.client = client) :
    ¬ Answerable { system with server := .exited } client := by
  rintro (reply | ⟨alive, _⟩)
  · exact noReply reply
  · exact alive rfl

theorem stuck_turn {system next : System} {event : Event} {made : List Call} {client : Nat}
    (waits : (system.clients client).pc ≠ .reading) (stuck : ¬ Answerable system client)
    (turn : Turn system event next made) :
    (next.clients client).pc ≠ .reading ∧ ¬ Answerable next client ∧
      ∀ call ∈ made, ¬ PrintedBy client call := by
  rw [Answerable, not_or, not_and] at stuck
  obtain ⟨noReply, noRequest⟩ := stuck
  cases turn with
  | losesRequest i =>
      refine ⟨waits, ?_, by simp⟩
      rintro (reply | ⟨alive, datagram, member, same⟩)
      · exact noReply reply
      · refine noRequest alive ⟨datagram, ?_, same⟩
        exact List.mem_append.mpr ((List.mem_append.mp member).imp_left List.mem_of_mem_eraseIdx)
  | losesReply i =>
      refine ⟨waits, ?_, by simp⟩
      rintro (⟨datagram, member, same⟩ | ⟨alive, request⟩)
      · exact noReply ⟨datagram, List.mem_of_mem_eraseIdx member, same⟩
      · exact noRequest alive request
  | replies datagram here =>
      -- what the server holds is of another client, and so is what it sends
      have nothing := noRequest (by simp [here])
      simp only [here, ServerPc.held] at nothing
      refine ⟨waits, ?_, by simp⟩
      rintro (⟨other, member, same⟩ | ⟨_, other, member, same⟩)
      · rcases List.mem_append.mp member with old | new
        · exact noReply ⟨other, old, same⟩
        · exact nothing ⟨other, List.mem_append_right _ new, same⟩
      · simp only [ServerPc.held, List.append_nil] at member
        exact nothing ⟨other, List.mem_append_left _ member, same⟩
  | exits datagram here => exact ⟨waits, stuck_exited noReply, by simp⟩
  | recvExits here => exact ⟨waits, stuck_exited noReply, by simp⟩
  | takes i datagram here found =>
      have nothing := noRequest (by simp [here])
      refine ⟨waits, ?_, by simp⟩
      rintro (reply | ⟨_, other, member, same⟩)
      · exact noReply reply
      · rcases List.mem_append.mp member with old | new
        · exact nothing ⟨other, List.mem_append_left _ (List.mem_of_mem_eraseIdx old), same⟩
        · obtain rfl := List.mem_singleton.mp new
          exact nothing ⟨datagram, List.mem_append_left _ (List.mem_of_getElem? found), same⟩
  | leaves other data ok sndBuffer made here silent =>
      have differs : client ≠ other := by
        rintro rfl
        exact waits here
      refine ⟨by rwa [put_other _ _ differs], ?_, ?_⟩
      · rw [Answerable, not_or, not_and]
        exact ⟨noReply, noRequest⟩
      · rcases silent with rfl | rfl <;> simp [PrintedBy, Ne.symm differs]
  | sends other data sndBuffer fits here =>
      have differs : client ≠ other := by
        rintro rfl
        exact waits here
      refine ⟨by simpa [put_other _ _ differs] using waits, ?_,
        by simp [PrintedBy, Ne.symm differs]⟩
      rintro (reply | ⟨alive, datagram, member, same⟩)
      · exact noReply reply
      · rcases List.mem_append.mp member with sent | held
        · rcases List.mem_append.mp sent with old | new
          · exact noRequest alive ⟨datagram, List.mem_append_left _ old, same⟩
          · rw [List.mem_singleton.mp new] at same
            exact differs same.symm
        · exact noRequest alive ⟨datagram, List.mem_append_right _ held, same⟩
  | answers i datagram sndBuffer found here =>
      have differs : client ≠ datagram.client := by
        intro same
        exact noReply ⟨datagram, List.mem_of_getElem? found, same.symm⟩
      refine ⟨by simpa [put_other _ _ differs] using waits, ?_,
        by simp [PrintedBy, Ne.symm differs]⟩
      rintro (⟨other, member, same⟩ | ⟨alive, request⟩)
      · exact noReply ⟨other, List.mem_of_mem_eraseIdx member, same⟩
      · exact noRequest alive request
  | recvFails other here =>
      refine ⟨?_, ?_, by simp⟩
      · by_cases own : client = other
        · simp [own, put_self]
        · rwa [put_other _ _ own]
      · rw [Answerable, not_or, not_and]
        exact ⟨noReply, noRequest⟩

def MayPrint (client : Nat) (system : System) : Prop :=
  ∃ events last calls, exec step system events = some (last, calls) ∧
    ∃ call ∈ calls, PrintedBy client call

theorem mayPrint_of_step {client : Nat} {system next : System} {event : Event}
    {made : List Call} (taken : step system event = some (next, made))
    (may : MayPrint client next) : MayPrint client system := by
  obtain ⟨events, last, calls, ran, call, member, own⟩ := may
  exact ⟨event :: events, last, made ++ calls,
    (Machine.exec_cons_iff ..).mpr ⟨next, made, calls, taken, ran, rfl⟩, call,
    List.mem_append_right _ member, own⟩

theorem mayPrint_of_reply {system : System} {datagram : Datagram}
    (here : (system.clients datagram.client).pc = .receiving)
    (member : datagram ∈ system.replies) : MayPrint datagram.client system := by
  obtain ⟨i, found⟩ := List.mem_iff_getElem?.mp member
  have taken : ∃ next stored text, step system (.recvfrom datagram.client i) =
      some (next, [stored, .echoed datagram.client text]) := by
    simp only [step, found]
    exact ⟨_, _, _, if_pos ⟨trivial, here⟩⟩
  obtain ⟨next, stored, text, taken⟩ := taken
  exact ⟨_, next, _, Machine.exec_single taken, .echoed datagram.client text, by simp, rfl⟩

theorem mayPrint_of_held {system : System} {datagram : Datagram}
    (here : (system.clients datagram.client).pc = .receiving)
    (held : system.server = .sending datagram) : MayPrint datagram.client system := by
  have taken : step system (.serverSend true) = some ({ system with
      replies := system.replies ++ [datagram], server := .receiving }, []) := by
    simp [step, held]
  refine mayPrint_of_step taken (mayPrint_of_reply here ?_)
  exact List.mem_append_right _ (List.mem_singleton.mpr rfl)

theorem mayPrint_of_idle {system : System} {datagram : Datagram}
    (here : (system.clients datagram.client).pc = .receiving) (idle : system.server = .receiving)
    (member : datagram ∈ system.requests) : MayPrint datagram.client system := by
  obtain ⟨i, found⟩ := List.mem_iff_getElem?.mp member
  have taken : step system (.serverRecv i) = some ({ system with
      requests := system.requests.eraseIdx i, server := .sending datagram.truncated }, []) := by
    simp [step, idle, found]
  exact mayPrint_of_step taken (@mayPrint_of_held _ datagram.truncated here rfl)

theorem mayPrint_of_answerable {system : System} {client : Nat}
    (here : (system.clients client).pc = .receiving) (answerable : Answerable system client) :
    MayPrint client system := by
  rcases answerable with ⟨datagram, member, rfl⟩ | ⟨alive, datagram, member, rfl⟩
  · exact mayPrint_of_reply here member
  cases server : system.server with
  | exited => exact absurd server alive
  | receiving =>
      simp only [server, ServerPc.held, List.append_nil] at member
      exact mayPrint_of_idle here server member
  | sending other =>
      simp only [server, ServerPc.held] at member
      rcases List.mem_append.mp member with request | held
      · -- the server has to answer another client first
        have taken : step system (.serverSend true) = some ({ system with
            replies := system.replies ++ [other], server := .receiving }, []) := by
          simp [step, server]
        exact mayPrint_of_step taken (mayPrint_of_idle here rfl request)
      · obtain rfl := List.mem_singleton.mp held
        exact mayPrint_of_held here server

/-- A client that waits will never print again if and only if its datagram is
gone, or is a request and the server has exited. -/
theorem waits_for_ever_iff (system : System) (client : Nat)
    (here : (system.clients client).pc = .receiving) :
    (∀ later last more, exec step system later = some (last, more) →
        ∀ call ∈ more, ¬ PrintedBy client call) ↔
      ¬ Answerable system client := by
  constructor
  · intro silent answerable
    obtain ⟨later, last, more, goes, call, member, own⟩ := mayPrint_of_answerable here answerable
    exact silent later last more goes call member own
  · intro stuck later last more goes
    have waits : (system.clients client).pc ≠ .reading := by simp [here]
    have kept := Machine.exec_invariant
      (fun calls system => (system.clients client).pc ≠ .reading ∧ ¬ Answerable system client ∧
        ∀ call ∈ calls, ¬ PrintedBy client call)
      (fun before system event next made holds taken => by
        obtain ⟨waits, stuck, silent⟩ := stuck_turn holds.1 holds.2.1 (turn_of_step taken)
        exact ⟨waits, stuck, List.forall_mem_append.mpr ⟨holds.2.2, silent⟩⟩)
      ⟨waits, stuck, by simp⟩ goes
    exact kept.2.2

/-- The request of client 0 is lost. -/
def lost : List Event := [.key 0 [104, 105, 10] true, .loseRequest 0]

theorem waits_for_ever_lost :
    ∃ system calls, exec step (start zeros) lost = some (system, calls) ∧
      ∀ later last more, exec step system later = some (last, more) →
        ∀ call ∈ more, ¬ PrintedBy 0 call := by
  refine ⟨_, _, rfl, ?_⟩
  apply (waits_for_ever_iff _ 0 rfl).mpr
  rintro (⟨datagram, coming, _⟩ | ⟨_, datagram, coming, _⟩)
  · exact List.not_mem_nil coming
  · exact List.not_mem_nil coming

end NetworkTest.UdpEcho
