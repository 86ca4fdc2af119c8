import NetworkTest.CBuffer
import NetworkTest.Machine

/-!
The UDP echo client of wen/udp_alarm against the echo server of wen/udp. The
client waits two seconds for the answer to each line; requests and replies may
be lost, late, or out of order, and a reply that comes after its time-out stays
in the client's socket.
-/

namespace NetworkTest.EchoAlarm

open CBuffer (Bytes BUFSIZ Memory cstring)
open Machine (Step exec Along)

/-- A request or a reply, with the number of the request it belongs to. -/
structure Datagram where
  number : Nat
  payload : Bytes
  deriving DecidableEq

/-- `arming` is before `alarm(2)`, `cancelling` before `alarm(0)`. -/
inductive ClientPc where
  | reading
  | arming
  | receiving
  | cancelling
  | exited
  deriving DecidableEq

inductive ServerPc where
  | receiving
  | sending (datagram : Datagram)
  | exited
  deriving DecidableEq

/-- `sent` counts the requests, the last of which carried `last`. `requests` and
`replies` are under way; the two queues are those of the sockets. -/
structure System where
  client : ClientPc
  armed : Bool
  sndBuffer : Memory BUFSIZ
  sent : Nat
  last : Bytes
  requests : List Datagram
  server : ServerPc
  serverQueue : List Datagram
  replies : List Datagram
  queue : List Datagram

/-- `ok` is whether `sendto` succeeds. A signal that interrupts `recvfrom` finds
nothing in the socket; `recvFails` is every other failure of `recvfrom`. -/
inductive Event where
  | key (typed : Bytes) (ok : Bool)
  | arm
  | alarm (interrupts : Bool)
  | recvfrom
  | recvFails
  | cancel
  | loseRequest (i : Nat)
  | arrive (i : Nat)
  | serverRecv
  | serverRecvFails
  | serverSend (ok : Bool)
  | loseReply (i : Nat)
  | deliver (i : Nat)
  deriving DecidableEq

/-- `store` is the terminating zero, at `sndBuffer[index]`. -/
inductive Call where
  | store (index : Nat)
  | original (text : Bytes)
  | timeout
  | recvError
  | echoed (text last : Bytes)
  deriving DecidableEq

def quit : Bytes := [113, 117, 105, 116, 10]

/-- One pass of the client's loop up to its `sendto`. -/
def typed (system : System) (data : Bytes) (fits : data.length ≤ BUFSIZ) (ok : Bool) :
    System × List Call :=
  if data = [] then (system, [])
  else
    let sndBuffer := (system.sndBuffer.store data fits).set data.length 0
    let text := cstring sndBuffer.val
    let read := { system with sndBuffer := sndBuffer }
    if text = quit then ({ read with client := .exited }, [.store data.length])
    else if ok then
      ({ read with
          sent := system.sent + 1
          last := text
          requests := system.requests ++ [⟨system.sent + 1, text⟩]
          client := .arming }, [.store data.length, .original text])
    else ({ read with client := .exited }, [.store data.length, .original text])

/-- `recvfrom` into a buffer of `BUFSIZ` bytes. -/
def Datagram.truncated (datagram : Datagram) : Datagram :=
  { datagram with payload := datagram.payload.take BUFSIZ }

def received (sndBuffer : Memory BUFSIZ) (datagram : Datagram) : Memory BUFSIZ :=
  let data := datagram.truncated.payload
  (sndBuffer.store data (List.length_take_le ..)).set data.length 0

def step : Step System Event Call := fun system event =>
  match event with
  | .key data ok =>
      if fits : data.length ≤ BUFSIZ then
        if system.client = .reading then some (typed system data fits ok) else none
      else none
  | .arm =>
      if system.client = .arming then
        some ({ system with armed := true, client := .receiving }, [])
      else none
  | .alarm interrupts =>
      if system.armed = true then
        if interrupts then
          if system.client = .receiving ∧ system.queue = [] then
            some ({ system with armed := false, client := .reading }, [.timeout])
          else none
        else some ({ system with armed := false }, [])
      else none
  | .recvfrom =>
      match system.client, system.queue with
      | .receiving, datagram :: rest =>
          some ({ system with
            queue := rest
            sndBuffer := received system.sndBuffer datagram
            client := .cancelling }, [.store datagram.truncated.payload.length])
      | _, _ => none
  -- the alarm is left running
  | .recvFails =>
      if system.client = .receiving then
        some ({ system with client := .reading }, [.recvError])
      else none
  | .cancel =>
      if system.client = .cancelling then
        some ({ system with armed := false, client := .reading },
          [.echoed (cstring system.sndBuffer.val) system.last])
      else none
  | .loseRequest i =>
      if i < system.requests.length then
        some ({ system with requests := system.requests.eraseIdx i }, [])
      else none
  | .arrive i =>
      match system.requests[i]? with
      | none => none
      | some datagram =>
          some ({ system with
            requests := system.requests.eraseIdx i
            serverQueue := system.serverQueue ++ [datagram] }, [])
  | .serverRecv =>
      match system.server, system.serverQueue with
      | .receiving, datagram :: rest =>
          some ({ system with
            serverQueue := rest, server := .sending datagram.truncated }, [])
      | _, _ => none
  | .serverRecvFails =>
      if system.server = .receiving then some ({ system with server := .exited }, []) else none
  | .serverSend ok =>
      match system.server with
      | .sending datagram =>
          if ok then
            some ({ system with
              replies := system.replies ++ [datagram], server := .receiving }, [])
          else some ({ system with server := .exited }, [])
      | _ => none
  | .loseReply i =>
      if i < system.replies.length then
        some ({ system with replies := system.replies.eraseIdx i }, [])
      else none
  | .deliver i =>
      match system.replies[i]? with
      | none => none
      | some datagram =>
          some ({ system with
            replies := system.replies.eraseIdx i, queue := system.queue ++ [datagram] }, [])

def start (sndBuffer : Memory BUFSIZ) : System where
  client := .reading
  armed := false
  sndBuffer := sndBuffer
  sent := 0
  last := []
  requests := []
  server := .receiving
  serverQueue := []
  replies := []
  queue := []

def ServerPc.held : ServerPc → List Datagram
  | .sending datagram => [datagram]
  | _ => []

def System.away (system : System) : List Datagram :=
  system.requests ++ system.serverQueue ++ system.server.held ++ system.replies

inductive Turn (system : System) : Event → System → List Call → Prop where
  | ignores (ok : Bool) : Turn system (.key [] ok) system []
  | leaves (data : Bytes) (ok : Bool) (sndBuffer : Memory BUFSIZ) (made : List Call)
      (silent : ∀ text last, .echoed text last ∉ made) :
      Turn system (.key data ok)
        { system with sndBuffer := sndBuffer, client := .exited } made
  | sends (data : Bytes) (fits : data.length ≤ BUFSIZ) (more : data ≠ [])
      (other : cstring data ≠ quit) (sndBuffer : Memory BUFSIZ) :
      Turn system (.key data true)
        { system with
          sndBuffer := sndBuffer
          sent := system.sent + 1
          last := cstring data
          requests := system.requests ++ [⟨system.sent + 1, cstring data⟩]
          client := .arming } [.store data.length, .original (cstring data)]
  | arms (here : system.client = .arming) :
      Turn system .arm { system with armed := true, client := .receiving } []
  | alarms : Turn system (.alarm false) { system with armed := false } []
  | timesOut : Turn system (.alarm true)
      { system with armed := false, client := .reading } [.timeout]
  | receives (datagram : Datagram) (rest : List Datagram) (here : system.client = .receiving)
      (first : system.queue = datagram :: rest) :
      Turn system .recvfrom
        { system with
          queue := rest
          sndBuffer := received system.sndBuffer datagram
          client := .cancelling } [.store datagram.truncated.payload.length]
  | recvFails : Turn system .recvFails { system with client := .reading } [.recvError]
  | prints (here : system.client = .cancelling) :
      Turn system .cancel { system with armed := false, client := .reading }
        [.echoed (cstring system.sndBuffer.val) system.last]
  | network (event : Event) (requests : List Datagram) (server : ServerPc)
      (serverQueue replies : List Datagram)
      (old : ∀ datagram ∈ requests ++ serverQueue ++ server.held ++ replies,
        ∃ before ∈ system.away, datagram = before ∨ datagram = before.truncated)
      (other : ∀ data ok i, event ≠ .key data ok ∧ event ≠ .deliver i) :
      Turn system event
        { system with
          requests := requests
          server := server
          serverQueue := serverQueue
          replies := replies } []
  | delivers (i : Nat) (datagram : Datagram) (found : system.replies[i]? = some datagram) :
      Turn system (.deliver i)
        { system with
          replies := system.replies.eraseIdx i, queue := system.queue ++ [datagram] } []

theorem old_of_subset {system : System} {datagrams : List Datagram}
    (subset : ∀ datagram ∈ datagrams, datagram ∈ system.requests ++ system.serverQueue ++
      system.server.held ++ system.replies) :
    ∀ datagram ∈ datagrams,
      ∃ before ∈ system.away, datagram = before ∨ datagram = before.truncated :=
  fun datagram member => ⟨datagram, subset datagram member, .inl rfl⟩

theorem turn_of_typed {system next : System} {data : Bytes} {fits : data.length ≤ BUFSIZ}
    {ok : Bool} {made : List Call} (taken : typed system data fits ok = (next, made)) :
    Turn system (.key data ok) next made := by
  simp only [typed, CBuffer.cstring_received] at taken
  split at taken
  case isTrue empty =>
      subst data
      cases taken
      exact .ignores ok
  split at taken
  · cases taken
    exact .leaves data ok _ _ (by simp)
  split at taken
  case isTrue success =>
      subst ok
      cases taken
      exact .sends data fits ‹_› ‹_› _
  case isFalse =>
      cases taken
      exact .leaves data ok _ _ (by simp)

theorem turn_of_arrival {system : System} {i : Nat} {datagram : Datagram}
    (found : system.requests[i]? = some datagram) :
    Turn system (.arrive i)
      { system with
        requests := system.requests.eraseIdx i
        serverQueue := system.serverQueue ++ [datagram] } [] := by
  refine .network _ _ _ _ _ (old_of_subset ?_) (by simp)
  intro other member
  simp only [List.mem_append, List.mem_singleton] at member ⊢
  rcases member with (((old | old | rfl) | old) | old)
  · exact .inl (.inl (.inl (List.mem_of_mem_eraseIdx old)))
  · exact .inl (.inl (.inr old))
  · exact .inl (.inl (.inl (List.mem_of_getElem? found)))
  · exact .inl (.inr old)
  · exact .inr old

theorem turn_of_serverRecv {system : System} {datagram : Datagram} {rest : List Datagram}
    (here : system.server = .receiving) (first : system.serverQueue = datagram :: rest) :
    Turn system .serverRecv
      { system with serverQueue := rest, server := .sending datagram.truncated } [] := by
  refine .network _ _ _ _ _ ?_ (by simp)
  intro other member
  simp only [System.away, ServerPc.held, here, first, List.append_nil, List.mem_append,
    List.mem_singleton] at member ⊢
  rcases member with (((old | old) | rfl) | old)
  · exact ⟨other, .inl (.inl old), .inl rfl⟩
  · exact ⟨other, .inl (.inr (List.mem_cons_of_mem _ old)), .inl rfl⟩
  · exact ⟨datagram, .inl (.inr List.mem_cons_self), .inr rfl⟩
  · exact ⟨other, .inr old, .inl rfl⟩

theorem turn_of_reply {system : System} {datagram : Datagram}
    (here : system.server = .sending datagram) :
    Turn system (.serverSend true)
      { system with replies := system.replies ++ [datagram], server := .receiving } [] := by
  refine .network _ _ _ _ _ (old_of_subset ?_) (by simp)
  intro other member
  simp only [ServerPc.held, here, List.append_nil, List.mem_append,
    List.mem_singleton] at member ⊢
  rcases member with ((old | old) | old | rfl)
  · exact .inl (.inl (.inl old))
  · exact .inl (.inl (.inr old))
  · exact .inr old
  · exact .inl (.inr rfl)

theorem turn_of_exit {system : System} {event : Event}
    (other : ∀ data ok i, event ≠ .key data ok ∧ event ≠ .deliver i) :
    Turn system event { system with server := .exited } [] := by
  refine .network _ _ _ _ _ (old_of_subset ?_) other
  intro datagram member
  simp only [ServerPc.held, List.append_nil, List.mem_append] at member ⊢
  exact member.imp_left .inl

theorem turn_of_step {system next : System} {event : Event} {made : List Call}
    (taken : step system event = some (next, made)) : Turn system event next made := by
  unfold step at taken
  split at taken
  case h_1 data ok =>
      split at taken
      case isFalse => contradiction
      case isTrue fits =>
          simp only [Option.ite_none_right_eq_some, Option.some.injEq] at taken
          obtain ⟨here, taken⟩ := taken
          exact turn_of_typed taken
  case h_2 =>
      simp only [Option.ite_none_right_eq_some, Option.some.injEq, Prod.mk.injEq] at taken
      obtain ⟨here, rfl, rfl⟩ := taken
      exact .arms here
  case h_3 interrupts =>
      simp only [Option.ite_none_right_eq_some] at taken
      obtain ⟨_, taken⟩ := taken
      split at taken
      case isTrue yes =>
          simp only [Option.ite_none_right_eq_some, Option.some.injEq, Prod.mk.injEq] at taken
          obtain ⟨_, rfl, rfl⟩ := taken
          rw [yes]
          exact .timesOut
      case isFalse no =>
          cases taken
          rw [Bool.not_eq_true] at no
          rw [no]
          exact .alarms
  case h_4 =>
      split at taken
      case h_1 datagram rest here first =>
          cases taken
          exact .receives datagram rest here first
      case h_2 => contradiction
  case h_5 =>
      simp only [Option.ite_none_right_eq_some, Option.some.injEq, Prod.mk.injEq] at taken
      obtain ⟨_, rfl, rfl⟩ := taken
      exact .recvFails
  case h_6 =>
      simp only [Option.ite_none_right_eq_some, Option.some.injEq, Prod.mk.injEq] at taken
      obtain ⟨here, rfl, rfl⟩ := taken
      exact .prints here
  case h_7 i =>
      simp only [Option.ite_none_right_eq_some, Option.some.injEq, Prod.mk.injEq] at taken
      obtain ⟨_, rfl, rfl⟩ := taken
      refine .network _ _ _ _ _ (old_of_subset ?_) (by simp)
      intro datagram member
      simp only [List.mem_append] at member ⊢
      exact member.imp_left (.imp_left (.imp_left List.mem_of_mem_eraseIdx))
  case h_8 i =>
      split at taken
      case h_1 => contradiction
      case h_2 datagram found =>
          cases taken
          exact turn_of_arrival found
  case h_9 =>
      split at taken
      case h_2 => contradiction
      case h_1 datagram rest here first =>
          cases taken
          exact turn_of_serverRecv here first
  case h_10 =>
      simp only [Option.ite_none_right_eq_some, Option.some.injEq, Prod.mk.injEq] at taken
      obtain ⟨_, rfl, rfl⟩ := taken
      exact turn_of_exit (by simp)
  case h_11 ok =>
      split at taken
      case h_2 => contradiction
      case h_1 datagram here =>
          split at taken
          case isTrue success =>
              subst ok
              cases taken
              exact turn_of_reply here
          case isFalse =>
              cases taken
              exact turn_of_exit (by simp)
  case h_12 i =>
      simp only [Option.ite_none_right_eq_some, Option.some.injEq, Prod.mk.injEq] at taken
      obtain ⟨_, rfl, rfl⟩ := taken
      refine .network _ _ _ _ _ (old_of_subset ?_) (by simp)
      intro datagram member
      simp only [List.mem_append] at member ⊢
      exact member.imp_right List.mem_of_mem_eraseIdx
  case h_13 i =>
      split at taken
      case h_1 => contradiction
      case h_2 datagram found =>
          cases taken
          exact .delivers i datagram found

/-! While the client waits, the first reply in its socket is the one it waits for. -/

def System.Waiting (system : System) : Prop :=
  system.client = .arming ∨ system.client = .receiving

instance (system : System) : Decidable system.Waiting := inferInstanceAs (Decidable (_ ∨ _))

/-- Of the datagrams, those of the request sent last carry its payload. -/
def Known (sent : Nat) (last : Bytes) (datagram : Datagram) : Prop :=
  datagram.number ≤ sent ∧ (datagram.number = sent → datagram.payload = last)

structure Inv (system : System) : Prop where
  away : ∀ datagram ∈ system.away, Known system.sent system.last datagram
  queue : ∀ datagram ∈ system.queue, Known system.sent system.last datagram
  text : cstring system.last = system.last
  fits : system.last.length ≤ BUFSIZ
  waiting : system.Waiting → ∀ datagram ∈ system.queue.head?, datagram.number = system.sent
  buffer : system.client = .cancelling → cstring system.sndBuffer.val = system.last

theorem inv_start (sndBuffer : Memory BUFSIZ) : Inv (start sndBuffer) := by
  constructor <;> simp [start, System.away, ServerPc.held, cstring]

/-- When a request is sent the socket is empty; and a reply that comes to the
empty socket while the client waits belongs to the request sent last. -/
def InTime (system : System) : Event → Prop
  | .key data ok => data ≠ [] ∧ cstring data ≠ quit ∧ ok = true → system.queue = []
  | .deliver i => system.Waiting ∧ system.queue = [] →
      ∀ datagram ∈ system.replies[i]?, datagram.number = system.sent
  | _ => True

instance (system : System) : (event : Event) → Decidable (InTime system event)
  | .key data ok => inferInstanceAs
      (Decidable (data ≠ [] ∧ cstring data ≠ quit ∧ ok = true → system.queue = []))
  | .deliver i => inferInstanceAs (Decidable (system.Waiting ∧ system.queue = [] →
      ∀ datagram ∈ system.replies[i]?, datagram.number = system.sent))
  | .arm => isTrue trivial
  | .alarm _ => isTrue trivial
  | .recvfrom => isTrue trivial
  | .recvFails => isTrue trivial
  | .cancel => isTrue trivial
  | .loseRequest _ => isTrue trivial
  | .arrive _ => isTrue trivial
  | .serverRecv => isTrue trivial
  | .serverRecvFails => isTrue trivial
  | .serverSend _ => isTrue trivial
  | .loseReply _ => isTrue trivial

/-- An echoed line carries the payload of the request sent last. -/
def Fresh : Call → Prop
  | .echoed text last => text = last
  | _ => True

instance : (call : Call) → Decidable (Fresh call)
  | .echoed text last => inferInstanceAs (Decidable (text = last))
  | .store _ => isTrue trivial
  | .original _ => isTrue trivial
  | .timeout => isTrue trivial
  | .recvError => isTrue trivial

theorem known_truncated {sent : Nat} {last : Bytes} {datagram : Datagram}
    (fits : last.length ≤ BUFSIZ) (known : Known sent last datagram) :
    Known sent last datagram.truncated :=
  ⟨known.1, fun same => by
    rw [Datagram.truncated, known.2 same, List.take_of_length_le fits]⟩

theorem known_older {sent : Nat} {last : Bytes} {datagram : Datagram}
    (known : Known sent last datagram) (next : Bytes) : Known (sent + 1) next datagram := by
  obtain ⟨bound, _⟩ := known
  exact ⟨by omega, fun same => by omega⟩

theorem cstring_received_datagram (sndBuffer : Memory BUFSIZ) (datagram : Datagram) :
    cstring (received sndBuffer datagram).val = cstring datagram.truncated.payload :=
  CBuffer.cstring_received sndBuffer (List.length_take_le ..)

theorem inv_sent {system : System} (inv : Inv system) {data : Bytes} (size : data.length ≤ BUFSIZ)
    (sndBuffer : Memory BUFSIZ) (empty : system.queue = []) :
    Inv { system with
      sndBuffer := sndBuffer
      sent := system.sent + 1
      last := cstring data
      requests := system.requests ++ [⟨system.sent + 1, cstring data⟩]
      client := .arming } := by
  obtain ⟨away, queue, text, fits, waiting, buffer⟩ := inv
  constructor
  case away =>
      intro datagram member
      have split : datagram ∈ system.away ∨
          datagram = ⟨system.sent + 1, cstring data⟩ := by
        simp only [System.away, List.mem_append, List.mem_singleton] at member ⊢
        rcases member with ((((old | new) | old) | old) | old)
        · exact .inl (.inl (.inl (.inl old)))
        · exact .inr new
        · exact .inl (.inl (.inl (.inr old)))
        · exact .inl (.inl (.inr old))
        · exact .inl (.inr old)
      rcases split with old | rfl
      · exact known_older (away datagram old) _
      · exact ⟨Nat.le_refl _, fun _ => rfl⟩
  case queue => simp [empty]
  case text => exact CBuffer.cstring_cstring data
  case fits => exact (CBuffer.cstring_length_le data).trans size
  case waiting => simp [empty]
  case buffer => exact nofun

theorem inv_delivered {system : System} (inv : Inv system) {i : Nat} {datagram : Datagram}
    (found : system.replies[i]? = some datagram)
    (inTime : system.Waiting → system.queue = [] → datagram.number = system.sent) :
    Inv { system with
      replies := system.replies.eraseIdx i, queue := system.queue ++ [datagram] } := by
  obtain ⟨away, queue, text, fits, waiting, buffer⟩ := inv
  have known : Known system.sent system.last datagram :=
    away datagram (by simp [System.away, List.mem_of_getElem? found])
  constructor
  case away =>
      intro other member
      apply away
      simp only [System.away, List.mem_append] at member ⊢
      exact member.imp_right List.mem_of_mem_eraseIdx
  case queue =>
      intro other member
      rcases List.mem_append.mp member with old | new
      · exact queue other old
      · rw [List.mem_singleton.mp new]
        exact known
  case text => exact text
  case fits => exact fits
  case waiting =>
      intro wait
      cases first : system.queue with
      | nil =>
          intro other head
          simp only [List.nil_append, List.head?_cons, Option.mem_def,
            Option.some.injEq] at head
          subst other
          exact inTime wait first
      | cons head rest =>
          rw [first] at waiting
          exact waiting wait
  case buffer => exact buffer

theorem inv_turn {system next : System} {event : Event} {made : List Call} (inv : Inv system)
    (inTime : InTime system event) (turn : Turn system event next made) :
    Inv next ∧ ∀ call ∈ made, Fresh call := by
  have ⟨away, queue, text, fits, waiting, buffer⟩ := inv
  cases turn with
  | ignores ok => exact ⟨inv, by simp⟩
  | leaves data ok sndBuffer made silent =>
      refine ⟨⟨away, queue, text, fits, fun wait => by simp [System.Waiting] at wait, nofun⟩, ?_⟩
      intro call member
      cases call with
      | echoed text last => exact absurd member (silent text last)
      | store index => trivial
      | original text => trivial
      | timeout => trivial
      | recvError => trivial
  | sends data size more other sndBuffer =>
      exact ⟨inv_sent inv size sndBuffer (inTime ⟨more, other, rfl⟩), by simp [Fresh]⟩
  | arms here =>
      exact ⟨⟨away, queue, text, fits, fun _ => waiting (.inl here), nofun⟩, by simp⟩
  | alarms => exact ⟨⟨away, queue, text, fits, waiting, buffer⟩, by simp⟩
  | timesOut =>
      exact ⟨⟨away, queue, text, fits, fun wait => by simp [System.Waiting] at wait, nofun⟩,
        by simp [Fresh]⟩
  | receives datagram rest here first =>
      refine ⟨⟨away, ?_, text, fits, fun wait => by simp [System.Waiting] at wait, fun _ => ?_⟩,
        by simp [Fresh]⟩
      · intro other member
        exact queue other (by simp [first, member])
      · have number := waiting (.inr here) datagram (by simp [first])
        have known := known_truncated fits (queue datagram (by simp [first]))
        rw [cstring_received_datagram, known.2 number, text]
  | recvFails =>
      exact ⟨⟨away, queue, text, fits, fun wait => by simp [System.Waiting] at wait, nofun⟩,
        by simp [Fresh]⟩
  | prints here =>
      refine ⟨⟨away, queue, text, fits, fun wait => by simp [System.Waiting] at wait, nofun⟩, ?_⟩
      simp [Fresh, buffer here]
  | network event requests server serverQueue replies old other =>
      refine ⟨⟨?_, queue, text, fits, waiting, buffer⟩, by simp⟩
      intro datagram member
      obtain ⟨before, there, rfl | rfl⟩ := old datagram member
      · exact away _ there
      · exact known_truncated fits (away before there)
  | delivers i datagram found =>
      refine ⟨inv_delivered inv found fun wait empty => ?_, by simp⟩
      exact inTime ⟨wait, empty⟩ datagram found

/-- Each echoed line carries the payload of the request sent last, as long as
each request finds the socket empty and each reply that comes to the empty socket
comes in time. -/
theorem echoed_payload (sndBuffer : Memory BUFSIZ) (events : List Event) (system : System)
    (calls : List Call) (inTime : Along step InTime (start sndBuffer) events)
    (ran : exec step (start sndBuffer) events = some (system, calls)) :
    ∀ call ∈ calls, Fresh call := by
  have kept := Machine.exec_invariant_along
    (fun calls system => Inv system ∧ ∀ call ∈ calls, Fresh call)
    (by
      rintro before state event next made ⟨inv, fresh⟩ allowed taken
      obtain ⟨kept, more⟩ := inv_turn inv allowed (turn_of_step taken)
      exact ⟨kept, List.forall_mem_append.mpr ⟨fresh, more⟩⟩)
    ⟨inv_start sndBuffer, by simp⟩ inTime ran
  exact kept.2

/-- A request that is lost, and one that is answered. -/
def lost : List Event :=
  [.key [97, 10] true, .arm, .loseRequest 0, .alarm true, .key [98, 10] true, .arm, .arrive 0,
    .serverRecv, .serverSend true, .deliver 0, .recvfrom, .cancel]

/-- The answer to the first line comes after the time-out. -/
def late : List Event :=
  [.key [97, 10] true, .arm, .arrive 0, .serverRecv, .serverSend true, .alarm true, .deliver 0,
    .key [98, 10] true, .arm, .recvfrom, .cancel]

theorem echoed_payload_lost :
    ∃ system calls, exec step (start (.zeros _)) lost = some (system, calls) ∧
      ∀ call ∈ calls, Fresh call :=
  ⟨_, _, rfl, echoed_payload (.zeros _) lost _ _
    ((Machine.misses_zero_iff ..).mp (by decide +kernel)) rfl⟩

theorem echoed_stale_late :
    ∃ system calls, exec step (start (.zeros _)) late = some (system, calls) ∧
      .echoed [97, 10] [98, 10] ∈ calls :=
  ⟨_, _, rfl, by decide +kernel⟩

end NetworkTest.EchoAlarm
