import NetworkTest.Channel
import NetworkTest.ChatBroadcast
import NetworkTest.KeyboardStop

/-!
The chat of fri/homework as a whole: the server, and any number of clients of
two threads each, joined by connections that hold. A client whose typing has
ended goes on showing what comes, and none is killed, so no connection is closed
before the server returns; what is typed after that is left out. So is a reset of
the connection then, behind which the client's `read` fails and it prints what is
in `rcvBuffer` again. The clients are numbered as the server accepts them.
-/

namespace NetworkTest.ChatRoom

open CBuffer (Bytes BUFSIZ Memory cstring)
open Channel (Link)
open ChatServer (ChatInv Message Server readBy received)
open Descriptors (ReadResult)
open KeyboardStop (Input Keyboard do_keyboard)
open Machine (Step exec Along)

/-- `reading` says that the loop of `readSock` goes on. -/
structure Client where
  keyboard : Keyboard
  rcvBuffer : Memory BUFSIZ
  reading : Bool
  up : Link UInt8
  down : Link UInt8

structure Room where
  server : Server
  client : Nat → Client

inductive Event where
  | key (c : Nat) (input : Input)
  | server (event : ChatServer.Event)
  | display (c : Nat) (data : Bytes)

inductive Call where
  | key (c : Nat) (call : KeyboardStop.Call)
  | server (call : ChatServer.Call)
  | printed (c : Nat) (data text : Bytes)
  deriving DecidableEq

def Room.set (room : Room) (c : Nat) (client : Client) : Room :=
  { room with client := Function.update room.client c client }

/-- What the `write` behind a `read` of the keyboard has put on the connection. -/
def typed (input : Input) : Bytes := (input.chunk.getD []).take input.written.toNat

/-- The client's `readSock`, once `read` has returned. -/
def readSock (c : Nat) (client : Client) (data : Bytes) (fits : data.length ≤ BUFSIZ) :
    Client × List Call :=
  if data = [] then ({ client with reading := false }, [])
  else
    let rcvBuffer := (client.rcvBuffer.store data fits).set data.length 0
    ({ client with rcvBuffer := rcvBuffer }, [.printed c data (cstring rcvBuffer.val)])

def bytesOf : ReadResult → Option Bytes
  | .bytes data => some data
  | .error => none

def speaker (server : Server) (k : Nat) : Option Nat :=
  match server.readers[k]? with
  | none => none
  | some reader => server.accepted.findIdx? (fun fd => fd = reader.socket)

/-- What a `read` of the server takes off a connection. A thread with another
descriptor than that of a client reads from elsewhere. -/
def fetch (room : Room) : ChatServer.Event → Option (Nat → Client)
  | .read k result =>
      match speaker room.server k with
      | none => some room.client
      | some c =>
          match (room.client c).up.read BUFSIZ (bytesOf result) with
          | none => none
          | some up => some (Function.update room.client c { room.client c with up := up })
  | _ => some room.client

def deliver (accepted : List Int) (client : Nat → Client) : ChatServer.Call → Nat → Client
  | .write _ fd message _ => fun c =>
      if accepted[c]? = some fd then
        { client c with down := (client c).down.send message.data }
      else client c
  | _ => client

def hangUp (server : Server) (client : Nat → Client) : Nat → Client :=
  if server.pc = .exited then fun c => { client c with down := (client c).down.close }
  else client

def step : Step Room Event Call := fun room event =>
  match event with
  | .key c input =>
      if room.server.pc ≠ .exited ∧ input.written ≤ (input.chunk.getD []).length then
        match do_keyboard .chat (room.client c).keyboard input with
        | none => none
        | some (keyboard, made) =>
            some (room.set c { room.client c with
                keyboard := keyboard
                up := (room.client c).up.send (typed input) },
              made.map (.key c))
      else none
  | .server event =>
      match fetch room event, ChatServer.step room.server event with
      | some client, some (server, made) =>
          some ({ server := server
                  client := hangUp server (made.foldl (deliver server.accepted) client) },
            made.map .server)
      | _, _ => none
  | .display c data =>
      if fits : data.length ≤ BUFSIZ then
        if (room.client c).reading = true then
          match (room.client c).down.read BUFSIZ (some data) with
          | none => none
          | some down =>
              let shown := readSock c { room.client c with down := down } data fits
              some (room.set c shown.1, shown.2)
        else none
      else none

/-- The arrays of a client hold what is on its stacks. -/
def start (beyond : Nat → Int) (arrays : Nat → Memory BUFSIZ × Memory BUFSIZ) : Room where
  server := ChatServer.start beyond
  client c :=
    { keyboard := ⟨.reading, (arrays c).1⟩
      rcvBuffer := (arrays c).2
      reading := true
      up := .fresh
      down := .fresh }

inductive Turn (room : Room) : Event → Room → List Call → Prop where
  | typed (c : Nat) (input : Input) (keyboard : Keyboard) (made : List KeyboardStop.Call)
      (going : room.server.pc ≠ .exited)
      (goes : do_keyboard .chat (room.client c).keyboard input = some (keyboard, made)) :
      Turn room (.key c input)
        (room.set c { room.client c with
          keyboard := keyboard
          up := (room.client c).up.send (typed input) })
        (made.map (.key c))
  | served (event : ChatServer.Event) (client : Nat → Client) (server : Server)
      (made : List ChatServer.Call) (got : fetch room event = some client)
      (taken : ChatServer.step room.server event = some (server, made)) :
      Turn room (.server event)
        { server := server
          client := hangUp server (made.foldl (deliver server.accepted) client) }
        (made.map .server)
  | ended (c : Nat) (down : Link UInt8) (going : (room.client c).reading = true)
      (got : (room.client c).down.read BUFSIZ (some []) = some down) :
      Turn room (.display c [])
        (room.set c { room.client c with down := down, reading := false }) []
  | printed (c : Nat) (data : Bytes) (down : Link UInt8) (rcvBuffer : Memory BUFSIZ)
      (going : (room.client c).reading = true) (more : data ≠ [])
      (got : (room.client c).down.read BUFSIZ (some data) = some down) :
      Turn room (.display c data)
        (room.set c { room.client c with down := down, rcvBuffer := rcvBuffer })
        [.printed c data (cstring data)]

theorem turn_of_step {room next : Room} {event : Event} {made : List Call}
    (taken : step room event = some (next, made)) : Turn room event next made := by
  cases event with
  | key c input =>
      simp only [step, Option.ite_none_right_eq_some] at taken
      obtain ⟨⟨going, _⟩, taken⟩ := taken
      split at taken
      case h_1 => contradiction
      case h_2 keyboard calls goes =>
          cases taken
          exact .typed c input keyboard calls going goes
  | server event =>
      simp only [step] at taken
      split at taken
      case h_1 client server calls got stepped =>
          cases taken
          exact .served event client server calls got stepped
      case h_2 => contradiction
  | display c data =>
      simp only [step, Option.dite_none_right_eq_some, Option.ite_none_right_eq_some] at taken
      obtain ⟨fits, going, taken⟩ := taken
      split at taken
      case h_1 => contradiction
      case h_2 down got =>
          by_cases last : data = []
          · subst last
            simp only [readSock, if_true, Option.some.injEq, Prod.mk.injEq] at taken
            obtain ⟨rfl, rfl⟩ := taken
            exact .ended c down going got
          · simp only [readSock, last, if_false, Option.some.injEq, Prod.mk.injEq] at taken
            obtain ⟨rfl, rfl⟩ := taken
            rw [CBuffer.cstring_received]
            exact .printed c data down _ going last got

/-! What the server does, seen from its clients. -/

def inbox (accepted : List Int) (calls : List ChatServer.Call) (c : Nat) : List Message :=
  match accepted[c]? with
  | none => []
  | some fd => received fd calls

theorem inbox_append (accepted : List Int) (calls made : List ChatServer.Call) (c : Nat) :
    inbox accepted (calls ++ made) c = inbox accepted calls c ++ inbox accepted made c := by
  unfold inbox
  split
  · rfl
  · exact ChatServer.received_append ..

theorem accepted_grows {server next : Server} {event : ChatServer.Event}
    {made : List ChatServer.Call} (turn : ChatServer.Turn server event next made) :
    ∃ more, next.accepted = server.accepted ++ more := by
  cases turn with
  | accepted fd waiting valid fresh => exact ⟨[fd], rfl⟩
  | _ => exact ⟨[], (List.append_nil _).symm⟩

/-- Nothing has been written to a descriptor that is not a client's. -/
def Strangers (calls : List ChatServer.Call) (server : Server) : Prop :=
  ∀ fd, fd ∉ server.accepted → received fd calls = []

theorem inbox_grown {server : Server} {calls : List ChatServer.Call}
    (strangers : Strangers calls server) {next : Server}
    (grows : ∃ more, next.accepted = server.accepted ++ more) (unique : next.accepted.Nodup)
    (c : Nat) : inbox next.accepted calls c = inbox server.accepted calls c := by
  obtain ⟨more, grown⟩ := grows
  rw [grown] at unique
  unfold inbox
  rw [grown]
  by_cases inside : c < server.accepted.length
  · rw [List.getElem?_append_left inside]
  · rw [List.getElem?_append_right (Nat.not_lt.mp inside),
      List.getElem?_eq_none (Nat.not_lt.mp inside)]
    split
    · rfl
    case h_2 fd found =>
        apply strangers
        intro member
        exact (List.nodup_append.mp unique).2.2 fd member fd (List.mem_of_getElem? found) rfl

theorem strangers_turn {server next : Server} {event : ChatServer.Event}
    {calls made : List ChatServer.Call} (inv : ChatInv calls server)
    (strangers : Strangers calls server) (turn : ChatServer.Turn server event next made) :
    Strangers (calls ++ made) next := by
  intro fd outside
  obtain ⟨more, grown⟩ := accepted_grows turn
  have before : fd ∉ server.accepted := fun member =>
    outside (grown ▸ List.mem_append_left more member)
  rw [ChatServer.received_append, strangers fd before, List.nil_append]
  cases turn with
  | sent k reader message i found here =>
      have walking := inv.readers k reader found
      rw [ChatServer.ReaderInv, here] at walking
      have entry := List.mem_of_getElem? (ChatServer.entry_of_inside inv walking.2.1)
      have other : server.sockConnect i ≠ fd := by
        rintro rfl
        exact before entry
      rw [ChatServer.received_write, if_neg other]
  | _ => rfl

theorem read_made {server next : Server} {k : Nat} {data : Bytes} {made : List ChatServer.Call}
    (more : data ≠ [])
    (taken : ChatServer.step server (.read k (.bytes data)) = some (next, made)) (j : Nat) :
    (readBy j made).flatMap Message.data = if j = k then data else [] := by
  simp only [ChatServer.step, Option.ite_none_left_eq_some] at taken
  obtain ⟨_, taken⟩ := taken
  split at taken
  case h_1 => contradiction
  case h_2 reader found =>
      simp only [Option.ite_none_right_eq_some, Option.some.injEq] at taken
      obtain ⟨_, taken⟩ := taken
      cases data with
      | nil => exact absurd rfl more
      | cons first rest =>
          simp only [ChatServer.readSock, Prod.mk.injEq] at taken
          obtain ⟨_, rfl⟩ := taken
          by_cases same : j = k
          · simp [readBy, same]
          · simp [readBy, same, Ne.symm same]

theorem readBy_quiet {server next : Server} {event : ChatServer.Event}
    {made : List ChatServer.Call} (turn : ChatServer.Turn server event next made)
    (other : ∀ k result, event ≠ .read k result) (j : Nat) : readBy j made = [] := by
  cases turn with
  | ended k reader found reading => exact absurd rfl (other k _)
  | received k reader result message found reading more sender number =>
      exact absurd rfl (other k result)
  | _ => rfl

/-! The connections. -/

structure Written (before after : Client) (data : Bytes) : Prop where
  up : after.up = before.up
  reading : after.reading = before.reading
  broken : after.down.broken = before.down.broken
  taken : after.down.taken = before.down.taken
  sent : before.down.broken = false → after.down.sent = before.down.sent ++ data

theorem written_nothing (client : Client) : Written client client [] :=
  ⟨rfl, rfl, rfl, rfl, fun _ => (List.append_nil _).symm⟩

theorem inbox_silent (accepted : List Int) (call : ChatServer.Call) (c : Nat)
    (silent : ∀ fd, accepted[c]? = some fd → received fd [call] = []) :
    inbox accepted [call] c = [] := by
  unfold inbox
  split
  · rfl
  case h_2 fd here => exact silent fd here

theorem written_call (accepted : List Int) (client : Nat → Client) (call : ChatServer.Call)
    (c : Nat) :
    Written (client c) (deliver accepted client call c)
        ((inbox accepted [call] c).flatMap Message.data) ∧
      (deliver accepted client call c).down.closed = (client c).down.closed := by
  cases call with
  | write entry fd message ended =>
      by_cases here : accepted[c]? = some fd
      · have got : inbox accepted [.write entry fd message ended] c = [message] := by
          simp [inbox, here]
        have given : deliver accepted client (.write entry fd message ended) c =
            { client c with down := (client c).down.send message.data } := if_pos here
        rw [got, List.flatMap_singleton, given]
        exact ⟨⟨rfl, rfl, Link.send_broken .., Link.send_taken ..,
          fun held => Link.send_sent held _⟩, Link.send_closed ..⟩
      · have none : inbox accepted [.write entry fd message ended] c = [] := by
          apply inbox_silent
          intro other found
          rw [ChatServer.received_write, if_neg]
          rintro rfl
          exact here found
        have same : deliver accepted client (.write entry fd message ended) c = client c :=
          if_neg here
        rw [none, same]
        exact ⟨written_nothing _, rfl⟩
  | storeSock index fd =>
      rw [inbox_silent _ _ _ fun _ _ => rfl]
      exact ⟨written_nothing _, rfl⟩
  | storeThread index =>
      rw [inbox_silent _ _ _ fun _ _ => rfl]
      exact ⟨written_nothing _, rfl⟩
  | read message count =>
      rw [inbox_silent _ _ _ fun _ _ => rfl]
      exact ⟨written_nothing _, rfl⟩
  | sawEnd reader =>
      rw [inbox_silent _ _ _ fun _ _ => rfl]
      exact ⟨written_nothing _, rfl⟩
  | finished message =>
      rw [inbox_silent _ _ _ fun _ _ => rfl]
      exact ⟨written_nothing _, rfl⟩

theorem written_deliver (accepted : List Int) (client : Nat → Client)
    (made : List ChatServer.Call) (c : Nat) :
    Written (client c) (made.foldl (deliver accepted) client c)
        ((inbox accepted made c).flatMap Message.data) ∧
      (made.foldl (deliver accepted) client c).down.closed = (client c).down.closed := by
  induction made generalizing client with
  | nil =>
      have none : inbox accepted [] c = [] := by
        unfold inbox
        split <;> rfl
      rw [none]
      exact ⟨written_nothing _, rfl⟩
  | cons call rest ih =>
      obtain ⟨one, held⟩ := written_call accepted client call c
      obtain ⟨others, closed⟩ := ih (deliver accepted client call)
      rw [List.foldl_cons, ← List.singleton_append, inbox_append, List.flatMap_append]
      refine ⟨⟨others.up.trans one.up, others.reading.trans one.reading,
        others.broken.trans one.broken, others.taken.trans one.taken, fun unbroken => ?_⟩,
        closed.trans held⟩
      rw [others.sent (one.broken.trans unbroken), one.sent unbroken, List.append_assoc]

theorem written_step (server : Server) (client : Nat → Client) (made : List ChatServer.Call)
    (c : Nat) :
    Written (client c) (hangUp server (made.foldl (deliver server.accepted) client) c)
        ((inbox server.accepted made c).flatMap Message.data) ∧
      (server.pc ≠ .exited →
        (hangUp server (made.foldl (deliver server.accepted) client) c).down.closed =
          (client c).down.closed) := by
  obtain ⟨written, closed⟩ := written_deliver server.accepted client made c
  unfold hangUp
  split
  case isTrue exited =>
      exact ⟨⟨written.up, written.reading, written.broken, written.taken, written.sent⟩,
        fun going => absurd exited going⟩
  case isFalse going => exact ⟨written, fun _ => closed⟩

theorem set_self (room : Room) (c : Nat) (client : Client) :
    (room.set c client).client c = client := Function.update_self ..

theorem set_other (room : Room) {c d : Nat} (client : Client) (differs : d ≠ c) :
    (room.set c client).client d = room.client d := Function.update_of_ne differs ..

theorem fetch_same {room : Room} {event : ChatServer.Event} {client : Nat → Client}
    (got : fetch room event = some client) (c : Nat) :
    (client c).up.sent = (room.client c).up.sent ∧
      (client c).up.closed = (room.client c).up.closed ∧
      (client c).up.broken = (room.client c).up.broken ∧
      (client c).down = (room.client c).down ∧
      (client c).reading = (room.client c).reading := by
  unfold fetch at got
  split at got
  case h_1 k result =>
      split at got
      case h_1 =>
          cases got
          exact ⟨rfl, rfl, rfl, rfl, rfl⟩
      case h_2 j _ =>
          split at got
          case h_1 => contradiction
          case h_2 up read =>
              cases got
              obtain ⟨sent, closed, broken⟩ := Link.read_sent read
              by_cases same : c = j
              · subst same
                rw [Function.update_self]
                exact ⟨sent, closed, broken, rfl, rfl⟩
              · rw [Function.update_of_ne same]
                exact ⟨rfl, rfl, rfl, rfl, rfl⟩
  case h_2 =>
      cases got
      exact ⟨rfl, rfl, rfl, rfl, rfl⟩

/-- No connection is ever cut, and no client closes its own. -/
def Held (room : Room) : Prop :=
  ∀ c, (room.client c).up.closed = false ∧ (room.client c).up.broken = false ∧
    (room.client c).down.broken = false

/-- What an event adds to what the client `d` has typed. -/
def typedBy (d : Nat) : Event → Bytes
  | .key c input => if c = d then typed input else []
  | .server _ => []
  | .display _ _ => []

theorem typed_set {room : Room} (held : Held room) (c : Nat) (client : Client) {more : Bytes}
    (closed : client.up.closed = false) (broken : client.up.broken = false)
    (down : client.down.broken = false)
    (sent : client.up.sent = (room.client c).up.sent ++ more) :
    Held (room.set c client) ∧
      ∀ d, ((room.set c client).client d).up.sent =
        (room.client d).up.sent ++ if c = d then more else [] := by
  constructor
  · intro d
    by_cases same : d = c
    · subst same
      rw [set_self]
      exact ⟨closed, broken, down⟩
    · rw [set_other _ _ same]
      exact held d
  · intro d
    by_cases same : d = c
    · subst same
      rw [set_self, sent, if_pos rfl]
    · rw [set_other _ _ same, if_neg (Ne.symm same), List.append_nil]

theorem typed_turn {room next : Room} {event : Event} {made : List Call} (held : Held room)
    (turn : Turn room event next made) :
    Held next ∧
      ∀ d, (next.client d).up.sent = (room.client d).up.sent ++ typedBy d event := by
  cases turn with
  | typed c input keyboard made going goes =>
      obtain ⟨closed, broken, down⟩ := held c
      exact typed_set held c _ ((Link.send_closed ..).trans closed)
        ((Link.send_broken ..).trans broken) down (Link.send_sent broken _)
  | served event client server made got taken =>
      constructor
      · intro d
        obtain ⟨_, closed, broken, down, _⟩ := fetch_same got d
        have written := (written_step server client made d).1
        rw [written.up, written.broken, closed, broken, down]
        exact held d
      · intro d
        rw [(written_step server client made d).1.up, (fetch_same got d).1, typedBy,
          List.append_nil]
  | ended c down going got =>
      have broken := (Link.read_sent got).2.2
      have kept := typed_set held c { room.client c with down := down, reading := false }
        (held c).1 (held c).2.1 (broken.trans (held c).2.2) (List.append_nil _).symm
      simpa only [typedBy, ite_self] using kept
  | printed c data down rcvBuffer going more got =>
      have broken := (Link.read_sent got).2.2
      have kept := typed_set held c { room.client c with down := down, rcvBuffer := rcvBuffer }
        (held c).1 (held c).2.1 (broken.trans (held c).2.2) (List.append_nil _).symm
      simpa only [typedBy, ite_self] using kept

end NetworkTest.ChatRoom
