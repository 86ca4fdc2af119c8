import NetworkTest.ChatRoom

/-!
What the clients of the chat show, over whole runs of the room: the server's
broadcast between the streams that the clients have typed and those they read.
-/

namespace NetworkTest.ChatRoom

open CBuffer (Bytes BUFSIZ Memory cstring)
open Channel (Link)
open ChatServer (ChatInv Message Server readBy received)
open Descriptors (ReadResult)
open KeyboardStop (Input Keyboard do_keyboard)
open Machine (Step exec Along)

/-! What the server reads. -/

theorem speaker_of_found {server : Server} {calls : List ChatServer.Call}
    (inv : ChatInv calls server) {k : Nat} {reader : ChatServer.Reader}
    (found : server.readers[k]? = some reader) : speaker server k = some k := by
  obtain ⟨inside, here⟩ := List.getElem?_eq_some_iff.mp (inv.own k reader found)
  simp only [speaker, found]
  rw [List.findIdx?_eq_some_iff_getElem]
  refine ⟨inside, by simpa using here, fun j before same => ?_⟩
  have equal : server.accepted[j] = server.accepted[k] := by
    rw [here]
    simpa using same
  exact Nat.ne_of_lt before ((inv.unique.getElem_inj_iff ..).mp equal)

/-- While each thread has the descriptor of its own client, every `read` gets a
piece of what that client has typed. -/
inductive Fetched (room : Room) : ChatServer.Event → (Nat → Client) → Prop where
  | quiet (event : ChatServer.Event) (other : ∀ k result, event ≠ .read k result) :
      Fetched room event room.client
  | got (k : Nat) (data : Bytes) (up : Link UInt8) (more : data ≠ [])
      (read : (room.client k).up.read BUFSIZ (some data) = some up) :
      Fetched room (.read k (.bytes data))
        (Function.update room.client k { room.client k with up := up })

theorem thread_of_read {server next : Server} {k : Nat} {result : ReadResult}
    {made : List ChatServer.Call}
    (turn : ChatServer.Turn server (.read k result) next made) :
    ∃ reader, server.readers[k]? = some reader ∧ reader.pc = .reading := by
  cases turn with
  | ended k reader found reading => exact ⟨reader, found, reading⟩
  | received k reader result message found reading more sender number =>
      exact ⟨reader, found, reading⟩

theorem fetched_of_fetch {room : Room} {calls : List ChatServer.Call} {next : Server}
    {event : ChatServer.Event} {client : Nat → Client} {made : List ChatServer.Call}
    (inv : ChatInv calls room.server) (held : Held room)
    (got : fetch room event = some client)
    (turn : ChatServer.Turn room.server event next made) : Fetched room event client := by
  cases event with
  | read k result =>
      obtain ⟨reader, found, _⟩ := thread_of_read turn
      simp only [fetch, speaker_of_found inv found] at got
      split at got
      case h_1 => contradiction
      case h_2 up read =>
          cases got
          cases result with
          | error => exact absurd read (Link.read_held (held k).2.1)
          | bytes data =>
              refine .got k data up ?_ read
              rintro rfl
              have ended := ((Link.read_data read).2.2.2 rfl).2
              rw [(held k).1, (held k).2.1] at ended
              simp at ended
  | _ =>
      cases got
      exact .quiet _ (fun _ _ same => by cases same)

/-! The calls of a run. -/

def serverCall : Call → Option ChatServer.Call
  | .server call => some call
  | _ => none

def served (calls : List Call) : List ChatServer.Call := calls.filterMap serverCall

def readOf (c : Nat) (calls : List Call) : Bytes :=
  calls.flatMap fun call =>
    match call with
    | .printed d data _ => if d = c then data else []
    | _ => []

def textOf (c : Nat) (calls : List Call) : Bytes :=
  calls.flatMap fun call =>
    match call with
    | .printed d _ text => if d = c then text else []
    | _ => []

theorem served_append (calls made : List Call) :
    served (calls ++ made) = served calls ++ served made := List.filterMap_append ..

theorem readOf_append (c : Nat) (calls made : List Call) :
    readOf c (calls ++ made) = readOf c calls ++ readOf c made := List.flatMap_append ..

theorem textOf_append (c : Nat) (calls made : List Call) :
    textOf c (calls ++ made) = textOf c calls ++ textOf c made := List.flatMap_append ..

theorem served_server (made : List ChatServer.Call) : served (made.map .server) = made := by
  induction made with
  | nil => rfl
  | cons call rest ih => simpa [served, serverCall] using ih

theorem served_key (c : Nat) (made : List KeyboardStop.Call) : served (made.map (.key c)) = [] := by
  apply List.filterMap_eq_nil_iff.mpr
  intro call member
  obtain ⟨other, _, rfl⟩ := List.mem_map.mp member
  rfl

theorem readOf_server (c : Nat) (made : List ChatServer.Call) :
    readOf c (made.map .server) = [] := by
  apply List.flatMap_eq_nil_iff.mpr
  intro call member
  obtain ⟨other, _, rfl⟩ := List.mem_map.mp member
  rfl

theorem readOf_key (c d : Nat) (made : List KeyboardStop.Call) :
    readOf c (made.map (.key d)) = [] := by
  apply List.flatMap_eq_nil_iff.mpr
  intro call member
  obtain ⟨other, _, rfl⟩ := List.mem_map.mp member
  rfl

/-- At most `MAX_USER` clients connect, each thread is given its own client's
descriptor, and no `read` fills its buffer. -/
def RoomOk (room : Room) : Event → Prop
  | .key _ _ => True
  | .display _ data => data.length < BUFSIZ
  | .server (.accept result) => result = -1 ∨ room.server.userCnt < ChatServer.MAX_USER
  | .server (.count order) => order = .socketFirst
  | .server (.read _ (.bytes data)) => data.length < BUFSIZ
  | .server _ => True

instance (room : Room) : (event : Event) → Decidable (RoomOk room event)
  | .key _ _ => isTrue trivial
  | .display _ data => inferInstanceAs (Decidable (data.length < BUFSIZ))
  | .server (.accept result) =>
      inferInstanceAs (Decidable (result = -1 ∨ room.server.userCnt < ChatServer.MAX_USER))
  | .server (.count order) => inferInstanceAs (Decidable (order = .socketFirst))
  | .server (.read _ (.bytes data)) => inferInstanceAs (Decidable (data.length < BUFSIZ))
  | .server (.read _ .error) => isTrue trivial
  | .server .create => isTrue trivial
  | .server .createFails => isTrue trivial
  | .server (.test _) => isTrue trivial
  | .server (.write _) => isTrue trivial

structure Kept (calls : List Call) (server : Server) (c : Nat) (client : Client) : Prop where
  going : server.pc ≠ .exited → client.reading = true ∧ client.down.closed = false
  heard : client.up.taken = (readBy c (served calls)).flatMap Message.data
  written : client.down.sent =
    (inbox server.accepted (served calls) c).flatMap Message.data
  shown : client.down.taken = readOf c calls

structure Inv (calls : List Call) (room : Room) : Prop where
  chat : ChatInv (served calls) room.server
  distinct : ∀ d, (readBy d (served calls)).Nodup
  strangers : Strangers (served calls) room.server
  held : Held room
  clients : ∀ c, Kept calls room.server c (room.client c)

theorem chatOk_of_roomOk {room : Room} {event : ChatServer.Event} {client : Nat → Client}
    (ok : RoomOk room (.server event)) (fetched : Fetched room event client) :
    ChatServer.ChatOk room.server event := by
  cases event with
  | read k result =>
      cases fetched with
      | quiet _ other => exact absurd rfl (other k result)
      | got _ data up more read => exact fun ended => more (ReadResult.bytes.inj ended)
  | accept result => exact ok
  | count order => exact ok
  | create => trivial
  | createFails => trivial
  | test k => trivial
  | write k => trivial

theorem inv_set {calls made : List Call} {room : Room} {c : Nat} {client : Client}
    (inv : Inv calls room) (silent : served made = []) (others : ∀ d, d ≠ c → readOf d made = [])
    (held : Held (room.set c client)) (mine : Kept (calls ++ made) room.server c client) :
    Inv (calls ++ made) (room.set c client) := by
  have same : served (calls ++ made) = served calls := by
    rw [served_append, silent, List.append_nil]
  constructor
  case chat => rw [same]; exact inv.chat
  case distinct => rw [same]; exact inv.distinct
  case strangers => rw [same]; exact inv.strangers
  case held => exact held
  case clients =>
      intro d
      by_cases own : d = c
      · subst own
        rw [set_self]
        exact mine
      · have old := inv.clients d
        rw [set_other _ _ own]
        constructor
        case going => exact old.going
        case heard => rw [same]; exact old.heard
        case written => rw [same]; exact old.written
        case shown => rw [old.shown, readOf_append, others d own, List.append_nil]

theorem inv_served {calls : List Call} {room : Room} {event : ChatServer.Event}
    {client : Nat → Client} {server : Server} {made : List ChatServer.Call}
    (inv : Inv calls room) (ok : RoomOk room (.server event))
    (got : fetch room event = some client)
    (taken : ChatServer.step room.server event = some (server, made)) :
    Inv (calls ++ made.map .server)
      { server := server
        client := hangUp server (made.foldl (deliver server.accepted) client) } := by
  have turn := ChatServer.turn_of_step taken
  have fetched := fetched_of_fetch inv.chat inv.held got turn
  have parts : served (calls ++ made.map .server) = served calls ++ made := by
    rw [served_append, served_server]
  have chat := ChatServer.chatInv_step inv.chat (chatOk_of_roomOk ok fetched) taken
  constructor
  case chat => rw [parts]; exact chat
  case distinct => rw [parts]; exact ChatServer.distinct_turn inv.chat inv.distinct turn
  case strangers => rw [parts]; exact strangers_turn inv.chat inv.strangers turn
  case held => exact (typed_turn inv.held (.served event client server made got taken)).1
  case clients =>
      intro d
      obtain ⟨written, closed⟩ := written_step server client made d
      obtain ⟨_, _, _, down, reading⟩ := fetch_same got d
      have old := inv.clients d
      constructor
      case going =>
          intro going
          have before : room.server.pc ≠ .exited := by
            simp only [ChatServer.step, Option.ite_none_left_eq_some] at taken
            exact taken.1
          have went := old.going before
          rw [written.reading, closed going, reading, down]
          exact went
      case heard =>
          rw [written.up, parts, ChatServer.readBy_append, List.flatMap_append, ← old.heard]
          -- only a `read` takes from a way up, and only from that of its own client
          cases fetched with
          | quiet _ other => rw [readBy_quiet turn other, List.flatMap_nil, List.append_nil]
          | got k data up more read =>
              rw [read_made more taken]
              by_cases same : d = k
              · subst same
                rw [Function.update_self, if_pos rfl]
                exact Link.read_taken read
              · rw [Function.update_of_ne same, if_neg same, List.append_nil]
      case written =>
          have held : (client d).down.broken = false := by rw [down]; exact (inv.held d).2.2
          rw [written.sent held, down, old.written, parts, inbox_append,
            inbox_grown inv.strangers (accepted_grows turn) chat.unique, List.flatMap_append]
      case shown =>
          rw [written.taken, down, old.shown, readOf_append, readOf_server, List.append_nil]

/-- While the server goes on no connection is closed, so none has an end. -/
theorem Inv.unended {calls : List Call} {room : Room} (inv : Inv calls room)
    (going : room.server.pc ≠ .exited) {c : Nat} {down : Link UInt8}
    (got : (room.client c).down.read BUFSIZ (some []) = some down) : False := by
  have ended := ((Link.read_data got).2.2.2 rfl).2
  rw [((inv.clients c).going going).2, (inv.held c).2.2] at ended
  simp at ended

theorem inv_turn {calls made : List Call} {room next : Room} {event : Event}
    (inv : Inv calls room) (ok : RoomOk room event) (turn : Turn room event next made) :
    Inv (calls ++ made) next := by
  have held := (typed_turn inv.held turn).1
  cases turn with
  | typed c input keyboard made going goes =>
      have old := inv.clients c
      refine inv_set inv (served_key c made) (fun d _ => readOf_key d c made) held ?_
      have silent : served (calls ++ made.map (.key c)) = served calls := by
        rw [served_append, served_key, List.append_nil]
      constructor
      case going => exact old.going
      case heard => rw [silent]; exact (Link.send_taken ..).trans old.heard
      case written => rw [silent]; exact old.written
      case shown =>
          rw [readOf_append, readOf_key, List.append_nil]
          exact old.shown
  | served event client server made got taken => exact inv_served inv ok got taken
  | ended c down going got =>
      have old := inv.clients c
      refine inv_set inv rfl (fun _ _ => rfl) held ?_
      rw [List.append_nil]
      obtain ⟨sent, closed, broken⟩ := Link.read_sent got
      constructor
      case going => exact fun going => (inv.unended going got).elim
      case heard => exact old.heard
      case written => exact sent.trans old.written
      case shown => exact (Link.read_taken got).trans ((List.append_nil _).trans old.shown)
  | printed c data down rcvBuffer going more got =>
      have old := inv.clients c
      obtain ⟨sent, closed, broken⟩ := Link.read_sent got
      have silent : served (calls ++ [.printed c data (cstring data)]) = served calls := by
        rw [served_append]
        exact List.append_nil _
      refine inv_set inv rfl (fun d other => ?_) held ?_
      · simp [readOf, Ne.symm other]
      constructor
      case going => exact fun going => ⟨(old.going going).1, closed.trans (old.going going).2⟩
      case heard => rw [silent]; exact old.heard
      case written => rw [silent]; exact sent.trans old.written
      case shown =>
          have now : readOf c [.printed c data (cstring data)] = data := by simp [readOf]
          rw [Link.read_taken got, old.shown, readOf_append, now]

theorem inv_start (beyond : Nat → Int) (arrays : Nat → Memory BUFSIZ × Memory BUFSIZ) :
    Inv [] (start beyond arrays) where
  chat := ChatServer.chatInv_start beyond
  distinct := fun _ => List.nodup_nil
  strangers := fun _ _ => rfl
  held := fun _ => ⟨rfl, rfl, rfl⟩
  clients c := by
    constructor
    case going => exact fun _ => ⟨rfl, rfl⟩
    case heard => rfl
    case written => simp [start, ChatServer.start, inbox, Link.fresh]
    case shown => rfl

theorem inv_run {beyond : Nat → Int} {arrays : Nat → Memory BUFSIZ × Memory BUFSIZ}
    {events : List Event} {room : Room} {calls : List Call}
    (ok : Along step RoomOk (start beyond arrays) events)
    (ran : exec step (start beyond arrays) events = some (room, calls)) : Inv calls room :=
  Machine.exec_invariant_along Inv
    (fun _ _ _ _ _ inv ok taken => inv_turn inv ok (turn_of_step taken))
    (inv_start beyond arrays) ok ran

theorem typed_run {beyond : Nat → Int} {arrays : Nat → Memory BUFSIZ × Memory BUFSIZ}
    {events : List Event} {room : Room} {calls : List Call}
    (ran : exec step (start beyond arrays) events = some (room, calls)) (d : Nat) :
    (room.client d).up.sent = events.flatMap (typedBy d) := by
  have recorded := @Machine.exec_records_from _ _ _ _ _ (fun room => (room.client d).up.sent)
    (typedBy d) Held
    (fun _ _ _ _ held taken => by
      obtain ⟨kept, more⟩ := typed_turn held (turn_of_step taken)
      exact ⟨kept, more d⟩)
    (start beyond arrays) room events calls (fun _ => ⟨rfl, rfl, rfl⟩) ran
  exact recorded

/-- What is printed is the chunk that was read, up to its first zero. -/
def Terminated : Call → Prop
  | .printed _ data text => text = cstring data
  | _ => True

theorem terminated_run {beyond : Nat → Int} {arrays : Nat → Memory BUFSIZ × Memory BUFSIZ}
    {events : List Event} {room : Room} {calls : List Call}
    (ran : exec step (start beyond arrays) events = some (room, calls)) :
    ∀ call ∈ calls, Terminated call := by
  refine Machine.exec_calls Terminated ?_ ran
  intro room event next made taken call member
  cases turn_of_step taken with
  | typed c input keyboard made going goes =>
      obtain ⟨other, _, rfl⟩ := List.mem_map.mp member
      trivial
  | served event client server made got taken =>
      obtain ⟨other, _, rfl⟩ := List.mem_map.mp member
      trivial
  | ended c down going got => cases member
  | printed c data down rcvBuffer going more got =>
      rw [List.mem_singleton.mp member]
      rfl

theorem text_of_nonzero {calls : List Call} {c : Nat}
    (terminated : ∀ call ∈ calls, Terminated call) (nonzero : ∀ byte ∈ readOf c calls, byte ≠ 0) :
    textOf c calls = readOf c calls := by
  induction calls with
  | nil => rfl
  | cons call rest ih =>
      have bytes : readOf c (call :: rest) = readOf c [call] ++ readOf c rest :=
        readOf_append c [call] rest
      have printed : textOf c (call :: rest) = textOf c [call] ++ textOf c rest :=
        textOf_append c [call] rest
      rw [bytes, List.forall_mem_append] at nonzero
      rw [List.forall_mem_cons] at terminated
      rw [printed, bytes, ih terminated.2 nonzero.2]
      congr 1
      cases call with
      | key d made => rfl
      | server made => rfl
      | printed d data text =>
          obtain rfl : text = cstring data := terminated.1
          by_cases own : d = c
          · have read : readOf c [.printed d data (cstring data)] = data := by
              simp [readOf, own]
            have shown : textOf c [.printed d data (cstring data)] = cstring data := by
              simp [textOf, own]
            rw [read] at nonzero
            rw [read, shown, CBuffer.cstring_of_nonzero nonzero.1]
          · simp [textOf, readOf, own]

/-! What a client is sent. -/

theorem inbox_sublist {calls : List ChatServer.Call} {server : Server}
    (inv : ChatInv calls server) (c d : Nat) :
    ((inbox server.accepted calls c).filter (fun message => message.sender = d)).Sublist
      (readBy d calls) := by
  unfold inbox
  split
  · exact List.nil_sublist _
  case h_2 fd here => exact ChatServer.ordered_of_inv inv d fd

theorem inbox_others {calls : List ChatServer.Call} {server : Server}
    (inv : ChatInv calls server) (c : Nat) :
    ∀ message ∈ inbox server.accepted calls c, message.sender ≠ c := by
  unfold inbox
  split
  · simp
  case h_2 fd here =>
      rintro message member rfl
      exact (inv.apart fd message member).1 here

theorem heard_typed {calls : List Call} {room : Room} (inv : Inv calls room) (d : Nat) :
    (readBy d (served calls)).flatMap Message.data <+: (room.client d).up.sent := by
  rw [← (inv.clients d).heard]
  exact (List.prefix_append ..).trans (room.client d).up.ordered

theorem read_written {calls : List Call} {room : Room} (inv : Inv calls room) (c : Nat) :
    readOf c calls <+: (inbox room.server.accepted (served calls) c).flatMap Message.data := by
  rw [← (inv.clients c).written, ← (inv.clients c).shown]
  exact (List.prefix_append ..).trans (room.client c).down.ordered

theorem typed_of_read {calls : List Call} {room : Room} (inv : Inv calls room) {c : Nat}
    {byte : UInt8} (member : byte ∈ readOf c calls) : ∃ d, byte ∈ (room.client d).up.sent := by
  obtain ⟨message, sent, inside⟩ := List.mem_flatMap.mp ((read_written inv c).subset member)
  have own : message ∈ (inbox room.server.accepted (served calls) c).filter
      (fun other => other.sender = message.sender) :=
    List.mem_filter.mpr ⟨sent, by simp⟩
  have read := (inbox_sublist inv.chat c message.sender).subset own
  exact ⟨message.sender, (heard_typed inv message.sender).subset
    (List.mem_flatMap.mpr ⟨message, read, inside⟩)⟩

/-- In every interleaving of the threads of the server and of the clients: what a
client reads is made up of messages of the others, as they were written to it;
those of one client come in the order in which it typed them, and none of them
twice. Where nobody types a zero, all that is read is printed. -/
theorem room_shows (beyond : Nat → Int) (arrays : Nat → Memory BUFSIZ × Memory BUFSIZ)
    (events : List Event) (room : Room) (calls : List Call)
    (ok : Along step RoomOk (start beyond arrays) events)
    (ran : exec step (start beyond arrays) events = some (room, calls)) (c : Nat) :
    readOf c calls <+: (inbox room.server.accepted (served calls) c).flatMap Message.data ∧
      (∀ message ∈ inbox room.server.accepted (served calls) c, message.sender ≠ c) ∧
      (∀ d, ((inbox room.server.accepted (served calls) c).filter
            (fun message => message.sender = d)).Sublist (readBy d (served calls)) ∧
          (readBy d (served calls)).Nodup ∧
          (readBy d (served calls)).flatMap Message.data <+: events.flatMap (typedBy d)) ∧
      ((∀ d, 0 ∉ events.flatMap (typedBy d)) → textOf c calls = readOf c calls) := by
  have inv := inv_run ok ran
  refine ⟨read_written inv c, inbox_others inv.chat c, fun d => ?_, fun nonzero => ?_⟩
  · rw [← typed_run ran d]
    exact ⟨inbox_sublist inv.chat c d, inv.distinct d, heard_typed inv d⟩
  · apply text_of_nonzero (terminated_run ran)
    rintro byte member rfl
    obtain ⟨d, typed⟩ := typed_of_read inv member
    exact nonzero d (typed_run ran d ▸ typed)

def greeting : List Event :=
  [.server (.accept 4), .server (.count .socketFirst), .server .create, .server (.accept 5),
    .server (.count .socketFirst), .server .create, .key 0 ⟨some [104, 105, 10], 3⟩,
    .server (.read 0 (.bytes [104, 105, 10])), .server (.test 0), .server (.test 0),
    .server (.write 0), .server (.test 0), .display 1 [104, 105, 10]]

def zeros (_ : Nat) : Memory BUFSIZ × Memory BUFSIZ := (Memory.zeros BUFSIZ, Memory.zeros BUFSIZ)

theorem room_shows_greeting :
    ∃ room calls, exec step (start (fun _ => 0) zeros) greeting = some (room, calls) ∧
      textOf 1 calls = readOf 1 calls := by
  have runs : (exec step (start (fun _ => 0) zeros) greeting).isSome = true := by
    decide +kernel
  have whole : Machine.misses step RoomOk (start (fun _ => 0) zeros) greeting = 0 := by
    decide +kernel
  obtain ⟨room, calls, ran⟩ := Machine.exec_of_isSome runs
  refine ⟨room, calls, ran, (room_shows (fun _ => 0) zeros greeting room calls
    ((Machine.misses_zero_iff _ _).mp whole) ran 1).2.2.2 fun d => ?_⟩
  simp [greeting, typedBy, typed]

end NetworkTest.ChatRoom
