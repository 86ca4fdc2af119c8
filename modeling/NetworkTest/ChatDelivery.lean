import Mathlib.Algebra.BigOperators.Group.Finset.Basic
import NetworkTest.ChatShown
import NetworkTest.Endings

/-!
What becomes of what is typed in the chat, when nothing more is typed and nobody
connects: the room comes to rest after so many steps, and then each client has
been sent all that the others have typed since it was counted.
-/

namespace NetworkTest.ChatRoom

open CBuffer (Bytes BUFSIZ Memory)
open Channel (Link)
open ChatServer (ChatInv Message Reader ReaderPc Server readBy received)
open Descriptors (ReadResult)
open Machine (Step exec Along)

/-- What happens by itself. -/
def Inner : Event → Prop
  | .key _ _ => False
  | .display _ data => data.length < BUFSIZ
  | .server (.read _ (.bytes data)) => data.length < BUFSIZ
  | .server (.test _) => True
  | .server (.write _) => True
  | .server _ => False

def AtRest (room : Room) : Prop := ∀ event, Inner event → step room event = none

/-! No broadcast is left unfinished. -/

/-- Each message read is finished or in the hands of its thread. -/
structure Settled (calls : List ChatServer.Call) (server : Server) : Prop where
  alive : ∀ (k : Nat) (reader : Reader), server.readers[k]? = some reader → reader.pc ≠ .ended
  open_ : ∀ message count, ChatServer.Call.read message count ∈ calls →
    .finished message ∈ calls ∨ ∃ reader i, server.readers[message.sender]? = some reader ∧
      (reader.pc = .test message i ∨ reader.pc = .send message i)

theorem settled_moved {calls made : List ChatServer.Call} {server : Server} {k count : Nat}
    {reader : Reader} {pc : ReaderPc} (settled : Settled calls server)
    (found : server.readers[k]? = some reader) (going : pc ≠ .ended)
    (old : ∀ message i, message.sender = k →
      reader.pc = .test message i ∨ reader.pc = .send message i →
        .finished message ∈ made ∨ ∃ i, pc = .test message i ∨ pc = .send message i)
    (new : ∀ message count, ChatServer.Call.read message count ∈ made →
      message.sender = k ∧ ∃ i, pc = .test message i ∨ pc = .send message i) :
    Settled (calls ++ made)
      { ChatServer.setReader server k reader pc with messages := count } := by
  have inside := (List.getElem?_eq_some_iff.mp found).choose
  constructor
  case alive =>
      intro j other there
      change (server.readers.set k { reader with pc := pc })[j]? = some other at there
      by_cases same : j = k
      · subst same
        rw [List.getElem?_set_self inside] at there
        cases there
        exact going
      · rw [List.getElem?_set_ne (Ne.symm same)] at there
        exact settled.alive j other there
  case open_ =>
      intro message count read
      change _ ∨ ∃ reader' i, (server.readers.set k { reader with pc := pc })[message.sender]? =
        some reader' ∧ _
      have here : ∀ i, message.sender = k → (pc = .test message i ∨ pc = .send message i) →
          ∃ reader' i, (server.readers.set k { reader with pc := pc })[message.sender]? =
            some reader' ∧ (reader'.pc = .test message i ∨ reader'.pc = .send message i) := by
        intro i own at_
        refine ⟨{ reader with pc := pc }, i, ?_, at_⟩
        rw [own, List.getElem?_set_self inside]
      rcases List.mem_append.mp read with before | now
      · rcases settled.open_ message count before with done | ⟨other, i, there, at_⟩
        · exact .inl (List.mem_append_left _ done)
        -- a message of the thread that moved is finished by the step or still open
        · by_cases own : message.sender = k
          · rw [own, found] at there
            cases there
            rcases old message i own at_ with done | ⟨j, at_⟩
            · exact .inl (List.mem_append_right _ done)
            · exact .inr (here j own at_)
          · refine .inr ⟨other, i, ?_, at_⟩
            rw [List.getElem?_set_ne (Ne.symm own)]
            exact there
      · obtain ⟨own, i, at_⟩ := new message count now
        exact .inr (here i own at_)

theorem settled_main {calls made : List ChatServer.Call} {server next : Server}
    (settled : Settled calls server) (unread : ∀ message count,
      ChatServer.Call.read message count ∉ made)
    (grows : ∃ more, next.readers = server.readers ++ more ∧
      ∀ reader ∈ more, reader.pc = .reading) :
    Settled (calls ++ made) next := by
  obtain ⟨more, grown, fresh⟩ := grows
  constructor
  case alive =>
      intro k reader found
      rw [grown] at found
      by_cases inside : k < server.readers.length
      · rw [List.getElem?_append_left inside] at found
        exact settled.alive k reader found
      · rw [List.getElem?_append_right (Nat.not_lt.mp inside)] at found
        rw [fresh reader (List.mem_of_getElem? found)]
        simp
  case open_ =>
      intro message count read
      rcases List.mem_append.mp read with before | now
      · rcases settled.open_ message count before with done | ⟨reader, i, there, at_⟩
        · exact .inl (List.mem_append_left _ done)
        · refine .inr ⟨reader, i, ?_, at_⟩
          have inside := (List.getElem?_eq_some_iff.mp there).choose
          rw [grown, List.getElem?_append_left inside]
          exact there
      · exact absurd now (unread message count)

theorem settled_turn {calls made : List ChatServer.Call} {server next : Server}
    {event : ChatServer.Event} (settled : Settled calls server)
    (more : ∀ k, event ≠ .read k (.bytes []))
    (turn : ChatServer.Turn server event next made) : Settled (calls ++ made) next := by
  cases turn with
  | acceptFailed waiting =>
      exact settled_main settled (by simp) ⟨[], (List.append_nil _).symm, by simp⟩
  | accepted fd waiting valid fresh =>
      exact settled_main settled (by simp) ⟨[], (List.append_nil _).symm, by simp⟩
  | counted order socket stored own after =>
      exact settled_main settled (by simp) ⟨[], (List.append_nil _).symm, by simp⟩
  | created socket ready => exact settled_main settled (by simp) ⟨[_], rfl, by simp⟩
  | createFailed socket ready =>
      exact settled_main settled (by simp) ⟨[], (List.append_nil _).symm, by simp⟩
  | ended k reader found reading => exact absurd rfl (more k)
  | received k reader result message found reading _ sender number =>
      refine settled_moved settled found (by simp) ?_ ?_
      · intro other i _ at_
        rw [reading] at at_
        simp at at_
      · intro other count read
        simp only [List.mem_singleton, ChatServer.Call.read.injEq] at read
        obtain ⟨rfl, _⟩ := read
        exact ⟨sender, 0, .inl rfl⟩
  | skipped k reader message i found here inside own =>
      refine settled_moved settled found (by simp) ?_ (by simp)
      intro other j _ at_
      rw [here] at at_
      simp only [ReaderPc.test.injEq, reduceCtorEq, or_false] at at_
      exact .inr ⟨i + 1, .inl (by rw [at_.1])⟩
  | chosen k reader message i found here inside differs =>
      refine settled_moved settled found (by simp) ?_ (by simp)
      intro other j _ at_
      rw [here] at at_
      simp only [ReaderPc.test.injEq, reduceCtorEq, or_false] at at_
      exact .inr ⟨i, .inr (by rw [at_.1])⟩
  | finished k reader message i found here past =>
      refine settled_moved settled found (by simp) ?_ (by simp)
      intro other j _ at_
      rw [here] at at_
      simp only [ReaderPc.test.injEq, reduceCtorEq, or_false] at at_
      exact .inl (by rw [at_.1]; exact List.mem_singleton_self _)
  | sent k reader message i found here =>
      refine settled_moved settled found (by simp) ?_ (by simp)
      intro other j _ at_
      rw [here] at at_
      simp only [ReaderPc.send.injEq, reduceCtorEq, false_or] at at_
      exact .inr ⟨i + 1, .inl (by rw [at_.1])⟩

theorem settled_run {beyond : Nat → Int} {arrays : Nat → Memory BUFSIZ × Memory BUFSIZ}
    {events : List Event} {room : Room} {calls : List Call}
    (ok : Along step RoomOk (start beyond arrays) events)
    (ran : exec step (start beyond arrays) events = some (room, calls)) :
    Settled (served calls) room.server := by
  have kept := Machine.exec_invariant_along
    (fun calls room => Inv calls room ∧ Settled (served calls) room.server)
    (fun before room event next made holds ok taken => by
      have turn := turn_of_step taken
      refine ⟨inv_turn holds.1 ok turn, ?_⟩
      rw [served_append]
      cases turn with
      | typed c input keyboard made going goes =>
          rw [served_key, List.append_nil]
          exact holds.2
      | served event client server made got went =>
          have stepped := ChatServer.turn_of_step went
          have fetched := fetched_of_fetch holds.1.chat holds.1.held got stepped
          rw [served_server]
          refine settled_turn holds.2 ?_ stepped
          rintro k rfl
          cases fetched with
          | quiet _ other => exact other k _ rfl
          | got _ data up more read => exact more rfl
      | ended c down going got =>
          have none : served [] = [] := rfl
          rw [none, List.append_nil]
          exact holds.2
      | printed c data down rcvBuffer going more got =>
          have none : served [.printed c data (CBuffer.cstring data)] = [] := rfl
          rw [none, List.append_nil]
          exact holds.2)
    ⟨inv_start beyond arrays, by simp [start, ChatServer.start], by simp [served]⟩ ok ran
  exact kept.2

/-! The room at rest. -/

section Rest

variable {calls : List Call} {room : Room}

theorem step_server {event : ChatServer.Event} {client : Nat → Client} {server : Server}
    {made : List ChatServer.Call} (got : fetch room event = some client)
    (taken : ChatServer.step room.server event = some (server, made)) :
    step room (.server event) = some
      ({ server := server
         client := hangUp server (made.foldl (deliver server.accepted) client) },
        made.map .server) := by
  simp only [step, got, taken]

theorem reading_of_rest (settled : Settled (served calls) room.server)
    (going : room.server.pc ≠ .exited) (rest : AtRest room) {k : Nat} {reader : Reader}
    (found : room.server.readers[k]? = some reader) : reader.pc = .reading := by
  cases here : reader.pc with
  | reading => rfl
  | ended => exact absurd here (settled.alive k reader found)
  | test message i =>
      have taken : ChatServer.step room.server (.test k) =
          some (ChatServer.testEntry room.server k reader message i) := by
        simp [ChatServer.step, going, found, here]
      have stuck := rest (.server (.test k)) trivial
      rw [step_server rfl taken] at stuck
      contradiction
  | send message i =>
      have taken : ChatServer.step room.server (.write k) = some
          (ChatServer.setReader room.server k reader (.test message (i + 1)),
            [.write i (room.server.sockConnect i) message
              (room.server.seenEnd (room.server.sockConnect i))]) := by
        simp [ChatServer.step, going, found, here]
      have stuck := rest (.server (.write k)) trivial
      rw [step_server rfl taken] at stuck
      contradiction

theorem read_byte {link : Link UInt8} {byte : UInt8} {rest : Bytes}
    (arriving : link.arriving = byte :: rest) :
    link.read BUFSIZ (some [byte]) = some (link.take 1) := by
  simp [Link.read, arriving, BUFSIZ]

theorem heard_of_rest (inv : Inv calls room) (settled : Settled (served calls) room.server)
    (going : room.server.pc ≠ .exited) (rest : AtRest room) {d : Nat}
    (listening : d < room.server.readers.length) : (room.client d).up.arriving = [] := by
  cases arriving : (room.client d).up.arriving with
  | nil => rfl
  | cons byte others =>
      have found := List.getElem?_eq_getElem listening
      have reading := reading_of_rest settled going rest found
      have got : fetch room (.read d (.bytes [byte])) = some (Function.update room.client d
          { room.client d with up := (room.client d).up.take 1 }) := by
        simp only [fetch, speaker_of_found inv.chat found, bytesOf, read_byte arriving]
      have taken : ChatServer.step room.server (.read d (.bytes [byte])) = some
          (ChatServer.readSock room.server d room.server.readers[d] (.bytes [byte])) := by
        simp [ChatServer.step, going, found, reading]
      have stuck := rest (.server (.read d (.bytes [byte]))) (by simp [Inner, BUFSIZ])
      rw [step_server got taken] at stuck
      contradiction

theorem shown_of_rest (inv : Inv calls room) (going : room.server.pc ≠ .exited)
    (rest : AtRest room) (c : Nat) : (room.client c).down.arriving = [] := by
  cases arriving : (room.client c).down.arriving with
  | nil => rfl
  | cons byte others =>
      have reading := ((inv.clients c).going going).1
      have fits : [byte].length ≤ BUFSIZ := by simp [BUFSIZ]
      have stuck := rest (.display c [byte]) (by simp [Inner, BUFSIZ])
      simp only [step, dif_pos fits, if_pos reading, read_byte arriving] at stuck
      contradiction

theorem arriving_of_late (inv : Inv calls room) {c : Nat}
    (late : room.server.accepted.length ≤ c) : (room.client c).down.arriving = [] := by
  have none : inbox room.server.accepted (served calls) c = [] := by
    simp [inbox, List.getElem?_eq_none late]
  have sent := (inv.clients c).written
  have whole := (room.client c).down.whole (inv.held c).2.2
  rw [sent, none, List.flatMap_nil] at whole
  exact (List.append_eq_nil_iff.mp whole).2

theorem atRest_iff (inv : Inv calls room) (settled : Settled (served calls) room.server)
    (going : room.server.pc ≠ .exited) :
    AtRest room ↔ (∀ reader ∈ room.server.readers, reader.pc = .reading) ∧
      (∀ d < room.server.readers.length, (room.client d).up.arriving = []) ∧
      ∀ c < room.server.accepted.length, (room.client c).down.arriving = [] := by
  constructor
  · intro rest
    refine ⟨fun reader member => ?_, fun d => heard_of_rest inv settled going rest,
      fun c _ => shown_of_rest inv going rest c⟩
    obtain ⟨k, found⟩ := List.mem_iff_getElem?.mp member
    exact reading_of_rest settled going rest found
  · rintro ⟨reading, heard, shown⟩ event inner
    -- nothing is left to read, so the threads and the clients can only wait
    have quiet : ∀ c, (room.client c).down.arriving = [] := by
      intro c
      by_cases early : c < room.server.accepted.length
      · exact shown c early
      · exact arriving_of_late inv (Nat.not_lt.mp early)
    cases stepped : step room event with
    | none => rfl
    | some result =>
        obtain ⟨next, made⟩ := result
        exfalso
        cases turn_of_step stepped with
        | typed c input keyboard made going goes => exact inner
        | served event client server made got went =>
            have turn := ChatServer.turn_of_step went
            cases fetched_of_fetch inv.chat inv.held got turn with
            | got k data up more read =>
                obtain ⟨reader, found, _⟩ := thread_of_read turn
                have inside := (List.getElem?_eq_some_iff.mp found).choose
                have arriving := Link.read_arriving read
                rw [heard k inside] at arriving
                exact more (List.append_eq_nil_iff.mp arriving.symm).1
            | quiet _ other =>
                cases turn with
                | acceptFailed waiting => exact inner
                | accepted fd waiting valid fresh => exact inner
                | counted order socket stored own after => exact inner
                | created socket ready => exact inner
                | createFailed socket ready => exact inner
                | ended k reader found reading => exact other k _ rfl
                | received k reader result message found reading more sender number =>
                    exact other k result rfl
                | skipped k reader message i found here inside own =>
                    rw [reading reader (List.mem_of_getElem? found)] at here
                    contradiction
                | chosen k reader message i found here inside differs =>
                    rw [reading reader (List.mem_of_getElem? found)] at here
                    contradiction
                | finished k reader message i found here past =>
                    rw [reading reader (List.mem_of_getElem? found)] at here
                    contradiction
                | sent k reader message i found here =>
                    rw [reading reader (List.mem_of_getElem? found)] at here
                    contradiction
        | ended c down reads got => exact inv.unended going got
        | printed c data down rcvBuffer reads more got =>
            have arriving := Link.read_arriving got
            rw [quiet c] at arriving
            exact more (List.append_eq_nil_iff.mp arriving.symm).1

theorem count_of_readBy {calls : List ChatServer.Call} {d : Nat} {message : Message}
    (member : message ∈ readBy d calls) :
    message.sender = d ∧ ∃ count, ChatServer.Call.read message count ∈ calls := by
  obtain ⟨call, found, same⟩ := List.mem_filterMap.mp member
  cases call with
  | read other count =>
      simp only [Option.ite_none_right_eq_some, Option.some.injEq] at same
      obtain ⟨sender, rfl⟩ := same
      exact ⟨sender, count, found⟩
  | storeSock index fd => cases same
  | storeThread index => cases same
  | sawEnd reader => cases same
  | write entry fd other ended => cases same
  | finished other => cases same

end Rest

/-- When the room is at rest, a client that was counted before the first message
of another was read has been sent all that this one has typed, in order; and it
has read all that it was sent. -/
theorem rest_delivers (beyond : Nat → Int) (arrays : Nat → Memory BUFSIZ × Memory BUFSIZ)
    (events : List Event) (room : Room) (calls : List Call)
    (ok : Along step RoomOk (start beyond arrays) events)
    (ran : exec step (start beyond arrays) events = some (room, calls))
    (going : room.server.pc ≠ .exited) (rest : AtRest room) (c d : Nat) (differs : c ≠ d)
    (listening : d < room.server.readers.length)
    (early : ∀ message count, ChatServer.Call.read message count ∈ served calls →
      message.sender = d → c < count) :
    ((inbox room.server.accepted (served calls) c).filter
        (fun message => message.sender = d)).flatMap Message.data = events.flatMap (typedBy d) ∧
      readOf c calls = (inbox room.server.accepted (served calls) c).flatMap Message.data := by
  have inv := inv_run ok ran
  have settled := settled_run ok ran
  -- each message of the one is in the inbox of the other
  have complete : readBy d (served calls) ⊆
      (inbox room.server.accepted (served calls) c).filter
        (fun message => message.sender = d) := by
    intro message member
    obtain ⟨sender, count, read⟩ := count_of_readBy member
    have finished : ChatServer.Call.finished message ∈ served calls := by
      rcases settled.open_ message count read with done | ⟨reader, i, found, at_⟩
      · exact done
      · rw [reading_of_rest settled going rest found] at at_
        simp at at_
    obtain ⟨fd, entry, once⟩ := inv.chat.complete message count read finished c
      (early message count read sender) (sender ▸ differs)
    refine List.mem_filter.mpr ⟨?_, by simpa using sender⟩
    simp only [inbox, entry]
    exact List.count_pos_iff.mp (by omega)
  -- none is there twice, so the inbox has them all, in order
  have sub := inbox_sublist inv.chat c d
  have whole := sub.eq_of_length_le
    ((inv.distinct d).subperm complete).length_le
  constructor
  · rw [whole, ← typed_run ran d, ← (inv.clients d).heard]
    have all := (room.client d).up.whole (inv.held d).2.1
    rwa [heard_of_rest inv settled going rest listening, List.append_nil] at all
  · rw [← (inv.clients c).shown, ← (inv.clients c).written]
    have all := (room.client c).down.whole (inv.held c).2.2
    rwa [shown_of_rest inv going rest c, List.append_nil] at all

theorem rest_delivers_greeting :
    ∃ room calls, exec step (start (fun _ => 0) zeros) greeting = some (room, calls) ∧
      readOf 1 calls = (inbox room.server.accepted (served calls) 1).flatMap Message.data := by
  have whole : Machine.misses step RoomOk (start (fun _ => 0) zeros) greeting = 0 := by
    decide +kernel
  have threads : (exec step (start (fun _ => 0) zeros) greeting).map (fun result =>
      (result.1.server.pc, result.1.server.readers.map Reader.pc, result.1.server.accepted)) =
      some (.accepting, [.reading, .reading], [4, 5]) := by decide +kernel
  have links : (exec step (start (fun _ => 0) zeros) greeting).map (fun result =>
      ((result.1.client 0).up.arriving ++ (result.1.client 1).up.arriving,
        (result.1.client 0).down.arriving ++ (result.1.client 1).down.arriving)) =
      some ([], []) := by decide +kernel
  have did : (exec step (start (fun _ => 0) zeros) greeting).map (fun result =>
      served result.2) = some [.storeSock 0 4, .storeThread 0, .storeSock 1 5, .storeThread 1,
        .read ⟨0, 0, 3, [104, 105, 10]⟩ 2, .write 1 5 ⟨0, 0, 3, [104, 105, 10]⟩ false,
        .finished ⟨0, 0, 3, [104, 105, 10]⟩] := by decide +kernel
  have ok := (Machine.misses_zero_iff _ _).mp whole
  obtain ⟨⟨room, calls⟩, ran, shown⟩ := Option.map_eq_some_iff.mp threads
  rw [ran] at links did
  simp only [Prod.mk.injEq] at shown
  obtain ⟨pc, readers, accepted⟩ := shown
  simp only [Option.map_some, Option.some.injEq, Prod.mk.injEq, List.append_eq_nil_iff] at links
  obtain ⟨⟨up0, up1⟩, down0, down1⟩ := links
  have going : room.server.pc ≠ .exited := by rw [pc]; decide
  have two : room.server.readers.length = 2 := by simpa using congrArg List.length readers
  have rest : AtRest room := by
    refine (atRest_iff (inv_run ok ran) (settled_run ok ran) going).mpr ⟨?_, ?_, ?_⟩
    · intro reader member
      have listed := @List.mem_map_of_mem _ _ _ _ Reader.pc member
      rw [readers] at listed
      simpa using listed
    · rw [two]
      intro d small
      obtain rfl | rfl : d = 0 ∨ d = 1 := by omega
      · exact up0
      · exact up1
    · intro c small
      rw [accepted, List.length_cons, List.length_singleton] at small
      obtain rfl | rfl : c = 0 ∨ c = 1 := by omega
      · exact down0
      · exact down1
  refine ⟨room, calls, ran, (rest_delivers (fun _ => 0) zeros greeting room calls ok ran going rest
    1 0 (by decide) (by omega) fun message count read _ => ?_).2⟩
  have written : served calls = _ := Option.some.inj did
  rw [written] at read
  simp only [List.mem_cons, List.not_mem_nil, reduceCtorEq, ChatServer.Call.read.injEq,
    false_or, or_false] at read
  omega

/-! How it comes to rest. -/

/-- The steps that a thread has before it in its broadcast, and those by which
what it writes is shown. -/
def broadcastWork (userCnt : Nat) : ReaderPc → Nat
  | .test message i => 2 * (userCnt - i) + 1 + (userCnt - i) * message.data.length
  | .send message i => 2 * (userCnt - i) + (userCnt - i) * message.data.length
  | .reading => 0
  | .ended => 0

def threadWork (server : Server) (k : Nat) : Nat :=
  match server.readers[k]? with
  | none => 0
  | some reader => broadcastWork server.userCnt reader.pc

/-- A byte that is still to be read by the server may be a message of its own. -/
def work (room : Room) : Nat :=
  (3 * room.server.userCnt + 2) *
      (∑ d ∈ Finset.range room.server.readers.length, (room.client d).up.arriving.length) +
    (∑ k ∈ Finset.range room.server.readers.length, threadWork room.server k) +
    ∑ c ∈ Finset.range room.server.accepted.length, (room.client c).down.arriving.length

theorem sum_moved {n c : Nat} {f g : Nat → Nat} (inside : c < n)
    (same : ∀ d, d ≠ c → g d = f d) :
    (∑ d ∈ Finset.range n, g d) + f c = (∑ d ∈ Finset.range n, f d) + g c := by
  have member : c ∈ Finset.range n := Finset.mem_range.mpr inside
  rw [← Finset.add_sum_erase _ g member, ← Finset.add_sum_erase _ f member]
  have others : ∑ d ∈ (Finset.range n).erase c, g d = ∑ d ∈ (Finset.range n).erase c, f d :=
    Finset.sum_congr rfl fun d mem => same d (Finset.ne_of_mem_erase mem)
  omega

theorem threadWork_moved {server : Server} {k count : Nat} {reader : Reader} {pc : ReaderPc}
    (found : server.readers[k]? = some reader) :
    (∑ j ∈ Finset.range server.readers.length,
          threadWork { ChatServer.setReader server k reader pc with messages := count } j) +
        broadcastWork server.userCnt reader.pc =
      (∑ j ∈ Finset.range server.readers.length, threadWork server j) +
        broadcastWork server.userCnt pc := by
  have inside := (List.getElem?_eq_some_iff.mp found).choose
  have old : threadWork server k = broadcastWork server.userCnt reader.pc := by
    simp only [threadWork, found]
  have new : threadWork { ChatServer.setReader server k reader pc with messages := count } k =
      broadcastWork server.userCnt pc := by
    simp only [threadWork, ChatServer.setReader, List.getElem?_set_self inside]
  rw [← old, ← new]
  apply sum_moved inside
  intro j other
  simp only [threadWork, ChatServer.setReader, List.getElem?_set_ne (Ne.symm other)]

theorem sizes_moved {server next : Server} {k count : Nat} {reader : Reader} {pc : ReaderPc}
    (moved : next = { ChatServer.setReader server k reader pc with messages := count }) :
    next.readers.length = server.readers.length ∧ next.userCnt = server.userCnt ∧
      next.accepted = server.accepted := by
  rw [moved]
  exact ⟨List.length_set, rfl, rfl⟩

theorem arriving_written {before after : Client} {data : Bytes}
    (written : Written before after data) (held : before.down.broken = false) :
    after.down.arriving.length = before.down.arriving.length + data.length := by
  have old := congrArg List.length (before.down.whole held)
  have new := congrArg List.length (after.down.whole (written.broken.trans held))
  rw [written.sent held, written.taken] at new
  simp only [List.length_append] at old new
  omega

theorem work_moved {room next : Room} {k count : Nat} {reader : Reader} {pc : ReaderPc}
    (found : room.server.readers[k]? = some reader)
    (moved : next.server = { ChatServer.setReader room.server k reader pc with messages := count })
    (up : ∀ d, (next.client d).up.arriving = (room.client d).up.arriving) :
    work next + broadcastWork room.server.userCnt reader.pc +
        (∑ c ∈ Finset.range room.server.accepted.length,
          (room.client c).down.arriving.length) =
      work room + broadcastWork room.server.userCnt pc +
        ∑ c ∈ Finset.range room.server.accepted.length,
          (next.client c).down.arriving.length := by
  have threads := @threadWork_moved room.server k count reader pc found
  obtain ⟨length, users, accepted⟩ := sizes_moved moved
  rw [← moved] at threads
  simp only [work, length, users, accepted, up]
  omega

theorem broadcastWork_next {userCnt i : Nat} {message : Message} (inside : i < userCnt) :
    broadcastWork userCnt (.test message (i + 1)) + 1 + message.data.length ≤
      broadcastWork userCnt (.send message i) := by
  have left : userCnt - i = userCnt - (i + 1) + 1 := by omega
  simp only [broadcastWork]
  rw [left, Nat.add_mul, Nat.one_mul]
  omega

theorem broadcastWork_chosen (userCnt i : Nat) (message : Message) :
    broadcastWork userCnt (.test message i) = broadcastWork userCnt (.send message i) + 1 := by
  simp only [broadcastWork]
  omega

theorem broadcastWork_first (userCnt : Nat) (message : Message) (more : message.data ≠ []) :
    broadcastWork userCnt (.test message 0) + 1 ≤ (3 * userCnt + 2) * message.data.length := by
  -- the tests and writes of a broadcast are paid for by its first byte
  have some_ : 0 < message.data.length := List.length_pos_of_ne_nil more
  have first : 2 * userCnt + 2 ≤ (2 * userCnt + 2) * message.data.length :=
    Nat.le_mul_of_pos_right _ some_
  have parts : (3 * userCnt + 2) * message.data.length =
      (2 * userCnt + 2) * message.data.length + userCnt * message.data.length := by
    rw [← Nat.add_mul]
    congr 1
    omega
  simp only [broadcastWork, Nat.sub_zero]
  omega

theorem down_sent {calls : List Call} {room : Room} (inv : Inv calls room) {i : Nat}
    {message : Message} {ended : Bool} {server : Server} (inside : i < room.server.userCnt)
    (same : server.accepted = room.server.accepted) :
    (∑ c ∈ Finset.range room.server.accepted.length,
        (hangUp server ([ChatServer.Call.write i (room.server.sockConnect i) message ended].foldl
          (deliver server.accepted) room.client) c).down.arriving.length) =
      (∑ c ∈ Finset.range room.server.accepted.length,
        (room.client c).down.arriving.length) + message.data.length := by
  have entry := ChatServer.entry_of_inside inv.chat inside
  have bound := (List.getElem?_eq_some_iff.mp entry).choose
  have written := fun c => arriving_written
    (written_step server room.client
      [.write i (room.server.sockConnect i) message ended] c).1 (inv.held c).2.2
  have here : inbox server.accepted
      [.write i (room.server.sockConnect i) message ended] i = [message] := by
    simp [inbox, same, entry]
  -- the accepted descriptors differ, so one client gets the message
  have others : ∀ c, c ≠ i → inbox server.accepted
      [.write i (room.server.sockConnect i) message ended] c = [] := by
    intro c other
    apply inbox_silent
    intro fd found
    rw [same] at found
    rw [ChatServer.received_write, if_neg]
    rintro rfl
    obtain ⟨inside, at_⟩ := List.getElem?_eq_some_iff.mp found
    obtain ⟨_, first⟩ := List.getElem?_eq_some_iff.mp entry
    exact other ((inv.chat.unique.getElem_inj_iff ..).mp (at_.trans first.symm))
  have moved := @sum_moved _ i
    (fun c => (room.client c).down.arriving.length)
    (fun c => (hangUp server ([ChatServer.Call.write i (room.server.sockConnect i) message
      ended].foldl (deliver server.accepted) room.client) c).down.arriving.length) bound
    (fun c other => by
      have grown := written c
      rw [others c other] at grown
      exact grown)
  have grown := written i
  rw [here, List.flatMap_singleton] at grown
  omega

theorem work_quiet {calls : List Call} {room : Room} (inv : Inv calls room) {k : Nat}
    {reader : Reader} (found : room.server.readers[k]? = some reader) (pc : ReaderPc)
    {made : List ChatServer.Call} (silent : ∀ fd, received fd made = []) {server : Server}
    (moved : server = ChatServer.setReader room.server k reader pc) :
    work { server := server
           client := hangUp server (made.foldl (deliver server.accepted) room.client) } +
        broadcastWork room.server.userCnt reader.pc =
      work room + broadcastWork room.server.userCnt pc := by
  have written := fun c => (written_step server room.client made c).1
  have none : ∀ c, inbox server.accepted made c = [] := by
    intro c
    unfold inbox
    split
    · rfl
    · exact silent _
  have down : ∀ c,
      (hangUp server (made.foldl (deliver server.accepted) room.client) c).down.arriving.length =
        (room.client c).down.arriving.length := by
    intro c
    have grown := arriving_written (written c) (inv.held c).2.2
    rwa [none c] at grown
  have sums := @work_moved room
    { server := server
      client := hangUp server (made.foldl (deliver server.accepted) room.client) }
    k _ reader pc found moved (fun d => by rw [(written d).up])
  simp only [down] at sums
  exact Nat.add_right_cancel sums

theorem work_sent {calls : List Call} {room : Room} (inv : Inv calls room) {k i : Nat}
    {reader : Reader} {message : Message} {ended : Bool}
    (found : room.server.readers[k]? = some reader) (here : reader.pc = .send message i)
    (inside : i < room.server.userCnt) {server : Server}
    (moved : server = ChatServer.setReader room.server k reader (.test message (i + 1))) :
    work { server := server
           client := hangUp server ([ChatServer.Call.write i (room.server.sockConnect i) message
             ended].foldl (deliver server.accepted) room.client) } + 1 ≤
      work room := by
  have down := @down_sent calls room inv i message ended server inside (by rw [moved]; rfl)
  have sums := @work_moved room
    { server := server
      client := hangUp server ([ChatServer.Call.write i (room.server.sockConnect i) message
        ended].foldl (deliver server.accepted) room.client) }
    k _ reader (.test message (i + 1)) found moved
    (fun d => by rw [(written_step server room.client _ d).1.up])
  have less := @broadcastWork_next room.server.userCnt i message inside
  rw [here] at sums
  simp only [down] at sums
  omega

theorem links_read (room : Room) (k : Nat) (link : Link UInt8) (d : Nat) :
    (Function.update room.client k { room.client k with up := link } d).up =
        (if d = k then link else (room.client d).up) ∧
      (Function.update room.client k { room.client k with up := link } d).down =
        (room.client d).down := by
  by_cases own : d = k
  · subst own
    rw [Function.update_self, if_pos rfl]
    exact ⟨rfl, rfl⟩
  · rw [Function.update_of_ne own, if_neg own]
    exact ⟨rfl, rfl⟩

/-- A `read` of the server: the new message is no more work than its bytes were. -/
theorem work_read {room next : Room} {k count : Nat} {reader : Reader} {message : Message}
    {link : Link UInt8} (found : room.server.readers[k]? = some reader)
    (reading : reader.pc = .reading) (more : message.data ≠ [])
    (read : (room.client k).up.read BUFSIZ (some message.data) = some link)
    (moved : next.server =
      { ChatServer.setReader room.server k reader (.test message 0) with messages := count })
    (up : ∀ d, (next.client d).up = if d = k then link else (room.client d).up)
    (down : ∀ c, (next.client c).down.arriving.length = (room.client c).down.arriving.length) :
    work next + 1 ≤ work room := by
  have inside := (List.getElem?_eq_some_iff.mp found).choose
  have threads := @threadWork_moved room.server k count reader (.test message 0) found
  have heard := @sum_moved _ k (fun d => (room.client d).up.arriving.length)
    (fun d => (next.client d).up.arriving.length) inside
    (fun d other => by rw [up, if_neg other])
  have first := broadcastWork_first room.server.userCnt message more
  have here : (room.client k).up.arriving.length =
      message.data.length + (next.client k).up.arriving.length := by
    rw [up, if_pos rfl, Link.read_arriving read, List.length_append]
  have total : (∑ d ∈ Finset.range room.server.readers.length,
      (room.client d).up.arriving.length) =
        (∑ d ∈ Finset.range room.server.readers.length,
          (next.client d).up.arriving.length) + message.data.length := by
    omega
  obtain ⟨length, users, accepted⟩ := sizes_moved moved
  have idle : broadcastWork room.server.userCnt reader.pc = 0 := by rw [reading]; rfl
  rw [← moved, idle] at threads
  simp only [work, length, users, accepted, down]
  rw [total, Nat.mul_add]
  omega

/-- Each step of the server by itself leaves less to be done. -/
theorem work_served {calls : List Call} {room : Room} {event : ChatServer.Event}
    {client : Nat → Client} {server : Server} {made : List ChatServer.Call}
    (inv : Inv calls room) (inner : Inner (.server event))
    (got : fetch room event = some client)
    (taken : ChatServer.step room.server event = some (server, made)) :
    server.pc = room.server.pc ∧
      work { server := server
             client := hangUp server (made.foldl (deliver server.accepted) client) } + 1 ≤
        work room := by
  have turn := ChatServer.turn_of_step taken
  have written := fun c => (written_step server client made c).1
  cases fetched_of_fetch inv.chat inv.held got turn with
  | got k data link more read =>
      have heard := read_made more taken k
      cases turn with
      | ended _ reader found reading => exact absurd rfl more
      | received _ reader result message found reading _ sender number =>
          have same : message.data = data := by simpa [readBy, sender] using heard
          subst same
          refine ⟨rfl, ?_⟩
          refine @work_read room _ k _ reader message link found reading more read rfl ?_ ?_
          · intro d
            rw [(written d).up, (links_read room k link d).1]
          · intro c
            have same := (links_read room k link c).2
            have grown := arriving_written (written c) (by rw [same]; exact (inv.held c).2.2)
            rwa [inbox_silent _ _ _ fun _ _ => rfl, same] at grown
  | quiet _ other =>
      cases turn with
      | acceptFailed waiting => exact absurd inner id
      | accepted fd waiting valid fresh => exact absurd inner id
      | counted order socket stored own after => exact absurd inner id
      | created socket ready => exact absurd inner id
      | createFailed socket ready => exact absurd inner id
      | ended k reader found reading => exact absurd rfl (other k _)
      | received k reader result message found reading more sender number =>
          exact absurd rfl (other k result)
      | skipped k reader message i found here inside own =>
          have sums := @work_quiet calls room inv k reader found (.test message (i + 1)) []
            (fun _ => rfl) _ rfl
          have less := @broadcastWork_next room.server.userCnt i message inside
          have chosen := broadcastWork_chosen room.server.userCnt i message
          rw [here] at sums
          exact ⟨rfl, by omega⟩
      | chosen k reader message i found here inside differs =>
          have sums := @work_quiet calls room inv k reader found (.send message i) []
            (fun _ => rfl) _ rfl
          have chosen := broadcastWork_chosen room.server.userCnt i message
          rw [here] at sums
          exact ⟨rfl, by omega⟩
      | finished k reader message i found here past =>
          have sums := @work_quiet calls room inv k reader found .reading
            [.finished message] (fun _ => rfl) _ rfl
          have chosen := broadcastWork_chosen room.server.userCnt i message
          have idle : broadcastWork room.server.userCnt .reading = 0 := rfl
          rw [here] at sums
          exact ⟨rfl, by omega⟩
      | sent k reader message i found here =>
          have walking := inv.chat.readers k reader found
          rw [ChatServer.ReaderInv, here] at walking
          exact ⟨rfl, work_sent inv found here walking.2.1 rfl⟩

theorem work_printed {calls : List Call} {room next : Room} (inv : Inv calls room) {c : Nat}
    {data : Bytes} {down : Link UInt8} (more : data ≠ [])
    (got : (room.client c).down.read BUFSIZ (some data) = some down)
    (server : next.server = room.server) (up : ∀ d, (next.client d).up = (room.client d).up)
    (here : (next.client c).down = down) (others : ∀ d, d ≠ c → next.client d = room.client d) :
    work next + 1 ≤ work room := by
  have arriving := Link.read_arriving got
  have early : c < room.server.accepted.length := by
    by_contra late
    rw [arriving_of_late inv (Nat.not_lt.mp late)] at arriving
    exact more (List.append_eq_nil_iff.mp arriving.symm).1
  have some_ : 0 < data.length := List.length_pos_of_ne_nil more
  have shown := @sum_moved _ c (fun d => (room.client d).down.arriving.length)
    (fun d => (next.client d).down.arriving.length) early (fun d other => by rw [others d other])
  have fewer : (room.client c).down.arriving.length =
      data.length + (next.client c).down.arriving.length := by
    rw [here, arriving, List.length_append]
  simp only [work, up, server]
  omega

theorem work_turn {calls made : List Call} {room next : Room} {event : Event}
    (inv : Inv calls room) (going : room.server.pc ≠ .exited) (inner : Inner event)
    (turn : Turn room event next made) :
    next.server.pc ≠ .exited ∧ work next + 1 ≤ work room := by
  cases turn with
  | typed c input keyboard made _ goes => exact absurd inner id
  | served event client server made got taken =>
      obtain ⟨same, less⟩ := work_served inv inner got taken
      exact ⟨same ▸ going, less⟩
  | ended c down reads got => exact (inv.unended going got).elim
  | printed c data down rcvBuffer reads more got =>
      refine ⟨going, work_printed inv more got rfl (fun d => ?_) ?_ fun d other => ?_⟩
      · by_cases own : d = c
        · subst own
          rw [set_self]
        · rw [set_other _ _ own]
      · rw [set_self]
      · rw [set_other _ _ other]

theorem roomOk_of_inner (room : Room) {event : Event} (inner : Inner event) :
    RoomOk room event := by
  cases event with
  | key c input => trivial
  | display c data => exact inner
  | server event =>
      cases event with
      | read k result =>
          cases result with
          | bytes data => exact inner
          | error => trivial
      | accept result => exact absurd inner id
      | count order => exact absurd inner id
      | create => trivial
      | createFails => trivial
      | test k => trivial
      | write k => trivial

/-- From every room that can be reached: where nothing more is typed and nobody
connects, only so many steps are left, and one is possible until the room is at
rest. -/
theorem room_settles (beyond : Nat → Int) (arrays : Nat → Memory BUFSIZ × Memory BUFSIZ)
    (events : List Event) (room : Room) (calls : List Call)
    (ok : Along step RoomOk (start beyond arrays) events)
    (ran : exec step (start beyond arrays) events = some (room, calls))
    (going : room.server.pc ≠ .exited) :
    Endings.Ends step (fun _ => True) Inner (fun _ => True) AtRest room := by
  refine Endings.ends_of_measure
    (fun room => room.server.pc ≠ .exited ∧ ∃ calls, Inv calls room) work ?_ ?_
    ⟨going, calls, inv_run ok ran⟩
  · rintro room event next made ⟨going, calls, inv⟩ only taken
    have inner := only trivial
    have turn := turn_of_step taken
    obtain ⟨still, less⟩ := work_turn inv going inner turn
    exact ⟨⟨still, calls ++ made, inv_turn inv (roomOk_of_inner room inner) turn⟩,
      fun _ _ => trivial, less⟩
  · intro room _
    by_cases rest : AtRest room
    · exact .inl rest
    · right
      simp only [AtRest, not_forall] at rest
      obtain ⟨event, inner, possible⟩ := rest
      exact ⟨event, trivial, inner, Option.isSome_iff_ne_none.mpr possible⟩

theorem room_settles_greeting :
    ∃ room calls, exec step (start (fun _ => 0) zeros) (greeting.take 8) = some (room, calls) ∧
      Endings.Ends step (fun _ => True) Inner (fun _ => True) AtRest room := by
  have whole : Machine.misses step RoomOk (start (fun _ => 0) zeros) (greeting.take 8) = 0 := by
    decide +kernel
  have result : (exec step (start (fun _ => 0) zeros) (greeting.take 8)).map
      (fun result => result.1.server.pc) = some .accepting := by decide +kernel
  obtain ⟨⟨room, calls⟩, ran, pc⟩ := Option.map_eq_some_iff.mp result
  refine ⟨room, calls, ran, room_settles (fun _ => 0) zeros (greeting.take 8) room calls
    ((Machine.misses_zero_iff _ _).mp whole) ran ?_⟩
  rw [pc]
  decide

end NetworkTest.ChatRoom
