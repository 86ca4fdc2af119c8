import NetworkTest.ChatServer
import NetworkTest.TalkServer

/-!
The tables of the two thread-per-connection servers. `user_cnt` and `thr_id`
count connections and are never lowered, so a store is inside its array
exactly as long as few connections have been accepted, open or not. Nor is an
entry of `sock_connect` ever given back: a broadcast meets every connection
from its index on, ended or not.
-/

namespace NetworkTest.ChatServer

open Descriptors (ReadResult)
open Machine (Step exec Along)

def StoreInside : Call → Prop
  | .storeSock index _ => index < MAX_USER
  | .storeThread index => index < MAX_THREAD_SIZE
  | _ => True

def WriteOpen : Call → Prop
  | .write _ _ _ ended => ended = false
  | _ => True

/-- Fewer than `MAX_USER` connections have been accepted before. -/
def FewConnections (server : Server) : Event → Prop
  | .accept _ => server.accepted.length < MAX_USER
  | _ => True

/-- No entry from `i` on belongs to a connection whose reader has seen the
end, the walker's own apart. -/
def Ahead (server : Server) (socket : Int) (i : Nat) : Prop :=
  ∀ j < server.userCnt, i ≤ j → server.seenEnd (server.sockConnect j) = true →
    server.sockConnect j = socket

/-- No broadcast of another thread has still to come by the entry of the
connection. -/
def Passed (server : Server) (socket : Int) : Prop :=
  ∀ walker ∈ server.readers, ∀ i ∈ walker.pc.index, ∀ j < server.userCnt, i ≤ j →
    server.sockConnect j = socket → socket = walker.socket

/-- A message is read only while no other counted connection has ended; a
connection ends only when no broadcast has still to come by its entry. -/
def NoneGone (server : Server) : Event → Prop
  | .read k result =>
      ∀ reader ∈ server.readers[k]?,
        if result = .bytes [] then Passed server reader.socket else Ahead server reader.socket 0
  | _ => True

instance (server : Server) (socket : Int) (i : Nat) : Decidable (Ahead server socket i) :=
  inferInstanceAs (Decidable (∀ j < server.userCnt, _))

instance (server : Server) (socket : Int) : Decidable (Passed server socket) :=
  inferInstanceAs (Decidable (∀ walker ∈ server.readers, _))

instance (server : Server) : (event : Event) → Decidable (FewConnections server event)
  | .accept _ => inferInstanceAs (Decidable (server.accepted.length < MAX_USER))
  | .count _ => isTrue trivial
  | .create => isTrue trivial
  | .createFails => isTrue trivial
  | .read _ _ => isTrue trivial
  | .test _ => isTrue trivial
  | .write _ => isTrue trivial

instance (server : Server) : (event : Event) → Decidable (NoneGone server event)
  | .read k result => inferInstanceAs (Decidable (∀ reader ∈ server.readers[k]?,
      if result = .bytes [] then Passed server reader.socket else Ahead server reader.socket 0))
  | .accept _ => isTrue trivial
  | .count _ => isTrue trivial
  | .create => isTrue trivial
  | .createFails => isTrue trivial
  | .test _ => isTrue trivial
  | .write _ => isTrue trivial

/-! The stores. -/

def Occupied (server : Server) : Prop :=
  match server.pc with
  | .accepting => server.userCnt = server.accepted.length
  | .counting => server.userCnt + 1 = server.accepted.length ∧ server.userCnt < MAX_USER
  | .creating _ => server.userCnt = server.accepted.length
  | .exited => True

theorem occupied_turn {server next : Server} {event : Event} {made : List Call}
    (occupied : Occupied server) (few : FewConnections server event)
    (turn : Turn server event next made) : Occupied next := by
  cases turn with
  | acceptFailed waiting => trivial
  | accepted fd waiting valid fresh =>
      simp only [Occupied, waiting] at occupied
      exact ⟨by simp [occupied], occupied ▸ few⟩
  | counted order socket stored own after =>
      simp only [Occupied, stored] at occupied
      exact occupied.1
  | created socket ready =>
      simp only [Occupied, ready] at occupied
      exact occupied
  | createFailed socket ready => trivial
  | _ => exact occupied

theorem stores_turn {server next : Server} {event : Event} {made : List Call}
    (occupied : Occupied server) (turn : Turn server event next made) :
    (∀ call ∈ made, StoreInside call) ↔ FewConnections server event := by
  cases turn with
  | acceptFailed waiting =>
      simp only [Occupied, waiting] at occupied
      simp [StoreInside, FewConnections, occupied]
  | accepted fd waiting valid fresh =>
      simp only [Occupied, waiting] at occupied
      simp [StoreInside, FewConnections, occupied]
  | counted order socket stored own after =>
      simp only [Occupied, stored] at occupied
      have room : server.userCnt < MAX_THREAD_SIZE := occupied.2
      simpa [StoreInside, FewConnections] using room
  | _ => simp [StoreInside, FewConnections]

theorem stores_inside_iff {beyond : Nat → Int} {events : List Event} {server : Server}
    {calls : List Call} (ran : exec step (start beyond) events = some (server, calls)) :
    (∀ call ∈ calls, StoreInside call) ↔ Along step FewConnections (start beyond) events := by
  have occupied : Occupied (start beyond) := rfl
  apply Machine.calls_good_iff_along StoreInside Occupied _ _ occupied ran
  · exact fun _ _ _ _ occupied few taken => occupied_turn occupied few (turn_of_step taken)
  · exact fun _ _ _ _ occupied taken => stores_turn occupied (turn_of_step taken)

/-! The writes. -/

/-- What a thread can have been given to read from. -/
def Known (server : Server) (socket : Int) : Prop :=
  socket ∈ server.accepted ∨ socket = 0 ∨ MAX_USER ≤ server.userCnt

structure Clear (server : Server) : Prop where
  occupied : Occupied server
  positive : ∀ fd ∈ server.accepted, 0 < fd
  unset : server.pc ≠ .exited → ∀ j, server.accepted.length ≤ j → j < MAX_USER →
    server.sockConnect j = 0
  stored : server.pc = .counting → server.sockConnect server.userCnt ∈ server.accepted ∧
    ∀ reader ∈ server.readers, reader.socket ≠ server.sockConnect server.userCnt
  known : ∀ reader ∈ server.readers, Known server reader.socket
  handed : ∀ socket, server.pc = .creating socket → Known server socket
  ahead : ∀ reader ∈ server.readers, ∀ i ∈ reader.pc.index, Ahead server reader.socket i
  chosen : ∀ reader ∈ server.readers, ∀ message i, reader.pc = .send message i →
    i < server.userCnt ∧ reader.socket ≠ server.sockConnect i

theorem seenEnd_iff (server : Server) (fd : Int) :
    server.seenEnd fd = true ↔
      ∃ reader ∈ server.readers, reader.socket = fd ∧ reader.pc = .ended := by
  simp [Server.seenEnd]

theorem seenEnd_of_setReader {server : Server} {k : Nat} {reader : Reader} {pc : ReaderPc}
    {fd : Int} (seen : (setReader server k reader pc).seenEnd fd = true) :
    server.seenEnd fd = true ∨ (pc = .ended ∧ fd = reader.socket) := by
  obtain ⟨other, member, own, ended⟩ := (seenEnd_iff ..).mp seen
  rcases List.mem_or_eq_of_mem_set member with old | rfl
  · exact .inl ((seenEnd_iff ..).mpr ⟨other, old, own, ended⟩)
  · exact .inr ⟨ended, own.symm⟩

theorem ahead_next {server : Server} {socket : Int} {i : Nat} (ahead : Ahead server socket i) :
    Ahead server socket (i + 1) :=
  fun j small above => ahead j small (Nat.le_of_succ_le above)

theorem ahead_here {server : Server} {k i : Nat} {reader : Reader} (clear : Clear server)
    (found : server.readers[k]? = some reader) (here : i ∈ reader.pc.index) :
    Ahead server reader.socket i :=
  clear.ahead reader (List.mem_of_getElem? found) i here

theorem clear_moved {server : Server} {k count : Nat} {reader : Reader} {pc : ReaderPc}
    (clear : Clear server) (found : server.readers[k]? = some reader)
    (passed : pc = .ended → Passed server reader.socket)
    (ahead : ∀ i ∈ pc.index, Ahead server reader.socket i)
    (chosen : ∀ message i, pc = .send message i →
      i < server.userCnt ∧ reader.socket ≠ server.sockConnect i) :
    Clear { setReader server k reader pc with messages := count } := by
  have thread := List.mem_of_getElem? found
  have split : ∀ other ∈ server.readers.set k { reader with pc := pc },
      other ∈ server.readers ∨ other = { reader with pc := pc } :=
    fun other member => List.mem_or_eq_of_mem_set member
  constructor
  case occupied => exact clear.occupied
  case positive => exact clear.positive
  case unset => exact clear.unset
  case stored =>
      intro counting
      obtain ⟨member, differs⟩ := clear.stored counting
      refine ⟨member, fun other entry => ?_⟩
      rcases split other entry with old | rfl
      · exact differs other old
      · exact differs reader thread
  case known =>
      intro other entry
      rcases split other entry with old | rfl
      · exact clear.known other old
      · exact clear.known reader thread
  case handed => exact clear.handed
  case ahead =>
      intro other entry i here j small above seen
      rcases split other entry with old | rfl
      · rcases seenEnd_of_setReader seen with before | ⟨ended, now⟩
        · exact clear.ahead other old i here j small above before
        -- every broadcast has passed the entry of the thread that ends
        · exact now.trans (passed ended other old i here j small above now)
      · rcases seenEnd_of_setReader seen with before | ⟨rfl, _⟩
        · exact ahead i here j small above before
        · cases here
  case chosen =>
      intro other entry message i here
      rcases split other entry with old | rfl
      · exact clear.chosen other old message i here
      · exact chosen message i here

theorem known_ne_fresh {server : Server} {socket fd : Int} (known : Known server socket)
    (few : server.userCnt < MAX_USER) (valid : 0 < fd) (fresh : fd ∉ server.accepted) :
    socket ≠ fd := by
  rintro rfl
  rcases known with old | zero | full
  · exact fresh old
  · omega
  · omega

theorem ahead_store {server : Server} (clear : Clear server) (fd : Int) :
    ∀ reader ∈ server.readers, ∀ i ∈ reader.pc.index,
      Ahead { server with
        sockConnect := Function.update server.sockConnect server.userCnt fd } reader.socket i := by
  intro reader entry i here j small above seen
  have same : Function.update server.sockConnect server.userCnt fd j = server.sockConnect j :=
    Function.update_of_ne (Nat.ne_of_lt small) ..
  simp only [same] at seen ⊢
  exact clear.ahead reader entry i here j small above seen

theorem chosen_store {server : Server} (clear : Clear server) (fd : Int) :
    ∀ reader ∈ server.readers, ∀ message i, reader.pc = .send message i →
      i < server.userCnt ∧
        reader.socket ≠ Function.update server.sockConnect server.userCnt fd i := by
  intro reader entry message i here
  obtain ⟨inside, other⟩ := clear.chosen reader entry message i here
  rw [Function.update_of_ne (Nat.ne_of_lt inside)]
  exact ⟨inside, other⟩

theorem clear_accepted {server : Server} (clear : Clear server) {fd : Int}
    (waiting : server.pc = .accepting) (valid : 0 < fd) (fresh : fd ∉ server.accepted)
    (few : server.accepted.length < MAX_USER) :
    Clear { server with
      sockConnect := Function.update server.sockConnect server.userCnt fd
      accepted := server.accepted ++ [fd]
      pc := .counting } := by
  have count := clear.occupied
  simp only [Occupied, waiting] at count
  constructor
  case occupied => simp [Occupied, count, few]
  case positive =>
      intro other member
      rcases List.mem_append.mp member with old | new
      · exact clear.positive other old
      · exact List.mem_singleton.mp new ▸ valid
  case unset =>
      intro _ j beyond inside
      simp only [List.length_append, List.length_singleton] at beyond
      have other : j ≠ server.userCnt := by omega
      exact (Function.update_of_ne other ..).trans
        (clear.unset (by simp [waiting]) j (by omega) inside)
  case stored =>
      intro _
      simp only [Function.update_self]
      refine ⟨List.mem_append_right _ (List.mem_singleton_self _), ?_⟩
      intro reader entry
      exact known_ne_fresh (clear.known reader entry) (count ▸ few) valid fresh
  case known =>
      intro reader entry
      exact Or.imp_left (List.mem_append_left _) (clear.known reader entry)
  case handed => exact fun socket ready => nomatch ready
  case ahead => exact ahead_store clear fd
  case chosen => exact chosen_store clear fd

theorem clear_counted {server : Server} (clear : Clear server) {order : ArgOrder} {socket : Int}
    (stored : server.pc = .counting)
    (own : order = .socketFirst → socket = server.sockConnect server.userCnt)
    (after : order = .counterFirst → socket = server.sockConnect (server.userCnt + 1)) :
    Clear { server with userCnt := server.userCnt + 1, pc := .creating socket } := by
  obtain ⟨member, differs⟩ := clear.stored stored
  have count := clear.occupied
  simp only [Occupied, stored] at count
  constructor
  case occupied => exact count.1
  case positive => exact clear.positive
  case unset => exact fun _ => clear.unset (by simp [stored])
  case stored => exact fun counting => nomatch counting
  case known =>
      intro reader entry
      exact Or.imp_right (Or.imp_right Nat.le_succ_of_le) (clear.known reader entry)
  case handed =>
      rintro _ ⟨⟩
      -- read after the counter, the socket is that of the next entry
      cases order with
      | socketFirst => exact .inl (own rfl ▸ member)
      | counterFirst =>
          rcases Nat.lt_or_ge (server.userCnt + 1) MAX_USER with inside | full
          · refine .inr (.inl ?_)
            rw [after rfl]
            exact clear.unset (by simp [stored]) _ (Nat.le_of_eq count.1.symm) inside
          · exact .inr (.inr full)
  case ahead =>
      intro reader entry i here j small above seen
      rcases Nat.lt_or_eq_of_le (Nat.le_of_lt_succ small) with old | rfl
      · exact clear.ahead reader entry i here j old above seen
      -- the new entry is nobody's yet, so its end has not been seen
      · obtain ⟨ended, known, same, _⟩ := (seenEnd_iff ..).mp seen
        exact absurd same (differs ended known)
  case chosen =>
      intro reader entry message i here
      obtain ⟨inside, other⟩ := clear.chosen reader entry message i here
      exact ⟨Nat.lt_succ_of_lt inside, other⟩

theorem clear_created {server : Server} (clear : Clear server) {socket : Int}
    (ready : server.pc = .creating socket) :
    Clear { server with
      readers := server.readers ++ [{ socket := socket, pc := .reading }]
      pc := .accepting } := by
  have split : ∀ other ∈ server.readers ++ [{ socket := socket, pc := .reading }],
      other ∈ server.readers ∨ other = { socket := socket, pc := .reading } :=
    fun other member => (List.mem_append.mp member).imp_right List.mem_singleton.mp
  constructor
  case occupied => simpa [Occupied, ready] using clear.occupied
  case positive => exact clear.positive
  case unset => exact fun _ => clear.unset (by simp [ready])
  case stored => exact fun counting => nomatch counting
  case known =>
      intro other entry
      rcases split other entry with old | rfl
      · exact clear.known other old
      · exact clear.handed socket ready
  case handed => exact fun socket ready => nomatch ready
  case ahead =>
      intro other entry i here j small above seen
      rcases split other entry with old | rfl
      · refine clear.ahead other old i here j small above ?_
        obtain ⟨ended, known, same, gone⟩ := (seenEnd_iff ..).mp seen
        rcases split ended known with before | rfl
        · exact (seenEnd_iff ..).mpr ⟨ended, before, same, gone⟩
        · cases gone
      · cases here
  case chosen =>
      intro other entry message i here
      rcases split other entry with old | rfl
      · exact clear.chosen other old message i here
      · cases here

theorem clear_turn {server next : Server} {event : Event} {made : List Call}
    (clear : Clear server) (few : FewConnections server event) (none : NoneGone server event)
    (turn : Turn server event next made) : Clear next := by
  have occupied := occupied_turn clear.occupied few turn
  cases turn with
  | acceptFailed waiting =>
      constructor
      case occupied => exact occupied
      case positive => exact clear.positive
      case unset => exact fun running => absurd rfl running
      case stored => exact fun counting => nomatch counting
      case known => exact clear.known
      case handed => exact fun socket ready => nomatch ready
      case ahead => exact ahead_store clear (-1)
      case chosen => exact chosen_store clear (-1)
  | accepted fd waiting valid fresh => exact clear_accepted clear waiting valid fresh few
  | counted order socket stored own after => exact clear_counted clear stored own after
  | created socket ready => exact clear_created clear ready
  | createFailed socket ready =>
      exact { clear with
        occupied := trivial
        unset := fun running => absurd rfl running
        stored := fun counting => nomatch counting
        handed := fun _ ready => nomatch ready }
  | ended k reader found reading =>
      have passed : Passed server reader.socket := by
        simpa using none reader found
      apply clear_moved clear found (fun _ => passed)
      · intro i here
        cases here
      · intro message i here
        cases here
  | received k reader result message found reading more sender number =>
      have allOpen : Ahead server reader.socket 0 := by
        simpa [more] using none reader found
      apply clear_moved clear found
      · intro ended
        cases ended
      · rintro i ⟨⟩
        exact allOpen
      · intro message i here
        cases here
  | skipped k reader message i found here inside own =>
      apply clear_moved clear found
      · intro ended
        cases ended
      · rintro _ ⟨⟩
        exact ahead_next (ahead_here clear found (by simp [here, ReaderPc.index]))
      · intro message i here
        cases here
  | chosen k reader message i found here inside other =>
      apply clear_moved clear found
      · intro ended
        cases ended
      · rintro _ ⟨⟩
        exact ahead_here clear found (by simp [here, ReaderPc.index])
      · rintro _ _ ⟨⟩
        exact ⟨inside, other⟩
  | finished k reader message i found here past =>
      apply clear_moved clear found
      · intro ended
        cases ended
      · intro i here
        cases here
      · intro message i here
        cases here
  | sent k reader message i found here =>
      apply clear_moved clear found
      · intro ended
        cases ended
      · rintro _ ⟨⟩
        exact ahead_next (ahead_here clear found (by simp [here, ReaderPc.index]))
      · intro message i here
        cases here

theorem writes_turn {server next : Server} {event : Event} {made : List Call}
    (clear : Clear server) (turn : Turn server event next made) :
    ∀ call ∈ made, WriteOpen call := by
  cases turn with
  | sent k reader message i found here =>
      intro call member
      obtain rfl := List.mem_singleton.mp member
      have thread := List.mem_of_getElem? found
      obtain ⟨inside, other⟩ := clear.chosen reader thread message i here
      apply Bool.eq_false_iff.mpr
      intro seen
      have ahead : Ahead server reader.socket i :=
        ahead_here clear found (by simp [here, ReaderPc.index])
      exact other (ahead i inside (Nat.le_refl i) seen).symm
  | _ => simp [WriteOpen]

theorem clear_start (beyond : Nat → Int) : Clear (start beyond) := by
  constructor
  case occupied => rfl
  case unset => exact fun _ j _ inside => if_pos inside
  all_goals simp [start]

/-- Both servers' stores are inside their arrays exactly when few connections
are accepted in the whole run; and as long as, besides, no message is read
after another connection's end and no connection ends with a broadcast before
its entry, the chat server writes to open connections only. -/
theorem tables_hold (beyond : Nat → Int) (events : List Event) (server : Server)
    (calls : List Call) (ran : exec step (start beyond) events = some (server, calls))
    (talks : List TalkServer.Event) (talk : TalkServer.Server)
    (talkCalls : List TalkServer.Call)
    (talked : exec TalkServer.step TalkServer.start talks = some (talk, talkCalls)) :
    ((∀ call ∈ calls, StoreInside call) ↔ Along step FewConnections (start beyond) events) ∧
      ((∀ call ∈ talkCalls, TalkServer.StoreInside call) ↔
        Along TalkServer.step TalkServer.FewConnections TalkServer.start talks) ∧
      (Along step (fun server event => FewConnections server event ∧ NoneGone server event)
          (start beyond) events →
        ∀ call ∈ calls, StoreInside call ∧ WriteOpen call) := by
  refine ⟨stores_inside_iff ran, TalkServer.stores_inside_iff talked, ?_⟩
  intro guarded call member
  have few := Machine.along_mono (start beyond) events (fun _ _ both => both.1) guarded
  refine ⟨(stores_inside_iff ran).mpr few call member, ?_⟩
  have kept := Machine.exec_invariant_along
    (fun calls server => Clear server ∧ ∀ call ∈ calls, WriteOpen call)
    (fun before server event next made inv met taken => by
      refine ⟨clear_turn inv.1 met.1 met.2 (turn_of_step taken), fun call member => ?_⟩
      rcases List.mem_append.mp member with old | new
      · exact inv.2 call old
      · exact writes_turn inv.1 (turn_of_step taken) call new)
    ⟨clear_start beyond, by simp⟩ guarded ran
  exact kept.2 call member

/-- Two clients; the first speaks and then both leave. -/
def shortChat : List Event :=
  [.accept 4, .count .socketFirst, .create, .accept 5, .count .socketFirst, .create,
    .read 0 (.bytes [104]), .test 0, .test 0, .write 0, .test 0,
    .read 1 (.bytes []), .read 0 (.bytes [])]

def threeTalks : List TalkServer.Event :=
  [.accept 4, .create, .accept 5, .create, .read 0 (.bytes []), .accept 6, .create]

theorem tables_hold_shortChat :
    ∃ server calls talk talkCalls,
      exec step (start fun _ => 0) shortChat = some (server, calls) ∧
      exec TalkServer.step TalkServer.start threeTalks = some (talk, talkCalls) ∧
      (∀ call ∈ calls, StoreInside call ∧ WriteOpen call) ∧
      ∀ call ∈ talkCalls, TalkServer.StoreInside call := by
  have holds := tables_hold (fun _ => 0) shortChat _ _ rfl threeTalks _ _ rfl
  refine ⟨_, _, _, _, rfl, rfl, holds.2.2 ?_, holds.2.1.mpr ?_⟩
  · exact (Machine.misses_zero_iff _ _).mp (by decide)
  · exact (Machine.misses_zero_iff _ _).mp (by decide)

/-- The first of two clients leaves, and the second speaks. -/
theorem departed_client_written :
    ¬ ∀ (beyond : Nat → Int) (events : List Event) (server : Server) (calls : List Call)
      (talks : List TalkServer.Event) (talk : TalkServer.Server)
      (talkCalls : List TalkServer.Call),
      exec step (start beyond) events = some (server, calls) →
        exec TalkServer.step TalkServer.start talks = some (talk, talkCalls) →
          (∀ call ∈ calls, StoreInside call ∧ WriteOpen call) ∧
            ∀ call ∈ talkCalls, TalkServer.StoreInside call := by
  intro all
  have holds := all (fun _ => 0)
    [.accept 4, .count .socketFirst, .create, .accept 5, .count .socketFirst, .create,
      .read 0 (.bytes []), .read 1 (.bytes [104]), .test 1, .write 1] _ _ [] _ _ rfl rfl
  have written := (holds.1 (.write 0 4 ⟨1, 0, 1, [104]⟩ true) (by decide)).2
  cases written

end NetworkTest.ChatServer
