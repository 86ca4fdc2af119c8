import NetworkTest.ChatTables

/-!
The descriptors that the chat server's threads are given. One argument of
`pthread_create` counts the connection and another reads its entry, so the
thread gets the entry of the connection only in one of the two orders of
evaluation; in the other it gets the next entry, which nothing has set yet.
-/

namespace NetworkTest.ChatServer

open Machine (Step exec Along Throughout)

def Server.given (server : Server) : List Int := server.readers.map Reader.socket

/-- The k-th thread reads from the k-th accepted connection, also the one about
to be started; no connection has two threads, and none has no thread while the
next is awaited. -/
structure Paired (server : Server) : Prop where
  own : server.given <+: server.accepted
  handed : ∀ socket, server.pc = .creating socket → server.given ++ [socket] <+: server.accepted
  once : server.given.Nodup
  everyone : server.pc = .accepting → server.given = server.accepted

/-- `sock_connect[user_cnt]` is read before `user_cnt++`. -/
def SocketFirst : Event → Prop
  | .count order => order = .socketFirst
  | _ => True

def InTable (server : Server) : Event → Prop
  | .count _ => server.userCnt + 1 < MAX_USER
  | _ => True

instance : (event : Event) → Decidable (SocketFirst event)
  | .count order => inferInstanceAs (Decidable (order = .socketFirst))
  | .accept _ => isTrue trivial
  | .create => isTrue trivial
  | .createFails => isTrue trivial
  | .read _ _ => isTrue trivial
  | .test _ => isTrue trivial
  | .write _ => isTrue trivial

def ReadsOwn (server : Server) : Event → Prop
  | .count .counterFirst =>
      server.sockConnect (server.userCnt + 1) = server.sockConnect server.userCnt
  | _ => True

/-- What the counting leaves behind, whoever has been given what. -/
structure Tally (server : Server) : Prop where
  fresh : server.accepted.Nodup
  positive : ∀ fd ∈ server.accepted, 0 < fd
  unset : server.pc ≠ .exited → ∀ j, server.accepted.length ≤ j → j < MAX_USER →
    server.sockConnect j = 0
  waiting : server.pc = .accepting →
    server.userCnt = server.accepted.length ∧ server.readers.length = server.accepted.length
  stored : server.pc = .counting →
    server.accepted.length = server.userCnt + 1 ∧ server.readers.length = server.userCnt ∧
      server.accepted[server.userCnt]? = some (server.sockConnect server.userCnt)
  ready : ∀ socket, server.pc = .creating socket →
    server.userCnt = server.accepted.length ∧ server.readers.length + 1 = server.accepted.length

theorem tally_start (beyond : Nat → Int) : Tally (start beyond) := by
  constructor
  case unset => exact fun _ j _ inside => if_pos inside
  all_goals simp [start]

theorem tally_moved {server : Server} {k count : Nat} {reader : Reader} {pc : ReaderPc}
    (tally : Tally server) : Tally { setReader server k reader pc with messages := count } := by
  have length : (setReader server k reader pc).readers.length = server.readers.length :=
    List.length_set ..
  constructor
  case fresh => exact tally.fresh
  case positive => exact tally.positive
  case unset => exact tally.unset
  case waiting => exact length ▸ tally.waiting
  case stored => exact length ▸ tally.stored
  case ready => exact length ▸ tally.ready

theorem tally_accepted {server : Server} (tally : Tally server) {fd : Int}
    (waiting : server.pc = .accepting) (valid : 0 < fd) (fresh : fd ∉ server.accepted) :
    Tally { server with
      sockConnect := Function.update server.sockConnect server.userCnt fd
      accepted := server.accepted ++ [fd]
      pc := .counting } := by
  obtain ⟨count, threads⟩ := tally.waiting waiting
  constructor
  case fresh =>
      refine List.nodup_append.mpr ⟨tally.fresh, List.nodup_singleton fd, ?_⟩
      intro old member new here same
      rw [same, List.mem_singleton.mp here] at member
      exact fresh member
  case positive =>
      intro other member
      rcases List.mem_append.mp member with old | new
      · exact tally.positive other old
      · exact List.mem_singleton.mp new ▸ valid
  case unset =>
      intro _ j above inside
      simp only [List.length_append, List.length_singleton] at above
      have other : j ≠ server.userCnt := by omega
      exact (Function.update_of_ne other ..).trans
        (tally.unset (by simp [waiting]) j (by omega) inside)
  case waiting => simp
  case stored => simp [count, threads]
  case ready => simp

theorem tally_turn {server next : Server} {event : Event} {made : List Call}
    (tally : Tally server) (turn : Turn server event next made) : Tally next := by
  cases turn with
  | acceptFailed waiting =>
      exact { tally with
        unset := fun running => absurd rfl running
        waiting := by simp
        stored := by simp
        ready := by simp }
  | accepted fd waiting valid fresh => exact tally_accepted tally waiting valid fresh
  | counted order socket stored own after =>
      obtain ⟨count, threads, _⟩ := tally.stored stored
      exact { tally with
        unset := fun _ => tally.unset (by simp [stored])
        waiting := by simp
        stored := by simp
        ready := fun _ _ => ⟨count.symm, by rw [threads, count]⟩ }
  | created socket ready =>
      obtain ⟨count, threads⟩ := tally.ready socket ready
      exact { tally with
        unset := fun _ => tally.unset (by simp [ready])
        waiting := fun _ => ⟨count, by rw [List.length_append]; exact threads⟩
        stored := by simp
        ready := by simp }
  | createFailed socket ready =>
      exact { tally with
        unset := fun running => absurd rfl running
        waiting := by simp
        stored := by simp
        ready := by simp }
  | _ => exact tally_moved tally

theorem stored_last {server : Server} (tally : Tally server) (paired : Paired server)
    (stored : server.pc = .counting) :
    server.accepted = server.given ++ [server.sockConnect server.userCnt] := by
  obtain ⟨count, threads, last⟩ := tally.stored stored
  obtain ⟨rest, whole⟩ := paired.own
  have given : server.given.length = server.userCnt := by
    rw [Server.given, List.length_map, threads]
  have one : rest.length = 1 := by
    have length := congrArg List.length whole
    rw [List.length_append, given, count] at length
    omega
  obtain ⟨fd, rfl⟩ := List.length_eq_one_iff.mp one
  rw [← whole, ← given, List.getElem?_append_right (Nat.le_refl _), Nat.sub_self,
    List.getElem?_cons_zero, Option.some.injEq] at last
  rw [← whole, last, given]

theorem paired_counted {server : Server} (tally : Tally server) (paired : Paired server)
    (stored : server.pc = .counting) (socket : Int) :
    Paired { server with userCnt := server.userCnt + 1, pc := .creating socket } ↔
      socket = server.sockConnect server.userCnt := by
  have last := stored_last tally paired stored
  constructor
  · intro next
    have handed : server.given ++ [socket] <+: server.accepted := next.handed socket rfl
    rw [last, List.prefix_append_right_inj] at handed
    exact List.singleton_inj.mp (handed.eq_of_length rfl)
  · rintro rfl
    refine { paired with handed := ?_, everyone := by simp }
    rintro _ ⟨⟩
    exact last ▸ List.prefix_rfl

theorem given_setReader {server : Server} {k : Nat} {reader : Reader}
    (found : server.readers[k]? = some reader) (pc : ReaderPc) :
    (setReader server k reader pc).given = server.given := by
  obtain ⟨inside, rfl⟩ := List.getElem?_eq_some_iff.mp found
  -- the entry is set to itself
  have same := @List.set_getElem_self _ server.given k (by simpa [Server.given])
  simpa [Server.given, setReader, List.map_set] using same

theorem paired_moved {server : Server} {k count : Nat} {reader : Reader} {pc : ReaderPc}
    (paired : Paired server) (found : server.readers[k]? = some reader) :
    Paired { setReader server k reader pc with messages := count } := by
  have given := given_setReader found pc
  constructor
  case own => exact given ▸ paired.own
  case handed => exact given ▸ paired.handed
  case once => exact given ▸ paired.once
  case everyone => exact given ▸ paired.everyone

theorem paired_turn {server next : Server} {event : Event} {made : List Call}
    (tally : Tally server) (paired : Paired server) (turn : Turn server event next made) :
    Paired next ↔ ReadsOwn server event := by
  cases turn with
  | acceptFailed waiting =>
      refine iff_of_true ?_ trivial
      exact { paired with handed := by simp, everyone := by simp }
  | accepted fd waiting valid fresh =>
      refine iff_of_true ?_ trivial
      exact { paired with
        own := paired.own.trans (List.prefix_append ..)
        handed := by simp
        everyone := by simp }
  | counted order socket stored own after =>
      rw [paired_counted tally paired stored]
      cases order with
      | counterFirst => rw [after rfl, ReadsOwn]
      | socketFirst => exact iff_of_true (own rfl) trivial
  | created socket ready =>
      refine iff_of_true ?_ trivial
      obtain ⟨_, threads⟩ := tally.ready socket ready
      have handed := paired.handed socket ready
      have given : Server.given { server with
          readers := server.readers ++ [{ socket := socket, pc := .reading }]
          pc := .accepting } = server.given ++ [socket] := by
        simp [Server.given]
      constructor
      case own => rwa [given]
      case handed => simp
      case once =>
        rw [given]
        exact handed.sublist.nodup tally.fresh
      case everyone =>
        intro _
        rw [given]
        refine handed.eq_of_length ?_
        rw [List.length_append, Server.given, List.length_map]
        exact threads
  | createFailed socket ready =>
      refine iff_of_true ?_ trivial
      exact { paired with handed := by simp, everyone := by simp }
  -- a thread goes on, with the descriptor it has
  | ended k reader found | received k reader result message found | skipped k reader message i found
  | chosen k reader message i found | finished k reader message i found
  | sent k reader message i found => exact iff_of_true (paired_moved paired found) trivial

theorem paired_start (beyond : Nat → Int) : Paired (start beyond) := by
  constructor <;> simp [start, Server.given]

theorem paired_iff_along {beyond : Nat → Int} {events : List Event} {server : Server}
    {calls : List Call} (ran : exec step (start beyond) events = some (server, calls)) :
    Throughout step Paired (start beyond) events ↔ Along step ReadsOwn (start beyond) events := by
  apply Machine.throughout_iff_along Tally _ _ (tally_start beyond) (paired_start beyond) ran
  · exact fun _ _ _ _ tally _ _ taken => tally_turn tally (turn_of_step taken)
  · exact fun _ _ _ _ tally paired taken => paired_turn tally paired (turn_of_step taken)

/-- Inside the array the next entry is not set yet, and no descriptor. -/
theorem reads_next {server next : Server} {event : Event} {made : List Call}
    (tally : Tally server) (turn : Turn server event next made) (reads : ReadsOwn server event)
    (inside : InTable server event) : SocketFirst event := by
  cases turn with
  | counted order socket stored own after =>
      cases order with
      | socketFirst => rfl
      | counterFirst =>
          obtain ⟨count, _, last⟩ := tally.stored stored
          have zero := tally.unset (by simp [stored]) _ (Nat.le_of_eq count) inside
          have valid := tally.positive _ (List.mem_of_getElem? last)
          rw [ReadsOwn, zero] at reads
          omega
  | _ => trivial

/-- As long as few connections are accepted and the entry is read before the
counting, every thread is given its own connection; and as long as it is, the
entry has been read first wherever the other order would stay in the array. -/
theorem readers_paired (beyond : Nat → Int) (events : List Event) (server : Server)
    (calls : List Call) (ran : exec step (start beyond) events = some (server, calls)) :
    (Along step (fun server event => FewConnections server event ∧ SocketFirst event)
        (start beyond) events →
      Throughout step Paired (start beyond) events) ∧
      (Throughout step Paired (start beyond) events →
        Along step (fun server event => InTable server event → SocketFirst event)
          (start beyond) events) := by
  rw [paired_iff_along ran]
  constructor
  · apply Machine.along_mono
    rintro state event ⟨_, first⟩
    cases event with
    | count order =>
        cases order with
        | counterFirst => cases first
        | socketFirst => trivial
    | _ => trivial
  · apply Machine.along_weaken Tally _ _ (tally_start beyond) ran
    · exact fun _ _ _ _ tally taken => tally_turn tally (turn_of_step taken)
    · exact fun _ _ _ _ tally taken => reads_next tally (turn_of_step taken)

theorem readers_paired_shortChat :
    ∃ server calls, exec step (start fun _ => 0) shortChat = some (server, calls) ∧
      Throughout step Paired (start fun _ => 0) shortChat :=
  ⟨_, _, rfl, (readers_paired (fun _ => 0) shortChat _ _ rfl).1
    ((Machine.misses_zero_iff _ _).mp (by decide))⟩

/-- The counter first: the thread of the first connection reads from descriptor
0, and nobody reads from the connection. -/
theorem reader_of_next_entry :
    ¬ ∀ (beyond : Nat → Int) (events : List Event) (server : Server) (calls : List Call),
      exec step (start beyond) events = some (server, calls) →
        Throughout step Paired (start beyond) events := by
  intro all
  have holds := all (fun _ => 0) [.accept 4, .count .counterFirst, .create] _ _ rfl
  have last := Machine.throughout_last holds rfl
  have everyone := last.everyone rfl
  revert everyone
  decide

end NetworkTest.ChatServer
