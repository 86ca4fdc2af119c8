import NetworkTest.ChatServer
import NetworkTest.Lookup

/-!
Broadcasting over a table that grows while it is walked. A client is named by
its descriptor; no connection is closed, so descriptors are never reused. The
invariant says of each thread how far its current message has come: the
entries behind its index have it, the others do not.
-/

namespace NetworkTest.ChatServer

open CBuffer (Bytes)
open Descriptors (ReadResult)
open Machine (Step exec Along)

def received (fd : Int) (calls : List Call) : List Message :=
  calls.filterMap fun call =>
    match call with
    | .write _ target message _ => if target = fd then some message else none
    | _ => none

def readBy (k : Nat) (calls : List Call) : List Message :=
  calls.filterMap fun call =>
    match call with
    | .read message _ => if message.sender = k then some message else none
    | _ => none

def receivedFrom (k : Nat) (fd : Int) (calls : List Call) : List Message :=
  (received fd calls).filter (fun message => message.sender = k)

/-- At most `MAX_USER` clients connect, none leaves, and each thread is given
its own connection's descriptor. -/
def ChatOk (server : Server) : Event → Prop
  | .accept result => result = -1 ∨ server.userCnt < MAX_USER
  | .count order => order = .socketFirst
  | .read _ result => result ≠ .bytes []
  | _ => True

instance (server : Server) : (event : Event) → Decidable (ChatOk server event)
  | .accept result => inferInstanceAs (Decidable (result = -1 ∨ server.userCnt < MAX_USER))
  | .count order => inferInstanceAs (Decidable (order = .socketFirst))
  | .read _ result => inferInstanceAs (Decidable (result ≠ .bytes []))
  | .create => isTrue trivial
  | .createFails => isTrue trivial
  | .test _ => isTrue trivial
  | .write _ => isTrue trivial

@[simp] theorem received_append (fd : Int) (calls made : List Call) :
    received fd (calls ++ made) = received fd calls ++ received fd made := by
  simp [received]

@[simp] theorem readBy_append (k : Nat) (calls made : List Call) :
    readBy k (calls ++ made) = readBy k calls ++ readBy k made := by
  simp [readBy]

@[simp] theorem receivedFrom_append (k : Nat) (fd : Int) (calls made : List Call) :
    receivedFrom k fd (calls ++ made) = receivedFrom k fd calls ++ receivedFrom k fd made := by
  simp [receivedFrom]

@[simp] theorem readBy_write (k i : Nat) (fd : Int) (message : Message) (ended : Bool) :
    readBy k [.write i fd message ended] = [] := rfl

@[simp] theorem readBy_finished (k : Nat) (message : Message) :
    readBy k [.finished message] = [] := rfl

@[simp] theorem received_read (fd : Int) (message : Message) (count : Nat) :
    received fd [.read message count] = [] := rfl

@[simp] theorem received_finished (fd : Int) (message : Message) :
    received fd [.finished message] = [] := rfl

@[simp] theorem received_write (fd target : Int) (message : Message) (i : Nat) (ended : Bool) :
    received fd [.write i target message ended] = if target = fd then [message] else [] := by
  by_cases same : target = fd <;> simp [received, same]

/-- The entries below `i` other than the sender's own have got `message` as
the last one from `k`; to nobody else has it been written. -/
structure Walk (accepted : List Int) (userCnt : Nat) (calls : List Call) (k : Nat)
    (socket : Int) (message : Message) (i : Nat) (earlier : List Message) : Prop where
  reads : readBy k calls = earlier ++ [message]
  fresh : message ∉ earlier
  sender : message.sender = k
  inside : i ≤ userCnt
  done : ∀ other, Call.finished other ∈ calls → other.sender = k → other ∈ earlier
  served : ∀ fd ∈ accepted.take i, fd ≠ socket →
    ∃ before, receivedFrom k fd calls = before ++ [message] ∧ before.Sublist earlier
  unserved : ∀ fd, (fd ∈ accepted.take i → fd = socket) →
    (receivedFrom k fd calls).Sublist earlier

structure Rest (calls : List Call) (k : Nat) : Prop where
  ordered : ∀ fd, (receivedFrom k fd calls).Sublist (readBy k calls)
  done : ∀ other, Call.finished other ∈ calls → other.sender = k → other ∈ readBy k calls

def ReaderInv (server : Server) (calls : List Call) (k : Nat) (reader : Reader) : Prop :=
  match reader.pc with
  | .reading => Rest calls k
  | .ended => Rest calls k
  | .test message i =>
      ∃ earlier, Walk server.accepted server.userCnt calls k reader.socket message i earlier
  | .send message i =>
      (∃ earlier, Walk server.accepted server.userCnt calls k reader.socket message i earlier) ∧
        i < server.userCnt ∧ reader.socket ≠ server.sockConnect i

/-- How the counters of the accept loop stand to the accepted connections. -/
def Counted (server : Server) : Prop :=
  match server.pc with
  | .accepting =>
      server.userCnt = server.accepted.length ∧ server.readers.length = server.userCnt
  | .counting =>
      server.userCnt + 1 = server.accepted.length ∧ server.readers.length = server.userCnt
  | .creating socket =>
      server.userCnt = server.accepted.length ∧
        server.readers.length + 1 = server.userCnt ∧
        server.accepted[server.readers.length]? = some socket
  | .exited => True

/-- Every client counted before a finished message was read has it once. -/
def Complete (accepted : List Int) (calls : List Call) : Prop :=
  ∀ message count, Call.read message count ∈ calls → Call.finished message ∈ calls →
    ∀ j < count, j ≠ message.sender →
      ∃ fd, accepted[j]? = some fd ∧ (received fd calls).count message = 1

structure ChatInv (calls : List Call) (server : Server) : Prop where
  table : ∀ j fd, server.accepted[j]? = some fd → server.sockConnect j = fd
  unique : server.accepted.Nodup
  counted : Counted server
  listed : server.userCnt ≤ server.accepted.length
  threads : server.readers.length ≤ server.accepted.length
  own : ∀ (k : Nat) (reader : Reader), server.readers[k]? = some reader →
    server.accepted[k]? = some reader.socket
  numbers : ∀ message count, Call.read message count ∈ calls →
    message.number < server.messages ∧ count ≤ server.userCnt ∧
      message.sender < server.readers.length
  apart : ∀ fd, ∀ message ∈ received fd calls,
    server.accepted[message.sender]? ≠ some fd ∧
      message.sender < server.readers.length
  ended : ∀ message, Call.finished message ∈ calls → message.sender < server.readers.length
  readers : ∀ (k : Nat) (reader : Reader), server.readers[k]? = some reader →
    ReaderInv server calls k reader
  complete : Complete server.accepted calls

/-! Frame: a step shows the thread `k` nothing if its calls are not about
`k`'s messages. -/

structure Silent (k : Nat) (made : List Call) : Prop where
  reads : readBy k made = []
  writes : ∀ fd, receivedFrom k fd made = []
  finished : ∀ message, Call.finished message ∈ made → message.sender ≠ k

theorem walk_frame {accepted more : List Int} {before after : Nat} {calls made : List Call}
    {k : Nat} {socket : Int} {message : Message} {i : Nat} {earlier : List Message}
    (walk : Walk accepted before calls k socket message i earlier)
    (listed : before ≤ accepted.length) (counts : before ≤ after) (silent : Silent k made) :
    Walk (accepted ++ more) after (calls ++ made) k socket message i earlier := by
  have prefixSame : (accepted ++ more).take i = accepted.take i :=
    List.take_append_of_le_length (Nat.le_trans walk.inside listed)
  have same : ∀ fd, receivedFrom k fd (calls ++ made) = receivedFrom k fd calls := by
    intro fd
    simp [silent.writes fd]
  refine
    { reads := ?_, fresh := walk.fresh, sender := walk.sender,
      inside := Nat.le_trans walk.inside counts, done := ?_, served := ?_, unserved := ?_ }
  · simp [silent.reads, walk.reads]
  · intro other finished own
    rcases List.mem_append.mp finished with old | new
    · exact walk.done other old own
    · exact absurd own (silent.finished other new)
  · intro fd member other
    rw [prefixSame] at member
    rw [same]
    exact walk.served fd member other
  · intro fd excluded
    rw [prefixSame] at excluded
    rw [same]
    exact walk.unserved fd excluded

theorem rest_frame {calls made : List Call} {k : Nat} (rest : Rest calls k)
    (silent : Silent k made) : Rest (calls ++ made) k := by
  constructor
  · intro fd
    simpa [silent.writes fd, silent.reads] using rest.ordered fd
  · intro other finished own
    rcases List.mem_append.mp finished with old | new
    · simpa [silent.reads] using rest.done other old own
    · exact absurd own (silent.finished other new)

theorem readerInv_frame {server next : Server} {calls made : List Call} {k : Nat}
    {reader : Reader} (inv : ReaderInv server calls k reader)
    (grows : ∃ more, next.accepted = server.accepted ++ more)
    (listed : server.userCnt ≤ server.accepted.length)
    (counts : server.userCnt ≤ next.userCnt)
    (entries : ∀ i < server.userCnt, next.sockConnect i = server.sockConnect i)
    (silent : Silent k made) : ReaderInv next (calls ++ made) k reader := by
  obtain ⟨more, accepted⟩ := grows
  unfold ReaderInv at inv ⊢
  cases pc : reader.pc with
  | reading =>
      rw [pc] at inv
      exact rest_frame inv silent
  | ended =>
      rw [pc] at inv
      exact rest_frame inv silent
  | test message i =>
      rw [pc] at inv
      obtain ⟨earlier, walk⟩ := inv
      exact ⟨earlier, accepted ▸ walk_frame walk listed counts silent⟩
  | send message i =>
      rw [pc] at inv
      obtain ⟨⟨earlier, walk⟩, inside, other⟩ := inv
      refine ⟨⟨earlier, accepted ▸ walk_frame walk listed counts silent⟩,
        Nat.lt_of_lt_of_le inside counts, ?_⟩
      rw [entries i inside]
      exact other

theorem complete_frame {accepted more : List Int} {calls made : List Call}
    (complete : Complete accepted calls)
    (reads : ∀ message count, Call.read message count ∉ made)
    (finished : ∀ message, Call.finished message ∉ made)
    (writes : ∀ fd, received fd made = []) :
    Complete (accepted ++ more) (calls ++ made) := by
  intro message count read done j small other
  have oldRead : Call.read message count ∈ calls :=
    (List.mem_append.mp read).resolve_right (reads message count)
  have oldDone : Call.finished message ∈ calls :=
    (List.mem_append.mp done).resolve_right (finished message)
  obtain ⟨fd, entry, once⟩ := complete message count oldRead oldDone j small other
  refine ⟨fd, ?_, by simpa [writes fd] using once⟩
  obtain ⟨inside, _⟩ := List.getElem?_eq_some_iff.mp entry
  rw [List.getElem?_append_left inside, entry]

theorem chat_main {server next : Server} {calls made : List Call}
    (inv : ChatInv calls server) (more : List Int)
    (quiet : ∀ call ∈ made, (∃ index fd, call = .storeSock index fd) ∨
      ∃ index, call = .storeThread index)
    (accepted : next.accepted = server.accepted ++ more)
    (messages : next.messages = server.messages)
    (counts : server.userCnt ≤ next.userCnt)
    (entries : ∀ i < server.userCnt, next.sockConnect i = server.sockConnect i)
    (table : ∀ j fd, next.accepted[j]? = some fd → next.sockConnect j = fd)
    (unique : next.accepted.Nodup) (counted : Counted next)
    (listed : next.userCnt ≤ next.accepted.length)
    (threads : next.readers.length ≤ next.accepted.length)
    (grown : server.readers.length ≤ next.readers.length)
    (own : ∀ (k : Nat) (reader : Reader), next.readers[k]? = some reader →
      next.accepted[k]? = some reader.socket)
    (readers : ∀ (k : Nat) (reader : Reader), next.readers[k]? = some reader →
      server.readers[k]? = some reader ∨ ReaderInv next (calls ++ made) k reader) :
    ChatInv (calls ++ made) next := by
  have noRead : ∀ message count, Call.read message count ∉ made := by
    intro message count member
    rcases quiet _ member with ⟨_, _, same⟩ | ⟨_, same⟩ <;> cases same
  have noFinish : ∀ message, Call.finished message ∉ made := by
    intro message member
    rcases quiet _ member with ⟨_, _, same⟩ | ⟨_, same⟩ <;> cases same
  have noWrite : ∀ fd, received fd made = [] := by
    intro fd
    apply List.filterMap_eq_nil_iff.mpr
    intro call member
    rcases quiet call member with ⟨_, _, rfl⟩ | ⟨_, rfl⟩ <;> rfl
  have silent : ∀ k, Silent k made := by
    intro k
    refine ⟨?_, fun fd => by simp [receivedFrom, noWrite fd],
      fun message member => absurd member (noFinish message)⟩
    apply List.filterMap_eq_nil_iff.mpr
    intro call member
    rcases quiet call member with ⟨_, _, rfl⟩ | ⟨_, rfl⟩ <;> rfl
  refine
    { table := table, unique := unique, counted := counted, listed := listed,
      threads := threads, own := own, numbers := ?_, apart := ?_, ended := ?_,
      readers := ?_, complete := ?_ }
  · intro message count member
    have old := (List.mem_append.mp member).resolve_right (noRead message count)
    obtain ⟨small, bound, thread⟩ := inv.numbers message count old
    exact ⟨messages ▸ small, Nat.le_trans bound counts, Nat.lt_of_lt_of_le thread grown⟩
  · intro fd message member
    rw [received_append, noWrite fd, List.append_nil] at member
    obtain ⟨differs, thread⟩ := inv.apart fd message member
    refine ⟨?_, Nat.lt_of_lt_of_le thread grown⟩
    rwa [accepted, List.getElem?_append_left (Nat.lt_of_lt_of_le thread inv.threads)]
  · intro message member
    have old := (List.mem_append.mp member).resolve_right (noFinish message)
    exact Nat.lt_of_lt_of_le (inv.ended message old) grown
  · intro k reader found
    rcases readers k reader found with old | new
    · exact readerInv_frame (inv.readers k reader old) ⟨more, accepted⟩ inv.listed counts
        entries (silent k)
    · exact new
  · rw [accepted]
    exact complete_frame inv.complete noRead noFinish noWrite

theorem chat_reader {server : Server} {calls made : List Call} {k count : Nat}
    {reader : Reader} {pc : ReaderPc} (inv : ChatInv calls server)
    (found : server.readers[k]? = some reader) (counts : server.messages ≤ count)
    (silent : ∀ other, other ≠ k → Silent other made)
    (reads : ∀ message users, Call.read message users ∈ made →
      message.number < count ∧ users ≤ server.userCnt ∧ message.sender = k)
    (writes : ∀ fd, ∀ message ∈ received fd made, message.sender = k ∧ fd ≠ reader.socket)
    (finished : ∀ message, Call.finished message ∈ made → message.sender = k)
    (moved : ReaderInv server (calls ++ made) k { reader with pc := pc })
    (complete : Complete server.accepted (calls ++ made)) :
    ChatInv (calls ++ made)
      { setReader server k reader pc with messages := count } := by
  have small : k < server.readers.length := (List.getElem?_eq_some_iff.mp found).1
  have here : (server.readers.set k { reader with pc := pc })[k]? =
      some { reader with pc := pc } := by
    rw [List.getElem?_set_self small]
  have there : ∀ other, other ≠ k →
      (server.readers.set k { reader with pc := pc })[other]? = server.readers[other]? :=
    fun other differs => List.getElem?_set_ne (Ne.symm differs)
  refine
    { table := inv.table, unique := inv.unique, counted := ?_, listed := inv.listed,
      threads := ?_, own := ?_, numbers := ?_, apart := ?_, ended := ?_, readers := ?_,
      complete := complete }
  · simpa [Counted, setReader] using inv.counted
  · simpa [setReader] using inv.threads
  · intro other thread entry
    by_cases same : other = k
    · subst same
      obtain rfl := Option.some.inj (here.symm.trans entry)
      exact inv.own other reader found
    · exact inv.own other thread ((there other same).symm.trans entry)
  · intro message users member
    simp only [setReader, List.length_set]
    rcases List.mem_append.mp member with old | new
    · obtain ⟨less, bound, thread⟩ := inv.numbers message users old
      exact ⟨Nat.lt_of_lt_of_le less counts, bound, thread⟩
    · obtain ⟨less, bound, rfl⟩ := reads message users new
      exact ⟨less, bound, small⟩
  · intro fd message member
    simp only [setReader, List.length_set]
    rw [received_append] at member
    rcases List.mem_append.mp member with old | new
    · exact inv.apart fd message old
    · obtain ⟨rfl, other⟩ := writes fd message new
      refine ⟨?_, small⟩
      rw [inv.own _ reader found]
      simpa using Ne.symm other
  · intro message member
    simp only [setReader, List.length_set]
    rcases List.mem_append.mp member with old | new
    · exact inv.ended message old
    · exact finished message new ▸ small
  · intro other thread entry
    by_cases same : other = k
    · subst same
      obtain rfl := Option.some.inj (here.symm.trans entry)
      exact moved
    · have old : server.readers[other]? = some thread := (there other same).symm.trans entry
      exact readerInv_frame (inv.readers other thread old) ⟨[], by simp [setReader]⟩ inv.listed
        (Nat.le_refl _) (fun _ _ => rfl) (silent other same)

/-! One step of a broadcast. -/

theorem not_mem_take_of_nodup {α : Type} {list : List α} {i : Nat} {entry : α}
    (unique : list.Nodup) (found : list[i]? = some entry) : entry ∉ list.take i := by
  obtain ⟨inside, rfl⟩ := List.getElem?_eq_some_iff.mp found
  intro member
  obtain ⟨j, small, same⟩ := List.mem_take_iff_getElem.mp member
  have equal : j = i := (unique.getElem_inj_iff ..).mp same
  omega

theorem entry_of_inside {server : Server} {calls : List Call} {i : Nat}
    (inv : ChatInv calls server) (inside : i < server.userCnt) :
    server.accepted[i]? = some (server.sockConnect i) := by
  have listed := Nat.lt_of_lt_of_le inside inv.listed
  have found := List.getElem?_eq_getElem listed
  rw [inv.table i _ found]
  exact found

theorem walk_start {accepted : List Int} {userCnt : Nat} {calls : List Call} {k count : Nat}
    {socket : Int} {message : Message} (rest : Rest calls k) (sender : message.sender = k)
    (fresh : message ∉ readBy k calls) :
    Walk accepted userCnt (calls ++ [.read message count]) k socket message 0
      (readBy k calls) := by
  refine
    { reads := ?_, fresh := fresh, sender := sender, inside := Nat.zero_le _, done := ?_,
      served := ?_, unserved := ?_ }
  · simp [readBy, sender]
  · intro other finished own
    have old : Call.finished other ∈ calls := by simpa using finished
    exact rest.done other old own
  · intro fd member
    simp at member
  · intro fd _
    simpa [receivedFrom] using rest.ordered fd

theorem walk_skip {accepted : List Int} {userCnt : Nat} {calls : List Call} {k i : Nat}
    {socket : Int} {message : Message} {earlier : List Message}
    (walk : Walk accepted userCnt calls k socket message i earlier)
    (inside : i < userCnt) (own : accepted[i]? = some socket) :
    Walk accepted userCnt calls k socket message (i + 1) earlier := by
  have grown : accepted.take (i + 1) = accepted.take i ++ [socket] := by
    rw [List.take_add_one, own]
    rfl
  refine { walk with inside := inside, served := ?_, unserved := ?_ }
  · intro fd member other
    rw [grown, List.mem_append, List.mem_singleton] at member
    exact walk.served fd (member.resolve_right other) other
  · intro fd excluded
    apply walk.unserved
    intro member
    exact excluded (grown ▸ List.mem_append_left _ member)

theorem walk_send {accepted : List Int} {userCnt : Nat} {calls : List Call} {k i : Nat}
    {socket fd : Int} {message : Message} {ended : Bool} {earlier : List Message}
    (walk : Walk accepted userCnt calls k socket message i earlier)
    (inside : i < userCnt) (unique : accepted.Nodup) (entry : accepted[i]? = some fd)
    (other : socket ≠ fd) :
    Walk accepted userCnt (calls ++ [.write i fd message ended]) k socket message (i + 1)
      earlier := by
  have grown : accepted.take (i + 1) = accepted.take i ++ [fd] := by
    rw [List.take_add_one, entry]
    rfl
  have new : fd ∉ accepted.take i := not_mem_take_of_nodup unique entry
  have target : receivedFrom k fd [Call.write i fd message ended] = [message] := by
    simp [receivedFrom, walk.sender]
  have aside : ∀ client, client ≠ fd →
      receivedFrom k client [Call.write i fd message ended] = [] := by
    intro client differs
    simp [receivedFrom, Ne.symm differs]
  refine { walk with reads := ?_, inside := inside, done := ?_, served := ?_, unserved := ?_ }
  · simp [walk.reads]
  · intro done finished own
    have old : Call.finished done ∈ calls := by simpa using finished
    exact walk.done done old own
  · intro client member differs
    rw [receivedFrom_append]
    -- until now the client at `i` was not served: no entry below `i` is its own
    by_cases same : client = fd
    · subst same
      rw [target]
      exact ⟨_, rfl, walk.unserved client fun member => absurd member new⟩
    · rw [grown, List.mem_append, List.mem_singleton] at member
      rw [aside client same, List.append_nil]
      exact walk.served client (member.resolve_right same) differs
  · intro client excluded
    rw [grown] at excluded
    have differs : client ≠ fd := by
      rintro rfl
      exact other (excluded (List.mem_append_right _ (List.mem_singleton_self _))).symm
    rw [receivedFrom_append, aside client differs, List.append_nil]
    exact walk.unserved client fun member => excluded (List.mem_append_left _ member)

theorem walk_ordered {accepted : List Int} {userCnt : Nat} {calls : List Call} {k i : Nat}
    {socket : Int} {message : Message} {earlier : List Message}
    (walk : Walk accepted userCnt calls k socket message i earlier) (fd : Int) :
    (receivedFrom k fd calls).Sublist (readBy k calls) := by
  rw [walk.reads]
  by_cases target : fd ∈ accepted.take i ∧ fd ≠ socket
  · obtain ⟨before, writes, sub⟩ := walk.served fd target.1 target.2
    rw [writes]
    exact sub.append (List.Sublist.refl _)
  · have sub := walk.unserved fd
      fun member => by_contra fun differs => target ⟨member, differs⟩
    exact sub.trans (List.sublist_append_left ..)

theorem walk_end {accepted : List Int} {userCnt : Nat} {calls : List Call} {k i : Nat}
    {socket : Int} {message : Message} {earlier : List Message}
    (walk : Walk accepted userCnt calls k socket message i earlier) :
    Rest (calls ++ [.finished message]) k := by
  have reads : readBy k (calls ++ [.finished message]) = earlier ++ [message] := by
    simp [walk.reads]
  constructor
  · intro fd
    have same : receivedFrom k fd (calls ++ [.finished message]) = receivedFrom k fd calls := by
      simp [receivedFrom]
    rw [same, reads, ← walk.reads]
    exact walk_ordered walk fd
  · intro other finished own
    rw [reads]
    rcases List.mem_append.mp finished with old | new
    · exact List.mem_append_left _ (walk.done other old own)
    · have same : other = message := by simpa using new
      exact same ▸ List.mem_append_right _ (List.mem_singleton_self _)

/-- The last test of the loop: every entry that was there has been served. -/
theorem walk_served_once {accepted : List Int} {userCnt : Nat} {calls : List Call} {k i j : Nat}
    {socket : Int} {message : Message} {earlier : List Message}
    (walk : Walk accepted userCnt calls k socket message i earlier)
    (unique : accepted.Nodup) (own : accepted[k]? = some socket) (small : j < i)
    (listed : j < accepted.length) (other : j ≠ k) :
    ∃ fd, accepted[j]? = some fd ∧ (received fd calls).count message = 1 := by
  have found := List.getElem?_eq_getElem listed
  refine ⟨_, found, ?_⟩
  have member : accepted[j] ∈ accepted.take i := by
    apply List.mem_take_iff_getElem.mpr
    exact ⟨j, by omega, rfl⟩
  have differs : accepted[j] ≠ socket := by
    intro same
    obtain ⟨inside, equal⟩ := List.getElem?_eq_some_iff.mp own
    exact other ((unique.getElem_inj_iff ..).mp (same.trans equal.symm))
  obtain ⟨before, writes, sub⟩ := walk.served _ member differs
  -- what others sent is no copy of the message, nor is what its sender sent before
  have filtered : (received accepted[j] calls).count message =
      (receivedFrom k accepted[j] calls).count message := by
    rw [receivedFrom, List.count_filter]
    simp [walk.sender]
  have absent : message ∉ before := fun member => walk.fresh (sub.subset member)
  rw [filtered, writes, List.count_append, List.count_eq_zero_of_not_mem absent]
  simp

theorem not_read_yet {server : Server} {calls : List Call} {k : Nat} {message : Message}
    (inv : ChatInv calls server) (number : message.number = server.messages) :
    message ∉ readBy k calls := by
  intro member
  obtain ⟨call, found, same⟩ := List.mem_filterMap.mp member
  cases call with
  | read old count =>
      simp only [Option.ite_none_right_eq_some, Option.some.injEq] at same
      obtain ⟨_, rfl⟩ := same
      have less := (inv.numbers old count found).1
      omega
  | storeSock index fd => cases same
  | storeThread index => cases same
  | sawEnd reader => cases same
  | write entry fd other ended => cases same
  | finished other => cases same

theorem complete_read {server : Server} {calls : List Call} {k count : Nat} {message : Message}
    (inv : ChatInv calls server) (rest : Rest calls k) (sender : message.sender = k)
    (number : message.number = server.messages) :
    Complete server.accepted (calls ++ [.read message count]) := by
  intro other users read finished j small differs
  have done : Call.finished other ∈ calls := by simpa using finished
  have old : Call.read other users ∈ calls := by
    rcases List.mem_append.mp read with old | new
    · exact old
    · simp only [List.mem_singleton, Call.read.injEq] at new
      obtain ⟨rfl, _⟩ := new
      exact absurd (rest.done other done sender) (not_read_yet inv number)
  obtain ⟨fd, entry, once⟩ := inv.complete other users old done j small differs
  exact ⟨fd, entry, by simpa using once⟩

theorem complete_send {server : Server} {calls : List Call} {k i : Nat} {socket fd : Int}
    {message : Message} {ended : Bool} {earlier : List Message} (inv : ChatInv calls server)
    (walk : Walk server.accepted server.userCnt calls k socket message i earlier) :
    Complete server.accepted (calls ++ [.write i fd message ended]) := by
  intro other users read finished j small differs
  have done : Call.finished other ∈ calls := by simpa using finished
  have old : Call.read other users ∈ calls := by simpa using read
  have apart : message ≠ other := by
    rintro rfl
    exact walk.fresh (walk.done message done walk.sender)
  obtain ⟨client, entry, once⟩ := inv.complete other users old done j small differs
  refine ⟨client, entry, ?_⟩
  have none : (received client [Call.write i fd message ended]).count other = 0 := by
    apply List.count_eq_zero_of_not_mem
    intro member
    rw [received_write] at member
    split at member
    · exact apart (List.mem_singleton.mp member).symm
    · cases member
  rw [received_append, List.count_append, once, none]

theorem complete_finish {server : Server} {calls : List Call} {k i : Nat} {reader : Reader}
    {message : Message} {earlier : List Message} (inv : ChatInv calls server)
    (found : server.readers[k]? = some reader)
    (walk : Walk server.accepted server.userCnt calls k reader.socket message i earlier)
    (past : server.userCnt ≤ i) :
    Complete server.accepted (calls ++ [.finished message]) := by
  intro other users read finished j small differs
  have old : Call.read other users ∈ calls := by simpa using read
  rcases List.mem_append.mp finished with done | now
  · obtain ⟨client, entry, once⟩ := inv.complete other users old done j small differs
    exact ⟨client, entry, by simpa using once⟩
  · obtain rfl : other = message := by simpa using now
    -- `user_cnt` has only grown since the read, and the loop has come up to it
    have bound := (inv.numbers other users old).2.1
    have listed := inv.listed
    rw [walk.sender] at differs
    obtain ⟨client, entry, once⟩ := walk_served_once walk inv.unique
      (inv.own k reader found) (by omega) (by omega) differs
    exact ⟨client, entry, by simpa using once⟩

theorem silent_nil (k : Nat) : Silent k [] := by
  refine ⟨rfl, fun _ => rfl, ?_⟩
  intro message member
  cases member

theorem silent_read {k count : Nat} {message : Message} (other : message.sender ≠ k) :
    Silent k [.read message count] := by
  refine ⟨by simp [readBy, other], fun fd => by simp [receivedFrom], ?_⟩
  intro done member
  simp at member

theorem silent_write {k i : Nat} {fd : Int} {message : Message} {ended : Bool}
    (other : message.sender ≠ k) : Silent k [.write i fd message ended] := by
  refine ⟨rfl, ?_, ?_⟩
  · intro client
    apply List.filter_eq_nil_iff.mpr
    intro sent member
    rw [received_write] at member
    split at member
    · rw [List.mem_singleton.mp member]
      simpa using other
    · cases member
  · intro done member
    simp at member

theorem silent_finished {k : Nat} {message : Message} (other : message.sender ≠ k) :
    Silent k [.finished message] := by
  refine ⟨rfl, fun fd => rfl, ?_⟩
  intro done member
  rw [Call.finished.inj (List.mem_singleton.mp member)]
  exact other

theorem rest_new {server : Server} {calls : List Call} {k : Nat} (inv : ChatInv calls server)
    (late : server.readers.length ≤ k) : Rest calls k := by
  constructor
  · intro fd
    have none : receivedFrom k fd calls = [] := by
      apply List.filter_eq_nil_iff.mpr
      intro message member
      have thread := (inv.apart fd message member).2
      simp only [decide_eq_true_eq]
      omega
    rw [none]
    exact List.nil_sublist _
  · intro message finished own
    have thread := inv.ended message finished
    omega

/-! The cases of a step. -/

theorem kept_table {server : Server} {calls : List Call} (inv : ChatInv calls server) (fd : Int)
    (counted : server.userCnt = server.accepted.length) (j : Nat) (client : Int)
    (found : server.accepted[j]? = some client) :
    Function.update server.sockConnect server.userCnt fd j = client := by
  obtain ⟨small, _⟩ := List.getElem?_eq_some_iff.mp found
  rw [Function.update_of_ne (by omega)]
  exact inv.table j client found

theorem kept_entries (server : Server) (fd : Int) (i : Nat) (small : i < server.userCnt) :
    Function.update server.sockConnect server.userCnt fd i = server.sockConnect i :=
  Function.update_of_ne (Nat.ne_of_lt small) ..

theorem chat_acceptFailed {server : Server} {calls : List Call} (inv : ChatInv calls server)
    (waiting : server.pc = .accepting) :
    ChatInv (calls ++ [.storeSock server.userCnt (-1)])
      { server with
        sockConnect := Function.update server.sockConnect server.userCnt (-1)
        pc := .exited } := by
  have counted := inv.counted
  rw [Counted, waiting] at counted
  apply chat_main inv []
  case accepted => exact (List.append_nil _).symm
  case entries => exact kept_entries server (-1)
  case table => exact kept_table inv (-1) counted.1
  case quiet =>
      intro call member
      exact .inl ⟨_, _, List.mem_singleton.mp member⟩
  case readers => exact fun _ _ found => .inl found
  case unique => exact inv.unique
  case listed => exact inv.listed
  case threads => exact inv.threads
  case own => exact inv.own
  case counted => trivial
  all_goals rfl

theorem chat_accepted {server : Server} {calls : List Call} (inv : ChatInv calls server)
    {fd : Int} (waiting : server.pc = .accepting) (fresh : fd ∉ server.accepted) :
    ChatInv (calls ++ [.storeSock server.userCnt fd])
      { server with
        sockConnect := Function.update server.sockConnect server.userCnt fd
        accepted := server.accepted ++ [fd]
        pc := .counting } := by
  have counted := inv.counted
  rw [Counted, waiting] at counted
  have listed := inv.listed
  apply chat_main inv [fd]
  case entries => exact kept_entries server fd
  case quiet =>
      intro call member
      exact .inl ⟨_, _, List.mem_singleton.mp member⟩
  case readers => exact fun _ _ found => .inl found
  case counted => simp [Counted, counted]
  case table =>
      intro j client found
      rcases Lookup.found_append found with old | ⟨last, rfl⟩
      · exact kept_table inv fd counted.1 j client old
      · obtain rfl : j = server.userCnt := last.trans counted.1.symm
        exact Function.update_self ..
  case unique =>
      apply List.nodup_append.mpr
      refine ⟨inv.unique, List.nodup_singleton _, ?_⟩
      rintro client member other single rfl
      exact fresh (List.mem_singleton.mp single ▸ member)
  case listed => simpa using Nat.le_succ_of_le listed
  case threads => simpa using Nat.le_succ_of_le inv.threads
  case own =>
      intro k reader found
      obtain ⟨inside, _⟩ := List.getElem?_eq_some_iff.mp found
      rw [List.getElem?_append_left (Nat.lt_of_lt_of_le inside inv.threads)]
      exact inv.own k reader found
  all_goals rfl

/-- With the socket read before the counter, the thread gets the connection
just accepted. -/
theorem chat_counted {server : Server} {calls : List Call} (inv : ChatInv calls server)
    {socket : Int} (stored : server.pc = .counting)
    (own : socket = server.sockConnect server.userCnt) :
    ChatInv (calls ++ [.storeThread server.userCnt])
      { server with userCnt := server.userCnt + 1, pc := .creating socket } := by
  have counted := inv.counted
  rw [Counted, stored] at counted
  obtain ⟨one, threads⟩ := counted
  have entry : server.accepted[server.userCnt]? = some socket := by
    have small : server.userCnt < server.accepted.length := by omega
    have found := List.getElem?_eq_getElem small
    rw [own, inv.table _ _ found]
    exact found
  apply chat_main inv []
  case accepted => exact (List.append_nil _).symm
  case quiet =>
      intro call member
      exact .inr ⟨_, List.mem_singleton.mp member⟩
  case readers => exact fun _ _ found => .inl found
  case counts => exact Nat.le_succ _
  case counted => exact ⟨one, congrArg (· + 1) threads, threads.symm ▸ entry⟩
  case table => exact inv.table
  case unique => exact inv.unique
  case listed => exact Nat.le_of_eq one
  case threads => exact inv.threads
  case own => exact inv.own
  all_goals intros; rfl

theorem chat_created {server : Server} {calls : List Call} (inv : ChatInv calls server)
    {socket : Int} (ready : server.pc = .creating socket) :
    ChatInv (calls ++ [])
      { server with
        readers := server.readers ++ [{ socket := socket, pc := .reading }]
        pc := .accepting } := by
  have counted := inv.counted
  rw [Counted, ready] at counted
  obtain ⟨all, one, entry⟩ := counted
  apply chat_main inv []
  case accepted => exact (List.append_nil _).symm
  case quiet =>
      intro call member
      cases member
  case readers =>
      intro k reader found
      rcases Lookup.found_append found with old | ⟨rfl, rfl⟩
      · exact .inl old
      · rw [List.append_nil]
        exact .inr (rest_new inv (Nat.le_refl _))
  case counted => exact ⟨all, by simp [one]⟩
  case table => exact inv.table
  case unique => exact inv.unique
  case listed => exact inv.listed
  case threads =>
      simp only [List.length_append, List.length_singleton]
      omega
  case grown => simp
  case own =>
      intro k reader found
      rcases Lookup.found_append found with old | ⟨rfl, rfl⟩
      · exact inv.own k reader old
      · exact entry
  all_goals intros; rfl

theorem chat_createFailed {server : Server} {calls : List Call} (inv : ChatInv calls server) :
    ChatInv (calls ++ []) { server with pc := .exited } := by
  apply chat_main inv []
  case accepted => exact (List.append_nil _).symm
  case quiet =>
      intro call member
      cases member
  case readers => exact fun _ _ found => .inl found
  case counted => trivial
  case table => exact inv.table
  case unique => exact inv.unique
  case listed => exact inv.listed
  case threads => exact inv.threads
  case own => exact inv.own
  all_goals intros; rfl

theorem chat_received {server : Server} {calls : List Call} (inv : ChatInv calls server)
    {k : Nat} {reader : Reader} {message : Message} (found : server.readers[k]? = some reader)
    (reading : reader.pc = .reading) (sender : message.sender = k)
    (number : message.number = server.messages) :
    ChatInv (calls ++ [.read message server.userCnt])
      { setReader server k reader (.test message 0) with messages := server.messages + 1 } := by
  have rest := inv.readers k reader found
  rw [ReaderInv, reading] at rest
  apply chat_reader inv found (Nat.le_succ _)
  · intro other differs
    exact silent_read (sender.trans_ne (Ne.symm differs))
  · intro old users member
    simp only [List.mem_singleton, Call.read.injEq] at member
    obtain ⟨rfl, rfl⟩ := member
    exact ⟨by omega, Nat.le_refl _, sender⟩
  · intro fd old member
    simp at member
  · intro old member
    simp at member
  -- numbers are not used twice, so the message is a new one
  · exact ⟨_, walk_start rest sender (not_read_yet inv number)⟩
  · exact complete_read inv rest sender number

theorem chat_moved {server : Server} {calls : List Call} (inv : ChatInv calls server) {k : Nat}
    {reader : Reader} {pc : ReaderPc} (found : server.readers[k]? = some reader)
    (moved : ReaderInv server calls k { reader with pc := pc }) :
    ChatInv (calls ++ []) (setReader server k reader pc) := by
  apply chat_reader inv found (Nat.le_refl _)
  · exact fun other _ => silent_nil other
  · intro old users member
    cases member
  · intro fd old member
    cases member
  · intro old member
    cases member
  · rw [List.append_nil]
    exact moved
  · rw [List.append_nil]
    exact inv.complete

theorem chat_finished {server : Server} {calls : List Call} (inv : ChatInv calls server) {k : Nat}
    {reader : Reader} {message : Message} {i : Nat} (found : server.readers[k]? = some reader)
    (here : reader.pc = .test message i) (past : server.userCnt ≤ i) :
    ChatInv (calls ++ [.finished message]) (setReader server k reader .reading) := by
  have walking := inv.readers k reader found
  rw [ReaderInv, here] at walking
  obtain ⟨earlier, walk⟩ := walking
  apply chat_reader inv found (Nat.le_refl _)
  · intro other differs
    exact silent_finished (walk.sender.trans_ne (Ne.symm differs))
  · intro old users member
    simp at member
  · intro fd old member
    simp at member
  · intro old member
    rw [Call.finished.inj (List.mem_singleton.mp member)]
    exact walk.sender
  · exact walk_end walk
  · exact complete_finish inv found walk past

theorem chat_sent {server : Server} {calls : List Call} (inv : ChatInv calls server) {k : Nat}
    {reader : Reader} {message : Message} {i : Nat} {ended : Bool}
    (found : server.readers[k]? = some reader) (here : reader.pc = .send message i) :
    ChatInv (calls ++ [.write i (server.sockConnect i) message ended])
      (setReader server k reader (.test message (i + 1))) := by
  have walking := inv.readers k reader found
  rw [ReaderInv, here] at walking
  obtain ⟨⟨earlier, walk⟩, inside, other⟩ := walking
  have entry := entry_of_inside inv inside
  apply chat_reader inv found (Nat.le_refl _)
  · intro other differs
    exact silent_write (walk.sender.trans_ne (Ne.symm differs))
  · intro old users member
    simp at member
  · intro fd old member
    rw [received_write] at member
    split at member
    case isTrue same =>
        rw [List.mem_singleton.mp member, ← same]
        exact ⟨walk.sender, Ne.symm other⟩
    case isFalse => cases member
  · intro old member
    simp at member
  · exact ⟨earlier, walk_send walk inside inv.unique entry other⟩
  · exact complete_send inv walk

theorem chatInv_step {server next : Server} {event : Event} {calls made : List Call}
    (inv : ChatInv calls server) (ok : ChatOk server event)
    (taken : step server event = some (next, made)) : ChatInv (calls ++ made) next := by
  cases turn_of_step taken with
  | acceptFailed waiting => exact chat_acceptFailed inv waiting
  | accepted fd waiting valid fresh => exact chat_accepted inv waiting fresh
  | counted order socket stored own after => exact chat_counted inv stored (own ok)
  | created socket ready => exact chat_created inv ready
  | createFailed socket ready => exact chat_createFailed inv
  | ended k reader found reading => exact absurd rfl ok
  | received k reader result message found reading more sender number =>
      exact chat_received inv found reading sender number
  | skipped k reader message i found here inside own =>
      have walking := inv.readers k reader found
      rw [ReaderInv, here] at walking
      obtain ⟨earlier, walk⟩ := walking
      have entry := entry_of_inside inv inside
      exact chat_moved inv found ⟨earlier, walk_skip walk inside (own ▸ entry)⟩
  | chosen k reader message i found here inside other =>
      have walking := inv.readers k reader found
      rw [ReaderInv, here] at walking
      exact chat_moved inv found ⟨walking, inside, other⟩
  | finished k reader message i found here past => exact chat_finished inv found here past
  | sent k reader message i found here => exact chat_sent inv found here

theorem chatInv_start (beyond : Nat → Int) : ChatInv [] (start beyond) := by
  constructor
  case counted => exact ⟨rfl, rfl⟩
  case complete => intro message count member; cases member
  all_goals simp [start, received]

theorem ordered_of_inv {calls : List Call} {server : Server} (inv : ChatInv calls server)
    (k : Nat) (fd : Int) : (receivedFrom k fd calls).Sublist (readBy k calls) := by
  cases found : server.readers[k]? with
  | none => exact (rest_new inv (List.getElem?_eq_none_iff.mp found)).ordered fd
  | some reader =>
      have shown := inv.readers k reader found
      unfold ReaderInv at shown
      cases pc : reader.pc with
      | reading =>
          rw [pc] at shown
          exact shown.ordered fd
      | ended =>
          rw [pc] at shown
          exact shown.ordered fd
      | test message i =>
          rw [pc] at shown
          obtain ⟨earlier, walk⟩ := shown
          exact walk_ordered walk fd
      | send message i =>
          rw [pc] at shown
          obtain ⟨⟨earlier, walk⟩, _⟩ := shown
          exact walk_ordered walk fd

theorem distinct_turn {server next : Server} {event : Event} {calls made : List Call}
    (inv : ChatInv calls server) (distinct : ∀ k, (readBy k calls).Nodup)
    (turn : Turn server event next made) (k : Nat) : (readBy k (calls ++ made)).Nodup := by
  rw [readBy_append]
  cases turn with
  | received reader _ _ message _ _ _ sender number =>
      by_cases own : message.sender = k
      · have reads : readBy k [Call.read message server.userCnt] = [message] := by
          simp [readBy, own]
        rw [reads, List.nodup_append]
        refine ⟨distinct k, List.nodup_singleton _, ?_⟩
        rintro old member new single rfl
        exact not_read_yet inv number (List.mem_singleton.mp single ▸ member)
      · simpa [readBy, own] using distinct k
  | _ => simpa [readBy] using distinct k

/-- A client gets nothing of its own; of each other client it gets a
subsequence of what the server read, nothing twice; and when a `writeSock` call
is over, every other client counted before its message was read has got the
message exactly once. -/
theorem broadcast_exact (beyond : Nat → Int) (events : List Event) (server : Server)
    (calls : List Call) (guarded : Along step ChatOk (start beyond) events)
    (ran : exec step (start beyond) events = some (server, calls)) :
    (∀ fd, ∀ message ∈ received fd calls, server.accepted[message.sender]? ≠ some fd) ∧
      (∀ k fd, (receivedFrom k fd calls).Sublist (readBy k calls) ∧
        (receivedFrom k fd calls).Nodup) ∧
      ∀ message count, Call.read message count ∈ calls → Call.finished message ∈ calls →
        ∀ j < count, j ≠ message.sender →
          ∃ fd, server.accepted[j]? = some fd ∧ (received fd calls).count message = 1 := by
  have kept := Machine.exec_invariant_along
    (fun calls server => ChatInv calls server ∧ ∀ k, (readBy k calls).Nodup)
    (fun _ _ _ _ _ inv ok taken =>
      ⟨chatInv_step inv.1 ok taken, distinct_turn inv.1 inv.2 (turn_of_step taken)⟩)
    ⟨chatInv_start beyond, fun _ => List.nodup_nil⟩ guarded ran
  obtain ⟨inv, distinct⟩ := kept
  refine ⟨fun fd message member => (inv.apart fd message member).1, ?_, inv.complete⟩
  intro k fd
  have sub := ordered_of_inv inv k fd
  exact ⟨sub, sub.nodup (distinct k)⟩

/-- Two clients speak at the same time; the third connects while they do. -/
def twoSpeakers : List Event :=
  [.accept 4, .count .socketFirst, .create, .accept 5, .count .socketFirst, .create,
    .read 0 (.bytes [104]), .read 1 (.bytes [121]), .accept 6, .test 1, .count .socketFirst,
    .test 0, .test 0, .write 1, .write 0, .test 1, .test 1, .write 1, .test 1,
    .test 0, .write 0, .create, .test 0]

theorem broadcast_exact_twoSpeakers :
    ∃ server calls, exec step (start fun _ => 0) twoSpeakers = some (server, calls) ∧
      ∃ fd, server.accepted[1]? = some fd ∧
        (received fd calls).count ⟨0, 0, 1, [104]⟩ = 1 := by
  refine ⟨_, _, rfl, ?_⟩
  have exact := broadcast_exact (fun _ => 0) twoSpeakers _ _
    ((Machine.misses_zero_iff _ _).mp (by decide)) rfl
  exact exact.2.2 ⟨0, 0, 1, [104]⟩ 2 (by decide) (by decide) 1 (by decide) (by decide)

end NetworkTest.ChatServer
