import NetworkTest.Endings
import NetworkTest.LineEcho
import NetworkTest.LineStores

/-!
A session of the client of tue/ls_srv_client with its server: a word goes up
with its zero, the names of the directory come down, and the server closes. The
server's `rBuffer` is global, and holds here whatever earlier sessions have left.
The word is one that fits the client's `buffer`, and the connection holds until one
of the two closes.
-/

namespace NetworkTest.LsSession

open CBuffer (Bytes BUFSIZ Memory cstring)
open Channel (Link)
open Endings (Ends)
open LineReader (Holds Reader)
open LineStores (Loop)
open Machine (Step exec)

def ls : Bytes := [108, 115]

def err_1 : Bytes := [68, 105, 114, 101, 99, 116, 111, 114, 121, 32, 69, 114, 114, 111, 114]

/-- What `readdir` returns. -/
structure Dirent where
  d_ino : Nat
  d_name : Bytes
  deriving DecidableEq

inductive ClientPc where
  | scanning
  | writing
  | receiving
  | printed
  deriving DecidableEq

/-- `failing` is before the error is written, `blank` before the blank behind a name;
SIGPIPE has `killed` the server. -/
inductive ServerPc where
  | reading
  | failing
  | listing (rest : List Dirent)
  | blank (rest : List Dirent)
  | closing
  | closed
  | killed
  deriving DecidableEq

/-- `word` is in the client's `buffer`. -/
structure System where
  client : ClientPc
  word : Bytes
  rcvLoop : Loop BUFSIZ
  up : Link UInt8
  server : ServerPc
  rLoop : Loop BUFSIZ
  down : Link UInt8

/-- What becomes of a write of the server. -/
inductive Written where
  | whole
  | failed
  | killed
  deriving DecidableEq

/-- The client's write takes all its bytes. `written` is the result of the server's
write, where its step is one. -/
inductive Event where
  | scan (word : Bytes)
  | write
  | read (result : Option Bytes)
  | serverRead (result : Option Bytes)
  | serverGoes (written : Written)
  deriving DecidableEq

/-- The places where the two loops store. `received` also reports the word of the
session. -/
inductive Call where
  | store (index : Nat)
  | serverStore (index : Nat)
  | received (text word : Bytes)
  deriving DecidableEq

/-- A word that `scanf` puts into `buffer`, and that fits there: `%s` has no width, and
a longer word would be stored behind it. -/
def Entered (word : Bytes) : Prop :=
  word ≠ [] ∧ (∀ byte ∈ word, byte ≠ 0 ∧ ¬ LineEcho.Space byte) ∧ word.length < BUFSIZ

instance (word : Bytes) : Decidable (Entered word) := inferInstanceAs (Decidable (_ ∧ _))

/-- What `read` of one byte returns, as the loops see it. -/
def seen : Option Bytes → LineStores.Event
  | some (byte :: _) => .byte byte
  | some [] => .ended
  | none => .failed

/-- Behind the server's read loop; `directory` is what `opendir(".")` finds. -/
def answer (directory : Option (List Dirent)) (text : Bytes) : ServerPc :=
  if text = ls then
    match directory with
    | none => .failing
    | some entries => .listing entries
  else .closing

/-- The server writes, and does not look at the result. Once the client has closed the
write may fail, with ECONNRESET or with the SIGPIPE that ends the server. -/
def serverWrites (system : System) (data : Bytes) (behind : ServerPc) : Written → Option System
  | .whole => some { system with down := system.down.send data, server := behind }
  | .failed =>
      if system.client = .printed then some { system with server := behind } else none
  | .killed =>
      if system.client = .printed then
        some { system with down := system.down.close, server := .killed }
      else none

def serverGoes (system : System) (written : Written) : Option System :=
  match system.server with
  | .reading => none
  | .failing => serverWrites system err_1 .closing written
  | .listing [] => some { system with server := .closing }
  | .listing (dir :: rest) =>
      if dir.d_ino = 0 then some { system with server := .listing rest }
      else serverWrites system (cstring dir.d_name) (.blank rest) written
  | .blank rest => serverWrites system [32] (.listing rest) written
  | .closing => some { system with down := system.down.close, server := .closed }
  | .closed => none
  | .killed => none

def step (directory : Option (List Dirent)) : Step System Event Call := fun system event =>
  match event with
  | .scan word =>
      if system.client = .scanning ∧ Entered word then
        some ({ system with word := word, client := .writing }, [])
      else none
  | .write =>
      if system.client = .writing then
        some ({ system with up := system.up.send (system.word ++ [0]), client := .receiving }, [])
      else none
  | .read result =>
      if system.client = .receiving then
        match system.down.read 1 result,
            LineStores.step .ls_client system.rcvLoop (seen result) with
        | some down, some (loop, stores) =>
            if loop.pc = .done then
              some ({ system with
                  down := down, rcvLoop := loop, client := .printed, up := system.up.close },
                stores.map .store ++ [.received loop.reader.text system.word])
            else some ({ system with down := down, rcvLoop := loop }, stores.map .store)
        | _, _ => none
      else none
  | .serverRead result =>
      if system.server = .reading then
        match system.up.read 1 result, LineStores.step .ls_server system.rLoop (seen result) with
        | some up, some (loop, stores) =>
            some ({ system with
                up := up
                rLoop := loop
                server :=
                  if loop.pc = .done then answer directory loop.reader.text else .reading },
              stores.map .serverStore)
        | _, _ => none
      else none
  | .serverGoes written =>
      match serverGoes system written with
      | none => none
      | some next => some (next, [])

def start (rcvBuffer rBuffer : Memory BUFSIZ) : System where
  client := .scanning
  word := []
  rcvLoop := LineStores.start rcvBuffer
  up := .fresh
  server := .reading
  rLoop := LineStores.start rBuffer
  down := .fresh

/-! What the server has to say. -/

def shown (entries : List Dirent) : Bytes :=
  entries.flatMap fun dir => if dir.d_ino = 0 then [] else cstring dir.d_name ++ [32]

/-- The names of the directory, each with a blank behind it. -/
def reply (directory : Option (List Dirent)) (word : Bytes) : Bytes :=
  if word = ls then
    match directory with
    | none => err_1
    | some entries => shown entries
  else []

def ServerPc.pending : ServerPc → Bytes
  | .failing => err_1
  | .listing rest => shown rest
  | .blank rest => 32 :: shown rest
  | _ => []

def ServerPc.busy : ServerPc → Nat
  | .failing => 2
  | .listing rest => 2 * rest.length + 2
  | .blank rest => 2 * rest.length + 3
  | .closing => 1
  | _ => 0

theorem pending_answer (directory : Option (List Dirent)) (word : Bytes) :
    (answer directory word).pending = reply directory word := by
  unfold answer reply
  split
  case isTrue =>
      cases directory with
      | none => rfl
      | some entries => rfl
  case isFalse => rfl

def ServerPc.Gone (server : ServerPc) : Prop := server = .closed ∨ server = .killed

theorem answer_under_way (directory : Option (List Dirent)) (text : Bytes) :
    answer directory text ≠ .reading ∧ ¬ (answer directory text).Gone := by
  unfold answer
  split
  · split <;> simp [ServerPc.Gone]
  · simp [ServerPc.Gone]

theorem shown_nonzero (entries : List Dirent) : ∀ byte ∈ shown entries, byte ≠ 0 := by
  intro byte member
  obtain ⟨dir, _, inside⟩ := List.mem_flatMap.mp member
  split at inside
  · simp at inside
  · rcases List.mem_append.mp inside with name | blank
    · exact CBuffer.cstring_nonzero _ byte name
    · rw [List.mem_singleton.mp blank]
      decide

theorem reply_nonzero (directory : Option (List Dirent)) (word : Bytes) :
    ∀ byte ∈ reply directory word, byte ≠ 0 := by
  unfold reply
  split
  case isTrue =>
      cases directory with
      | none => simp [err_1]
      | some entries => exact shown_nonzero entries
  case isFalse => simp

/-! What one step can do. -/

inductive Turn (directory : Option (List Dirent)) (system : System) :
    Event → System → List Call → Prop where
  | scans (word : Bytes) (here : system.client = .scanning) (valid : Entered word) :
      Turn directory system (.scan word) { system with word := word, client := .writing } []
  | writes (here : system.client = .writing) :
      Turn directory system .write
        { system with up := system.up.send (system.word ++ [0]), client := .receiving } []
  | reads (result : Option Bytes) (down : Link UInt8) (loop : Loop BUFSIZ) (stores : List Nat)
      (here : system.client = .receiving) (got : system.down.read 1 result = some down)
      (turn : LineStores.Turn .ls_client system.rcvLoop (seen result) loop stores)
      (more : loop.pc = .reading) :
      Turn directory system (.read result) { system with down := down, rcvLoop := loop }
        (stores.map .store)
  | prints (result : Option Bytes) (down : Link UInt8) (loop : Loop BUFSIZ) (stores : List Nat)
      (here : system.client = .receiving) (got : system.down.read 1 result = some down)
      (turn : LineStores.Turn .ls_client system.rcvLoop (seen result) loop stores)
      (done : loop.pc = .done) :
      Turn directory system (.read result)
        { system with down := down, rcvLoop := loop, client := .printed, up := system.up.close }
        (stores.map .store ++ [.received loop.reader.text system.word])
  | serverReads (result : Option Bytes) (up : Link UInt8) (loop : Loop BUFSIZ)
      (stores : List Nat) (here : system.server = .reading)
      (got : system.up.read 1 result = some up)
      (turn : LineStores.Turn .ls_server system.rLoop (seen result) loop stores) :
      Turn directory system (.serverRead result)
        { system with
          up := up
          rLoop := loop
          server := if loop.pc = .done then answer directory loop.reader.text else .reading }
        (stores.map .serverStore)
  | goes (written : Written) (next : System) (went : serverGoes system written = some next) :
      Turn directory system (.serverGoes written) next []

theorem turn_of_step {directory : Option (List Dirent)} {system next : System} {event : Event}
    {made : List Call} (taken : step directory system event = some (next, made)) :
    Turn directory system event next made := by
  cases event with
  | scan word =>
      simp only [step, Option.ite_none_right_eq_some, Option.some.injEq, Prod.mk.injEq] at taken
      obtain ⟨⟨here, valid⟩, rfl, rfl⟩ := taken
      exact .scans word here valid
  | write =>
      simp only [step, Option.ite_none_right_eq_some, Option.some.injEq, Prod.mk.injEq] at taken
      obtain ⟨here, rfl, rfl⟩ := taken
      exact .writes here
  | read result =>
      simp only [step, Option.ite_none_right_eq_some] at taken
      obtain ⟨here, taken⟩ := taken
      split at taken
      case h_2 => contradiction
      case h_1 down loop stores got stepped =>
          have turn := LineStores.turn_of_step stepped
          split at taken
          case isTrue done =>
              cases taken
              exact .prints result down loop stores here got turn done
          case isFalse more =>
              cases taken
              refine .reads result down loop stores here got turn ?_
              cases reached : loop.pc with
              | reading => rfl
              | done => exact absurd reached more
  | serverRead result =>
      simp only [step, Option.ite_none_right_eq_some] at taken
      obtain ⟨here, taken⟩ := taken
      split at taken
      case h_2 => contradiction
      case h_1 up loop stores got stepped =>
          cases taken
          exact .serverReads result up loop stores here got (LineStores.turn_of_step stepped)
  | serverGoes written =>
      simp only [step] at taken
      split at taken
      case h_1 => contradiction
      case h_2 later went =>
          cases taken
          exact .goes written _ went

/-! What holds between two steps. -/

/-- The reply fits the client's buffer, with its zero. -/
def Short (directory : Option (List Dirent)) (word : Bytes) : Prop :=
  (reply directory word).length < BUFSIZ

instance (directory : Option (List Dirent)) (word : Bytes) : Decidable (Short directory word) :=
  inferInstanceAs (Decidable (_ < _))

/-- A loop that reads has stored what has come, at most the whole buffer. -/
structure Stored (loop : Loop BUFSIZ) (taken : Bytes) : Prop where
  reading : loop.pc = .reading
  holds : Holds loop.reader taken
  length : loop.reader.length = taken.length

def Asked (system : System) : Prop := system.client = .receiving ∨ system.client = .printed

structure Inv (directory : Option (List Dirent)) (system : System) : Prop where
  up : system.up.broken = false
  down : system.down.broken = false
  valid : system.client ≠ .scanning → Entered system.word
  silent : ¬ Asked system → system.up.sent = []
  asked : Asked system → system.up.sent = system.word ++ [0]
  hears : system.server = .reading →
    Stored system.rLoop system.up.taken ∧ 0 ∉ system.up.taken ∧ system.down.sent = [] ∧
      system.up.closed = false ∧ system.client ≠ .printed
  answers : system.server ≠ .reading → Asked system
  spoken : system.server ≠ .reading → system.client ≠ .printed →
    system.down.sent ++ system.server.pending = reply directory system.word
  ended : system.down.closed = true ↔ system.server.Gone
  alive : system.client ≠ .printed → system.server ≠ .killed
  waited : system.client = .printed → Short directory system.word → system.server = .closed
  receives : system.client ≠ .printed →
    Stored system.rcvLoop system.down.taken ∧ system.down.taken.length ≤ BUFSIZ

theorem inv_start (directory : Option (List Dirent)) (rcvBuffer rBuffer : Memory BUFSIZ) :
    Inv directory (start rcvBuffer rBuffer) := by
  constructor
  case up => rfl
  case down => rfl
  case valid => exact fun other => absurd rfl other
  case silent => exact fun _ => rfl
  case asked => simp [Asked, start]
  case hears =>
      exact fun _ => ⟨⟨rfl, LineReader.holds_nil _ rfl, rfl⟩, List.not_mem_nil, rfl, rfl, nofun⟩
  case answers => exact fun other => absurd rfl other
  case spoken => exact fun other => absurd rfl other
  case ended => simp [start, Link.fresh, ServerPc.Gone]
  case alive => simp [start]
  case waited => simp [start]
  case receives => exact fun _ => ⟨⟨rfl, LineReader.holds_nil _ rfl, rfl⟩, Nat.zero_le _⟩

/-- What has come down or is on its way is the front of the reply. -/
theorem reply_coming {directory : Option (List Dirent)} {system : System}
    (inv : Inv directory system) (unprinted : system.client ≠ .printed) :
    system.down.taken ++ system.down.arriving <+: reply directory system.word := by
  have came := system.down.ordered
  by_cases here : system.server = .reading
  · rw [(inv.hears here).2.2.1] at came
    rw [List.prefix_nil.mp came]
    exact List.nil_prefix
  · rw [← inv.spoken here unprinted]
    exact came.trans (List.prefix_append ..)

theorem taken_whole {directory : Option (List Dirent)} {system : System}
    (inv : Inv directory system) (unprinted : system.client ≠ .printed)
    (none : system.down.arriving = []) (closed : system.down.closed = true) :
    system.down.taken = reply directory system.word := by
  have whole := system.down.whole inv.down
  have here := (inv.ended.mp closed).resolve_right (inv.alive unprinted)
  have said := inv.spoken (by simp [here]) unprinted
  rw [none, List.append_nil] at whole
  rw [whole, ← said, here]
  exact (List.append_nil _).symm

theorem next_byte {taken rest word : Bytes} {byte : UInt8}
    (split : taken ++ byte :: rest = word ++ [0]) :
    (rest = [] ∧ byte = 0 ∧ taken = word) ∨ ∃ more, word = taken ++ byte :: more := by
  rcases List.eq_nil_or_concat rest with rfl | ⟨more, last, rfl⟩
  · obtain ⟨same, zero⟩ := List.append_inj' split rfl
    exact .inl ⟨rfl, (List.cons.inj zero).1, same⟩
  · rw [List.concat_eq_append, ← List.cons_append, ← List.append_assoc] at split
    exact .inr ⟨more, (List.append_inj' split rfl).1.symm⟩

theorem entered_kept {word : Bytes} (valid : Entered word) {byte : UInt8} (inside : byte ∈ word) :
    LineReader.Kept byte := by
  obtain ⟨nonzero, visible⟩ := valid.2.1 byte inside
  refine ⟨?_, ?_, nonzero⟩
  · rintro rfl
    exact visible (.inr (by decide))
  · rintro rfl
    exact visible (.inr (by decide))

theorem text_of_holds {reader : Reader BUFSIZ} {text : Bytes} (holds : Holds reader text)
    (length : reader.length = text.length) (short : text.length < BUFSIZ)
    (nonzero : ∀ byte ∈ text, byte ≠ 0) : reader.finish.text = text := by
  have fits : text.length < reader.buffer.val.length := by
    rw [reader.buffer.property]
    exact short
  have split : reader.finish.buffer.val =
      text ++ 0 :: reader.buffer.val.drop (text.length + 1) := by
    have parts := List.take_append_drop text.length reader.buffer.val
    rw [holds.stored, List.drop_eq_getElem_cons fits] at parts
    simp only [Reader.finish, Memory.set]
    rw [length, ← parts, List.set_append_right _ _ (Nat.le_refl _), Nat.sub_self,
      List.set_cons_zero]
    simp
  rw [Reader.text, split, CBuffer.cstring_append_zero, CBuffer.cstring_of_nonzero nonzero]

theorem stored_next {loop : Loop BUFSIZ} {taken : Bytes} {next : Reader BUFSIZ} {byte : UInt8}
    (stored : Stored loop taken) (holds : Holds next (taken ++ [byte]))
    (length : next.length = loop.reader.length + 1) :
    Stored ⟨.reading, next⟩ (taken ++ [byte]) := by
  refine ⟨rfl, holds, ?_⟩
  rw [length, stored.length, List.length_append, List.length_singleton]

theorem server_reads {system : System} {loop : Loop BUFSIZ} {up : Link UInt8} {byte : UInt8}
    {stores : List Nat} (stored : Stored system.rLoop system.up.taken)
    (nonzero : 0 ∉ system.up.taken) (valid : Entered system.word)
    (split : system.up.taken ++ byte :: up.arriving = system.word ++ [0])
    (turn : LineStores.Turn .ls_server system.rLoop (.byte byte) loop stores) :
    (∀ place ∈ stores, place < BUFSIZ) ∧
      ((loop.pc = .reading ∧ Stored loop (system.up.taken ++ [byte]) ∧
          0 ∉ system.up.taken ++ [byte]) ∨
        (loop.pc = .done ∧ loop.reader.text = system.word)) := by
  have few : system.up.taken.length < BUFSIZ := by
    have length := congrArg List.length split
    simp only [List.length_append, List.length_cons, List.length_nil] at length
    have short := valid.2.2
    omega
  have place := stored.holds.place
  have length := stored.length
  have inside : system.rLoop.reader.place < BUFSIZ := by omega
  have room : system.rLoop.reader.length ≠ BUFSIZ := by omega
  -- the byte is the zero that ends the loop, or one more of the word
  rcases next_byte split with ⟨_, rfl, same⟩ | ⟨rest, word⟩
  · obtain ⟨last, counted, zero⟩ := LineReader.pass_zero stored.holds inside
    cases turn with
    | reads _ _ more => exact absurd more (by simp [LineStores.Program.pass, last])
    | stops _ _ nothing => simp at nothing
    | readsLast _ _ _ =>
        refine ⟨?_, .inr ⟨rfl, ?_⟩⟩
        · simp only [LineStores.Program.pass, counted, List.mem_cons, List.not_mem_nil, or_false]
          rintro index (rfl | rfl)
          · exact inside
          · omega
        · rw [← same]
          apply LineReader.text_finish _ zero
          · exact Nat.le_of_eq (length.symm.trans counted.symm)
          · exact fun byte member zero => nonzero (zero ▸ member)
  · have kept := @entered_kept _ valid byte (by simp [word])
    obtain ⟨more, counted, holds⟩ := LineReader.pass_kept stored.holds kept room inside
    cases turn with
    | readsLast _ _ last => exact absurd last (by simp [LineStores.Program.pass, more])
    | stops _ _ nothing => simp at nothing
    | reads _ _ _ =>
        refine ⟨by simpa using inside, .inl ⟨rfl, stored_next stored holds counted, ?_⟩⟩
        simp only [List.mem_append, List.mem_singleton, not_or]
        exact ⟨nonzero, fun zero => kept.2.2 zero.symm⟩

theorem holds_receive {reader : Reader BUFSIZ} {text : Bytes} (holds : Holds reader text)
    (byte : UInt8) (inside : reader.place < BUFSIZ) (room : reader.length ≠ BUFSIZ) :
    Holds (LineStores.receive reader byte).1 (text ++ [byte]) := by
  obtain ⟨place, stored⟩ := holds
  have before : text.length < reader.buffer.val.length := by
    rw [reader.buffer.property]
    omega
  rw [LineStores.receive, if_neg room]
  refine ⟨by simp [place], ?_⟩
  rw [List.length_append, List.length_singleton]
  simp only [Reader.store, Memory.set, place]
  rw [LineReader.take_set_place _ _ before, stored]

/-- What the client's loop does with a byte: it goes on, or the reply is longer than
the buffer. -/
theorem client_reads {directory : Option (List Dirent)} {system : System} {loop : Loop BUFSIZ}
    {down : Link UInt8} {byte : UInt8} {stores : List Nat} (inv : Inv directory system)
    (here : system.client = .receiving) (arriving : system.down.arriving = byte :: down.arriving)
    (turn : LineStores.Turn .ls_client system.rcvLoop (.byte byte) loop stores) :
    (loop.pc = .reading ∧ (∀ place ∈ stores, place < BUFSIZ) ∧
        Stored loop (system.down.taken ++ [byte]) ∧ system.down.taken.length < BUFSIZ) ∨
      (loop.pc = .done ∧ BUFSIZ ∈ stores ∧ BUFSIZ < (reply directory system.word).length) := by
  obtain ⟨stored, within⟩ := inv.receives (by simp [here])
  have place := stored.holds.place
  have length := stored.length
  cases turn with
  | stops _ _ nothing => simp at nothing
  | reads _ _ more =>
      have room : system.rcvLoop.reader.length ≠ BUFSIZ := by
        intro full
        simp [LineStores.Program.pass, LineStores.receive, full] at more
      have inside : system.rcvLoop.reader.place < BUFSIZ := by omega
      have counted : (LineStores.receive system.rcvLoop.reader byte).1.length =
          system.rcvLoop.reader.length + 1 := by
        rw [LineStores.receive, if_neg room]
      exact .inl ⟨rfl, by simpa using inside,
        stored_next stored (holds_receive stored.holds byte inside room) counted, by omega⟩
  | readsLast _ _ last =>
      -- only a full buffer ends this loop before the end of the stream
      have full : system.rcvLoop.reader.length = BUFSIZ := by
        by_contra room
        simp [LineStores.Program.pass, LineStores.receive, room] at last
      have long := (reply_coming inv (by simp [here])).length_le
      rw [arriving, List.length_append, List.length_cons] at long
      refine .inr ⟨rfl, ?_, by omega⟩
      rw [place, ← length, full]
      exact List.mem_cons_self

/-- Both loops store inside their buffers, and what is printed is the reply. -/
def Sound (directory : Option (List Dirent)) : Call → Prop
  | .store index => index < BUFSIZ
  | .serverStore index => index < BUFSIZ
  | .received text word => text = reply directory word

theorem client_ends {directory : Option (List Dirent)} {system : System} {loop : Loop BUFSIZ}
    {stores : List Nat} {event : LineStores.Event} (inv : Inv directory system)
    (here : system.client = .receiving) (none : system.down.arriving = [])
    (closed : system.down.closed = true) (nothing : event = .ended ∨ event = .failed)
    (turn : LineStores.Turn .ls_client system.rcvLoop event loop stores) :
    loop.pc = .done ∧ ((∀ place ∈ stores, place < BUFSIZ) ↔ Short directory system.word) ∧
      (Short directory system.word → loop.reader.text = reply directory system.word) := by
  obtain ⟨stored, _⟩ := inv.receives (by simp [here])
  have whole := taken_whole inv (by simp [here]) none closed
  have length := stored.length
  rw [whole] at length
  cases turn with
  | stops _ _ _ =>
      refine ⟨rfl, ?_, fun short => ?_⟩
      · rw [List.forall_mem_singleton, length, Short]
      · apply text_of_holds _ length short (reply_nonzero directory system.word)
        rw [← whole]
        exact stored.holds
  | reads byte _ _ => simp at nothing
  | readsLast byte _ _ => simp at nothing
  | begins reached => simp at nothing

/-- While the client listens, what the server says behind its read loop is what it has
not said yet. -/
structure Tells (system next : System) : Prop where
  here : system.server ≠ .reading
  there : next.server ≠ .reading
  same : next = { system with down := next.down, server := next.server }
  told : system.client ≠ .printed →
    next.down.sent ++ next.server.pending = system.down.sent ++ system.server.pending
  fewer : next.server.busy + 1 ≤ system.server.busy
  taken : next.down.taken = system.down.taken
  broken : next.down.broken = false
  ended : next.down.closed = true ↔ next.server.Gone
  alive : system.client ≠ .printed → next.server ≠ .killed

theorem tells_of_writes {system next : System} {data : Bytes} {behind : ServerPc}
    {written : Written} (held : system.down.broken = false)
    (ended : system.down.closed = true ↔ system.server.Gone)
    (here : system.server ≠ .reading ∧ ¬ system.server.Gone)
    (there : behind ≠ .reading ∧ ¬ behind.Gone)
    (pending : system.server.pending = data ++ behind.pending)
    (fewer : behind.busy + 1 ≤ system.server.busy)
    (went : serverWrites system data behind written = some next) : Tells system next := by
  have open_ : ¬ system.down.closed = true := fun closed => here.2 (ended.mp closed)
  have running : behind ≠ .killed := fun killed => there.2 (.inr killed)
  cases written with
  | whole =>
      cases went
      refine ⟨here.1, there.1, rfl, fun _ => ?_, fewer, Link.send_taken .., ?_, ?_,
        fun _ => running⟩
      · rw [Link.send_sent held, pending, List.append_assoc]
      · rw [Link.send_broken, held]
      · rw [Link.send_closed]
        exact iff_of_false open_ there.2
  | failed =>
      simp only [serverWrites, Option.ite_none_right_eq_some, Option.some.injEq] at went
      obtain ⟨printed, rfl⟩ := went
      exact ⟨here.1, there.1, rfl, fun other => absurd printed other, fewer, rfl, held,
        iff_of_false open_ there.2, fun _ => running⟩
  | killed =>
      simp only [serverWrites, Option.ite_none_right_eq_some, Option.some.injEq] at went
      obtain ⟨printed, rfl⟩ := went
      refine ⟨here.1, nofun, rfl, fun other => absurd printed other, ?_, rfl, held,
        iff_of_true rfl (.inr rfl), fun other => absurd printed other⟩
      exact Nat.le_trans (Nat.succ_le_succ (Nat.zero_le _)) fewer

theorem tells_of_goes {system next : System} {written : Written}
    (held : system.down.broken = false) (ended : system.down.closed = true ↔ system.server.Gone)
    (went : serverGoes system written = some next) : Tells system next := by
  unfold serverGoes at went
  split at went
  case h_1 => contradiction
  case h_2 here =>
      exact tells_of_writes held ended (by simp [here, ServerPc.Gone]) (by simp [ServerPc.Gone])
        (by simp [here, ServerPc.pending]) (by simp [here, ServerPc.busy]) went
  case h_3 here =>
      cases went
      refine ⟨by simp [here], nofun, rfl, fun _ => ?_, by simp [here, ServerPc.busy], rfl, held,
        by simp [ended, here, ServerPc.Gone], fun _ => nofun⟩
      rw [here]
      rfl
  case h_4 dir rest here =>
      have fewer : (ServerPc.blank rest).busy + 1 ≤ system.server.busy := by
        rw [here]
        simp only [ServerPc.busy, List.length_cons]
        omega
      split at went
      case isTrue gone =>
          cases went
          refine ⟨by simp [here], nofun, rfl, fun _ => ?_, Nat.le_of_succ_le fewer, rfl, held,
            by simp [ended, here, ServerPc.Gone], fun _ => nofun⟩
          simp [here, ServerPc.pending, shown, gone]
      case isFalse present =>
          exact tells_of_writes held ended (by simp [here, ServerPc.Gone])
            (by simp [ServerPc.Gone]) (by simp [here, ServerPc.pending, shown, present]) fewer went
  case h_5 rest here =>
      exact tells_of_writes held ended (by simp [here, ServerPc.Gone]) (by simp [ServerPc.Gone])
        (by simp [here, ServerPc.pending]) (by simp [here, ServerPc.busy]) went
  case h_6 here =>
      cases went
      refine ⟨by simp [here], nofun, rfl, fun _ => ?_, by simp [here, ServerPc.busy], rfl, held,
        by simp [Link.close, ServerPc.Gone], fun _ => nofun⟩
      rw [here]
      rfl
  case h_7 => contradiction
  case h_8 => contradiction

theorem server_hears {directory : Option (List Dirent)} {system : System} {up : Link UInt8}
    {result : Option Bytes} (inv : Inv directory system) (here : system.server = .reading)
    (got : system.up.read 1 result = some up) :
    ∃ byte, result = some [byte] ∧ up.taken = system.up.taken ++ [byte] ∧ up.sent = system.up.sent ∧
      up.broken = false ∧ up.closed = false ∧ Asked system ∧
        system.up.taken ++ byte :: up.arriving = system.word ++ [0] := by
  obtain ⟨_, _, _, open_, _⟩ := inv.hears here
  obtain ⟨byte, rfl, arriving, held, still⟩ := Link.read_one inv.up open_ got
  have whole := system.up.whole inv.up
  rw [arriving] at whole
  have asked : Asked system := by
    by_contra idle
    rw [inv.silent idle] at whole
    simp at whole
  exact ⟨byte, rfl, Link.read_taken got, (Link.read_sent got).1, held, still, asked,
    whole.trans (inv.asked asked)⟩

theorem client_hears {directory : Option (List Dirent)} {system : System} {down : Link UInt8}
    {result : Option Bytes} (inv : Inv directory system)
    (got : system.down.read 1 result = some down) :
    down.sent = system.down.sent ∧ down.closed = system.down.closed ∧ down.broken = false ∧
      ((∃ byte, result = some [byte] ∧ down.taken = system.down.taken ++ [byte] ∧
          system.down.arriving = byte :: down.arriving) ∨
        (result = some [] ∧ down.taken = system.down.taken ∧ system.down.arriving = [] ∧
          system.down.closed = true)) := by
  obtain ⟨sent, closed, broken⟩ := Link.read_sent got
  refine ⟨sent, closed, broken.trans inv.down, ?_⟩
  cases result with
  | none => exact absurd got (Link.read_held inv.down)
  | some data =>
      obtain ⟨_, _, fits, last⟩ := Link.read_data got
      have taken := Link.read_taken got
      match data, fits with
      | [], _ =>
          obtain ⟨none, ended⟩ := last rfl
          rw [inv.down] at ended
          exact .inr ⟨rfl, by simpa using taken, none, ended.resolve_right nofun⟩
      | [byte], _ => exact .inl ⟨byte, rfl, taken, Link.read_arriving got⟩

theorem client_goes_on {directory : Option (List Dirent)} {system : System} {loop : Loop BUFSIZ}
    {down : Link UInt8} {result : Option Bytes} {stores : List Nat} (inv : Inv directory system)
    (here : system.client = .receiving) (got : system.down.read 1 result = some down)
    (turn : LineStores.Turn .ls_client system.rcvLoop (seen result) loop stores)
    (more : loop.pc = .reading) :
    ∃ byte, down.taken = system.down.taken ++ [byte] ∧
      system.down.arriving = byte :: down.arriving ∧ (∀ place ∈ stores, place < BUFSIZ) ∧
      Stored loop (system.down.taken ++ [byte]) ∧ system.down.taken.length < BUFSIZ := by
  obtain ⟨_, _, _, ⟨byte, rfl, taken, arriving⟩ | ⟨rfl, _, none, ended⟩⟩ := client_hears inv got
  · rcases client_reads inv here arriving turn with ⟨_, inside, stored, few⟩ | ⟨done, _⟩
    · exact ⟨byte, taken, arriving, inside, stored, few⟩
    · rw [more] at done
      cases done
  · have done := (client_ends inv here none ended (.inl rfl) turn).1
    rw [more] at done
    cases done

/-- Where the client has found a byte or the end, the server is behind its read loop. -/
theorem server_past {directory : Option (List Dirent)} {system : System} {down : Link UInt8}
    {result : Option Bytes} (inv : Inv directory system)
    (got : system.down.read 1 result = some down) : system.server ≠ .reading := by
  intro reading
  have silent := (inv.hears reading).2.2.1
  have order := system.down.ordered
  rw [silent, List.prefix_nil, List.append_eq_nil_iff] at order
  obtain ⟨_, _, _, ⟨byte, _, _, arriving⟩ | ⟨_, _, _, ended⟩⟩ := client_hears inv got
  · rw [order.2] at arriving
    cases arriving
  · rcases inv.ended.mp ended with gone | gone <;> simp [gone] at reading

/-- The client only leaves a reply that fits at its end. -/
theorem closed_of_short {directory : Option (List Dirent)} {system : System} {loop : Loop BUFSIZ}
    {down : Link UInt8} {result : Option Bytes} {stores : List Nat} (inv : Inv directory system)
    (here : system.client = .receiving) (got : system.down.read 1 result = some down)
    (turn : LineStores.Turn .ls_client system.rcvLoop (seen result) loop stores)
    (done : loop.pc = .done) (short : Short directory system.word) : system.server = .closed := by
  obtain ⟨_, _, _, ⟨byte, rfl, _, arriving⟩ | ⟨rfl, _, none, ended⟩⟩ := client_hears inv got
  · rcases client_reads inv here arriving turn with ⟨more, _⟩ | ⟨_, _, long⟩
    · rw [done] at more
      cases more
    · exact absurd (Nat.lt_trans short long) (Nat.lt_irrefl _)
  · exact (inv.ended.mp ended).resolve_right (inv.alive (by simp [here]))

theorem reading_of_idle {directory : Option (List Dirent)} {system : System}
    (inv : Inv directory system) (idle : ¬ Asked system) : system.server = .reading := by
  by_contra other
  exact idle (inv.answers other)

theorem inv_turn {directory : Option (List Dirent)} {system next : System} {event : Event}
    {made : List Call} (inv : Inv directory system)
    (turn : Turn directory system event next made) : Inv directory next := by
  cases turn with
  | scans word here valid =>
      have idle : ¬ Asked system := by simp [Asked, here]
      have reading := reading_of_idle inv idle
      obtain ⟨stored, nonzero, none, open_, _⟩ := inv.hears reading
      exact ⟨inv.up, inv.down, fun _ => valid, fun _ => inv.silent idle,
        fun asked => by simp [Asked] at asked, fun _ => ⟨stored, nonzero, none, open_, nofun⟩,
        fun other => absurd reading other, fun other => absurd reading other, inv.ended,
        fun _ => inv.alive (by simp [here]), nofun, fun _ => inv.receives (by simp [here])⟩
  | writes here =>
      have idle : ¬ Asked system := by simp [Asked, here]
      have reading := reading_of_idle inv idle
      obtain ⟨stored, nonzero, none, open_, _⟩ := inv.hears reading
      have asked : (system.up.send (system.word ++ [0])).sent = system.word ++ [0] := by
        rw [Link.send_sent inv.up, inv.silent idle, List.nil_append]
      refine ⟨(Link.send_broken ..).trans inv.up, inv.down, fun _ => inv.valid (by simp [here]),
        fun other => absurd (.inl rfl) other, fun _ => asked, fun _ => ?_,
        fun other => absurd reading other, fun other => absurd reading other, inv.ended,
        fun _ => inv.alive (by simp [here]), nofun, fun _ => inv.receives (by simp [here])⟩
      exact ⟨by rwa [Link.send_taken], by rwa [Link.send_taken], none,
        (Link.send_closed ..).trans open_, nofun⟩
  | reads result down loop stores here got turn more =>
      obtain ⟨sent, closed, held, _⟩ := client_hears inv got
      refine ⟨inv.up, held, inv.valid, inv.silent, inv.asked, fun reading => ?_, inv.answers,
        fun other unprinted => ?_, ?_, inv.alive, inv.waited, fun other => ?_⟩
      · simpa [sent] using inv.hears reading
      · rw [sent]
        exact inv.spoken other unprinted
      · simpa [closed] using inv.ended
      · obtain ⟨byte, taken, _, _, stored, few⟩ := client_goes_on inv here got turn more
        rw [taken]
        exact ⟨stored, by rwa [List.length_append]⟩
  | prints result down loop stores here got turn done =>
      obtain ⟨_, closed, held, _⟩ := client_hears inv got
      have reading := server_past inv got
      have waited := closed_of_short inv here got turn done
      refine ⟨inv.up, held, fun _ => inv.valid (by simp [here]), fun idle => absurd (.inr rfl) idle,
        fun _ => inv.asked (.inl here), fun back => absurd back reading, fun _ => .inr rfl,
        fun _ other => absurd rfl other, by simpa [closed] using inv.ended,
        fun other => absurd rfl other, fun _ => waited, fun other => absurd rfl other⟩
  | serverReads result up loop stores here got turn =>
      obtain ⟨byte, rfl, taken, sent, held, open_, asked, split⟩ := server_hears inv here got
      obtain ⟨stored, nonzero, none, _, unprinted⟩ := inv.hears here
      have valid := inv.valid (by rcases asked with at_ | at_ <;> simp [at_])
      obtain ⟨_, ⟨more, stored, nonzero⟩ | ⟨done, text⟩⟩ :=
        server_reads stored nonzero valid split turn
      · refine ⟨held, inv.down, inv.valid, fun idle => absurd asked idle,
          fun _ => sent.trans (inv.asked asked), fun _ => ?_, fun _ => asked,
          fun other => absurd (by simp [more]) other, ?_, fun _ => by simp [more],
          fun printed => absurd printed unprinted, inv.receives⟩
        · rw [taken]
          exact ⟨stored, nonzero, none, open_, unprinted⟩
        · simpa [more, here] using inv.ended
      · obtain ⟨past, still⟩ := answer_under_way directory loop.reader.text
        refine ⟨held, inv.down, inv.valid, fun idle => absurd asked idle,
          fun _ => sent.trans (inv.asked asked), fun back => absurd back (by simp [done, past]),
          fun _ => asked, fun _ _ => ?_, ?_, fun _ killed => still (.inr ?_),
          fun printed => absurd printed unprinted, inv.receives⟩
        · simp only [done, if_true, none, List.nil_append]
          rw [pending_answer, text]
        · have open_ := inv.ended
          simp only [here, ServerPc.Gone, reduceCtorEq, or_self, iff_false] at open_
          simp [done, still, open_]
        · simpa [done] using killed
  | goes written next went =>
      have told := tells_of_goes inv.down inv.ended went
      rw [told.same]
      refine ⟨inv.up, told.broken, inv.valid, inv.silent, inv.asked,
        fun back => absurd back told.there, fun _ => inv.answers told.here, fun _ unprinted => ?_,
        told.ended, told.alive, fun printed short => ?_, fun other => ?_⟩
      · exact (told.told unprinted).trans (inv.spoken told.here unprinted)
      · -- a closed server goes nowhere
        have closed := inv.waited printed short
        simp [serverGoes, closed] at went
      · simpa [told.taken] using inv.receives other

/-! What a session has stored and printed. -/

/-- All has gone well so far, or the reply did not fit. -/
inductive Told (directory : Option (List Dirent)) (calls : List Call) (system : System) : Prop where
  | well (sound : ∀ call ∈ calls, Sound directory call)
      (short : system.client = .printed → Short directory system.word)
  | long (here : system.client = .printed) (long : ¬ Short directory system.word)
      (failed : ¬ ∀ call ∈ calls, Sound directory call)

theorem sound_store_iff (directory : Option (List Dirent)) (stores : List Nat) :
    (∀ call ∈ stores.map .store, Sound directory call) ↔ ∀ place ∈ stores, place < BUFSIZ := by
  simp [Sound]

theorem told_prints {directory : Option (List Dirent)} {system : System} {loop : Loop BUFSIZ}
    {down : Link UInt8} {result : Option Bytes} {stores : List Nat} (inv : Inv directory system)
    (here : system.client = .receiving) (got : system.down.read 1 result = some down)
    (turn : LineStores.Turn .ls_client system.rcvLoop (seen result) loop stores)
    (done : loop.pc = .done) :
    (∀ call ∈ stores.map Call.store ++ [.received loop.reader.text system.word],
      Sound directory call) ↔ Short directory system.word := by
  rw [List.forall_mem_append, sound_store_iff, List.forall_mem_singleton]
  obtain ⟨_, _, _, ⟨byte, rfl, taken, arriving⟩ | ⟨rfl, _, none, ended⟩⟩ := client_hears inv got
  · rcases client_reads inv here arriving turn with ⟨more, _⟩ | ⟨_, full, long⟩
    · rw [done] at more
      cases more
    -- the reply has filled the buffer: its zero is stored behind it
    · apply iff_of_false
      · exact fun sound => Nat.lt_irrefl _ (sound.1 BUFSIZ full)
      · exact Nat.not_lt_of_lt long
  · obtain ⟨_, inside, text⟩ := client_ends inv here none ended (.inl rfl) turn
    rw [inside]
    exact ⟨fun sound => sound.1, fun short => ⟨short, text short⟩⟩

theorem told_turn {directory : Option (List Dirent)} {system next : System} {event : Event}
    {before made : List Call} (inv : Inv directory system) (told : Told directory before system)
    (turn : Turn directory system event next made) : Told directory (before ++ made) next := by
  cases turn with
  | scans word here valid =>
      cases told with
      | well sound short => exact .well (by simpa using sound) nofun
      | long there _ _ => simp [here] at there
  | writes here =>
      cases told with
      | well sound short => exact .well (by simpa using sound) nofun
      | long there _ _ => simp [here] at there
  | reads result down loop stores here got turn more =>
      cases told with
      | long there _ _ => simp [here] at there
      | well sound short =>
          refine .well (List.forall_mem_append.mpr ⟨sound, ?_⟩) (by simp [here])
          rw [sound_store_iff]
          obtain ⟨_, _, _, inside, _⟩ := client_goes_on inv here got turn more
          exact inside
  | prints result down loop stores here got turn done =>
      have prints := told_prints inv here got turn done
      cases told with
      | long there _ _ => simp [here] at there
      | well sound _ =>
          by_cases short : Short directory system.word
          · exact .well (List.forall_mem_append.mpr ⟨sound, prints.mpr short⟩) fun _ => short
          · exact .long rfl short fun all =>
              short (prints.mp (List.forall_mem_append.mp all).2)
  | serverReads result up loop stores here got turn =>
      obtain ⟨byte, rfl, _, _, _, _, asked, split⟩ := server_hears inv here got
      obtain ⟨stored, nonzero, _⟩ := inv.hears here
      have valid := inv.valid (by rcases asked with at_ | at_ <;> simp [at_])
      have inside := (server_reads stored nonzero valid split turn).1
      cases told with
      | long there long failed =>
          exact .long there long fun all => failed (List.forall_mem_append.mp all).1
      | well sound short =>
          refine .well (List.forall_mem_append.mpr ⟨sound, ?_⟩) short
          simpa [Sound] using inside
  | goes written next went =>
      have same := (tells_of_goes inv.down inv.ended went).same
      have client : next.client = system.client := by rw [same]
      have word : next.word = system.word := by rw [same]
      rw [List.append_nil]
      cases told with
      | long there long failed => exact .long (client.trans there) (by rwa [word]) failed
      | well sound short => exact .well sound fun here => by rw [word]; exact short (client ▸ here)

/-- When the client has printed, it has printed the names of the directory, and
both loops have stored inside their buffers, exactly if the names with their blanks
are fewer than `BUFSIZ` bytes. -/
theorem session_lists_iff (directory : Option (List Dirent)) (rcvBuffer rBuffer : Memory BUFSIZ)
    (events : List Event) (system : System) (calls : List Call)
    (ran : exec (step directory) (start rcvBuffer rBuffer) events = some (system, calls))
    (printed : system.client = .printed) :
    (∀ call ∈ calls, Sound directory call) ↔ Short directory system.word := by
  have told := (Machine.exec_invariant
    (fun calls system => Inv directory system ∧ Told directory calls system)
    (fun before state event next made holds taken =>
      ⟨inv_turn holds.1 (turn_of_step taken), told_turn holds.1 holds.2 (turn_of_step taken)⟩)
    ⟨inv_start directory rcvBuffer rBuffer, .well (by simp) nofun⟩ ran).2
  cases told with
  | well sound short => exact iff_of_true sound (short printed)
  | long _ long failed => exact iff_of_false failed long

def listing : List Event :=
  [.scan ls, .write, .serverRead (some [108]), .serverRead (some [115]), .serverRead (some [0]),
    .serverGoes .whole, .serverGoes .whole, .read (some [97]), .serverGoes .whole,
    .serverGoes .whole, .serverGoes .whole, .read (some [32]), .read (some [])]

def oneName : List Dirent := [⟨0, [98]⟩, ⟨7, [97, 0, 99]⟩]

theorem session_lists_listing : ∃ system calls,
    exec (step (some oneName)) (start (.zeros _) (.zeros _)) listing = some (system, calls) ∧
      .received [97, 32] ls ∈ calls ∧ ∀ call ∈ calls, Sound (some oneName) call := by
  have result : (exec (step (some oneName)) (start (.zeros _) (.zeros _)) listing).map
      (fun result => (result.1.client, result.1.word, decide (.received [97, 32] ls ∈ result.2))) =
      some (.printed, ls, true) := by
    decide +kernel
  obtain ⟨⟨system, calls⟩, ran, same⟩ := Option.map_eq_some_iff.mp result
  simp only [Prod.mk.injEq, decide_eq_true_eq] at same
  obtain ⟨printed, word, shows⟩ := same
  have sound := session_lists_iff (some oneName) (.zeros _) (.zeros _) listing system calls ran
    printed
  exact ⟨system, calls, ran, shows, sound.mpr (by rw [word]; decide)⟩

/-! Once the word has been written the session comes to its end. -/

def serverCost (directory : Option (List Dirent)) (system : System) : Nat :=
  if system.server = .reading then
    system.up.arriving.length + (answer directory system.word).busy
  else system.server.busy

def clientCost (directory : Option (List Dirent)) (system : System) : Nat :=
  if system.client = .printed then 0
  else (reply directory system.word).length - system.down.taken.length + 1

def cost (directory : Option (List Dirent)) (system : System) : Nat :=
  serverCost directory system + clientCost directory system

theorem cost_turn {directory : Option (List Dirent)} {system next : System} {event : Event}
    {made : List Call} (inv : Inv directory system) (asked : Asked system)
    (turn : Turn directory system event next made) :
    Asked next ∧ cost directory next + 1 ≤ cost directory system := by
  cases turn with
  | scans word here valid => rcases asked with at_ | at_ <;> simp [here] at at_
  | writes here => rcases asked with at_ | at_ <;> simp [here] at at_
  | reads result down loop stores here got turn more =>
      obtain ⟨byte, taken, arriving, _⟩ := client_goes_on inv here got turn more
      have long := (reply_coming inv (by simp [here])).length_le
      rw [arriving, List.length_append, List.length_cons] at long
      refine ⟨.inl here, ?_⟩
      simp only [cost, serverCost, clientCost, here, reduceCtorEq, if_false, taken,
        List.length_append, List.length_singleton]
      omega
  | prints result down loop stores here got turn done =>
      refine ⟨.inr rfl, ?_⟩
      simp only [cost, serverCost, clientCost, here, Link.close, reduceCtorEq, if_false, if_true]
      omega
  | serverReads result up loop stores here got turn =>
      obtain ⟨byte, rfl, _, _, _, _, _, split⟩ := server_hears inv here got
      obtain ⟨stored, nonzero, _, _, _⟩ := inv.hears here
      have valid := inv.valid (by rcases asked with at_ | at_ <;> simp [at_])
      have fewer := congrArg List.length (Link.read_arriving got)
      rw [List.length_append, List.length_singleton] at fewer
      obtain ⟨_, ⟨more, _, _⟩ | ⟨done, text⟩⟩ := server_reads stored nonzero valid split turn
      · refine ⟨asked, ?_⟩
        simp only [cost, serverCost, clientCost, here, more, reduceCtorEq, if_false, if_true, fewer]
        omega
      · refine ⟨asked, ?_⟩
        have behind := answer_under_way directory system.word
        simp only [cost, serverCost, clientCost, here, done, if_true, text, behind.1, if_false,
          fewer]
        omega
  | goes written next went =>
      have told := tells_of_goes inv.down inv.ended went
      have fewer := told.fewer
      have client : next.client = system.client := by rw [told.same]
      have word : next.word = system.word := by rw [told.same]
      refine ⟨by rwa [Asked, client], ?_⟩
      simp only [cost, serverCost, clientCost, told.here, told.there, if_false, client, word,
        told.taken]
      omega

/-- The client has printed. The server has closed, or SIGPIPE has ended it, which only
happens where the reply is too long for the client to wait for its end. -/
def Ended (directory : Option (List Dirent)) (system : System) : Prop :=
  system.client = .printed ∧
    (system.server = .closed ∨
      (system.server = .killed ∧ ¬ Short directory system.word))

theorem loop_reads (program : LineStores.Program) {loop : Loop BUFSIZ}
    (reading : loop.pc = .reading) (byte : UInt8) :
    ∃ next, LineStores.step program loop (seen (some [byte])) = some next := by
  apply Option.isSome_iff_exists.mp
  simp only [LineStores.step, reading, seen]
  split <;> rfl

/-- The zero of the word has not been read. -/
theorem server_reads_on {directory : Option (List Dirent)} {system : System}
    (inv : Inv directory system) (asked : Asked system) (reading : system.server = .reading) :
    ∃ event, (step directory system event).isSome := by
  obtain ⟨stored, nonzero, _, _, _⟩ := inv.hears reading
  have whole := (system.up.whole inv.up).trans (inv.asked asked)
  cases left : system.up.arriving with
  | nil =>
      rw [left, List.append_nil] at whole
      rw [whole] at nonzero
      simp at nonzero
  | cons byte rest =>
      have got := (Link.read_head left).1
      obtain ⟨⟨loop, stores⟩, stepped⟩ := loop_reads .ls_server stored.reading byte
      exact ⟨.serverRead (some [byte]), by simp [step, reading, got, stepped]⟩

/-- Behind the server's last word the client finds another byte or the end. -/
theorem client_reads_on {directory : Option (List Dirent)} {system : System}
    (inv : Inv directory system) (here : system.client = .receiving) (gone : system.server.Gone) :
    ∃ event, (step directory system event).isSome := by
  obtain ⟨stored, _⟩ := inv.receives (by simp [here])
  cases left : system.down.arriving with
  | nil =>
      have got : system.down.read 1 (some []) = some (system.down.take 0) := by
        simp [Link.read, left, inv.ended.mpr gone]
      refine ⟨.read (some []), ?_⟩
      simp [step, here, got, LineStores.step, stored.reading, seen]
  | cons byte rest =>
      have got := (Link.read_head left).1
      obtain ⟨⟨loop, stores⟩, stepped⟩ := loop_reads .ls_client stored.reading byte
      refine ⟨.read (some [byte]), ?_⟩
      simp only [step, here, got, stepped, if_true]
      split <;> rfl

theorem server_goes_on {system : System} (reading : system.server ≠ .reading)
    (running : ¬ system.server.Gone) : (serverGoes system .whole).isSome := by
  unfold serverGoes
  cases server : system.server with
  | reading => exact absurd server reading
  | closed => exact absurd (.inl server) running
  | killed => exact absurd (.inr server) running
  | listing rest =>
      cases rest with
      | nil => rfl
      | cons dir rest =>
          simp only
          split <;> rfl
  | _ => rfl

/-- While the session is not at its end one of the two can go on. -/
theorem goes_on {directory : Option (List Dirent)} {system : System} (inv : Inv directory system)
    (asked : Asked system) :
    Ended directory system ∨ ∃ event, (step directory system event).isSome := by
  by_cases reading : system.server = .reading
  · exact .inr (server_reads_on inv asked reading)
  by_cases gone : system.server.Gone
  · by_cases printed : system.client = .printed
    · refine .inl ⟨printed, gone.imp_right fun killed => ⟨killed, fun short => ?_⟩⟩
      rw [inv.waited printed short] at killed
      cases killed
    · exact .inr (client_reads_on inv (asked.resolve_right printed) gone)
  · obtain ⟨next, went⟩ := Option.isSome_iff_exists.mp (server_goes_on reading gone)
    exact .inr ⟨.serverGoes .whole, by simp [step, went]⟩

/-- Whatever the word is, and however long the reply: the session comes to its end. -/
theorem listing_ends (directory : Option (List Dirent)) (rcvBuffer rBuffer : Memory BUFSIZ)
    (events : List Event) (system : System) (calls : List Call)
    (ran : exec (step directory) (start rcvBuffer rBuffer) events = some (system, calls))
    (asked : Asked system) :
    Ends (step directory) (fun _ => True) (fun _ => True) (fun _ => True)
      (Ended directory) system := by
  have inv := Machine.exec_invariant (fun _ system => Inv directory system)
    (fun before state event next made inv taken => inv_turn inv (turn_of_step taken))
    (inv_start directory rcvBuffer rBuffer) ran
  refine Endings.ends_of_measure (fun state => Inv directory state ∧ Asked state) (cost directory)
    ?keeps ?moves ⟨inv, asked⟩
  case keeps =>
      rintro state event next made ⟨inv, asked⟩ _ taken
      have turn := turn_of_step taken
      obtain ⟨still, fewer⟩ := cost_turn inv asked turn
      exact ⟨⟨inv_turn inv turn, still⟩, fun _ _ => trivial, by simpa using fewer⟩
  case moves =>
      rintro state ⟨inv, asked⟩
      rcases goes_on inv asked with done | ⟨event, goes⟩
      · exact .inl done
      · exact .inr ⟨event, trivial, trivial, goes⟩

theorem listing_ends_written : ∃ system calls,
    exec (step (some oneName)) (start (.zeros _) (.zeros _)) [.scan ls, .write] =
        some (system, calls) ∧
      Ends (step (some oneName)) (fun _ => True) (fun _ => True) (fun _ => True)
        (Ended (some oneName)) system := by
  obtain ⟨⟨system, calls⟩, ran, here⟩ := Option.map_eq_some_iff.mp
    (show (exec (step (some oneName)) (start (.zeros _) (.zeros _)) [.scan ls, .write]).map
      (fun result => result.1.client) = some .receiving by decide +kernel)
  exact ⟨system, calls, ran,
    listing_ends (some oneName) (.zeros _) (.zeros _) [.scan ls, .write] system calls ran
      (.inl here)⟩

end NetworkTest.LsSession
