import NetworkTest.LineServer

/-!
The echo client of tue/echo, and of wen/fork, in a session with the server of
tue/echo. In each turn the client sends a word with its zero and prints what
comes back; it starts each answer at the front of `rcvBuffer`, but counts the
bytes of the whole session in `length`.
-/

namespace NetworkTest.LineEcho

open CBuffer (Bytes BUFSIZ)
open Channel (Link)
open LineReader (Reader Holds Kept)
open LineServer (Server quit)
open Machine (Step exec)

inductive Pc where
  | scanning
  | writing
  | receiving
  | closed
  deriving DecidableEq

/-- `buffer` holds the string that was scanned last; `words` are those sent so
far, `quit` apart. -/
structure System where
  pc : Pc
  buffer : Bytes
  reader : Reader BUFSIZ
  words : List Bytes
  up : Link UInt8
  server : Server
  down : Link UInt8

/-- The writes of both sides take all their bytes. -/
inductive Event where
  | scan (word : Bytes)
  | write
  | read (result : Option Bytes)
  | serverRead (result : Option Bytes)
  | serverWrite
  deriving DecidableEq

/-- What the client's loop stores and prints; `echo` also reports the word of
the turn. -/
inductive Call where
  | store (index : Nat)
  | echo (text word : Bytes)
  deriving DecidableEq

/-- White space of `scanf`. -/
def Space (byte : UInt8) : Prop := byte = 32 ∨ (9 ≤ byte ∧ byte ≤ 13)

instance (byte : UInt8) : Decidable (Space byte) := inferInstanceAs (Decidable (_ ∨ _))

def Word (word : Bytes) : Prop :=
  word ≠ [] ∧ (∀ byte ∈ word, byte ≠ 0 ∧ ¬ Space byte) ∧ word.length < BUFSIZ - 1

instance (word : Bytes) : Decidable (Word word) := inferInstanceAs (Decidable (_ ∧ _))

def printed (system : System) (reader : Reader BUFSIZ) (down : Link UInt8) :
    System × List Call :=
  ({ system with pc := .scanning, reader := reader.finish, down := down },
    [.store reader.length, .echo reader.finish.text system.buffer])

def received (system : System) (result : Option Bytes) (down : Link UInt8) :
    System × List Call :=
  match result with
  | some [byte] =>
      let read := system.reader.pass byte
      if read.2 then
        ((printed system read.1 down).1,
          .store system.reader.place :: (printed system read.1 down).2)
      else ({ system with reader := read.1, down := down }, [.store system.reader.place])
  | _ => printed system system.reader down

def step : Step System Event Call := fun system event =>
  match event with
  | .scan word =>
      if system.pc = .scanning ∧ Word word then
        some ({ system with buffer := word, pc := .writing }, [])
      else none
  | .write =>
      if system.pc = .writing then
        let up := system.up.send (system.buffer ++ [0])
        if system.buffer = quit then some ({ system with up := up.close, pc := .closed }, [])
        else
          some ({ system with
            up := up
            words := system.words ++ [system.buffer]
            reader := { system.reader with place := 0 }
            pc := .receiving }, [])
      else none
  | .read result =>
      match system.pc, system.down.read 1 result with
      | .receiving, some down => some (received system result down)
      | _, _ => none
  | .serverRead result =>
      match LineServer.step system.server (.read result),
          LineServer.takes system.up (.read result) with
      | some (server, _), some up =>
          some ({ system with
            server := server
            up := up
            down := if server.pc = .closed then system.down.close else system.down }, [])
      | _, _ => none
  | .serverWrite =>
      match LineServer.step system.server (.write true) with
      | some (server, _) =>
          some ({ system with
            server := server
            down := system.down.send (system.server.reader.text ++ [0]) }, [])
      | none => none

/-- Connected and accepted; the buffers hold anything. -/
def start (rcvBuffer rBuffer : CBuffer.Memory BUFSIZ) : System where
  pc := .scanning
  buffer := []
  reader := ⟨rcvBuffer, 0, 0⟩
  words := []
  up := .fresh
  server := ⟨.reading, ⟨rBuffer, 0, 0⟩⟩
  down := .fresh

inductive Turn (system : System) : Event → System → List Call → Prop where
  | scans (word : Bytes) (here : system.pc = .scanning) (valid : Word word) :
      Turn system (.scan word) { system with buffer := word, pc := .writing } []
  | quits (here : system.pc = .writing) :
      Turn system .write
        { system with up := (system.up.send (system.buffer ++ [0])).close, pc := .closed } []
  | sends (here : system.pc = .writing) (other : system.buffer ≠ quit) :
      Turn system .write
        { system with
          up := system.up.send (system.buffer ++ [0])
          words := system.words ++ [system.buffer]
          reader := { system.reader with place := 0 }
          pc := .receiving } []
  | reads (result : Option Bytes) (down : Link UInt8) (here : system.pc = .receiving)
      (got : system.down.read 1 result = some down) :
      Turn system (.read result) (received system result down).1 (received system result down).2
  | serverReads (result : Option Bytes) (server : Server) (made : List LineServer.Call)
      (up : Link UInt8) (turn : LineServer.Turn system.server (.read result) server made)
      (got : system.up.read 1 result = some up) :
      Turn system (.serverRead result)
        { system with
          server := server
          up := up
          down := if server.pc = .closed then system.down.close else system.down } []
  | serverWrites (here : system.server.pc = .writing) :
      Turn system .serverWrite
        { system with
          server := ⟨.reading, LineServer.again system.server.reader⟩
          down := system.down.send (system.server.reader.text ++ [0]) } []

theorem turn_of_step {system next : System} {event : Event} {made : List Call}
    (taken : step system event = some (next, made)) : Turn system event next made := by
  cases event with
  | scan word =>
      simp only [step, Option.ite_none_right_eq_some, Option.some.injEq, Prod.mk.injEq] at taken
      obtain ⟨⟨here, valid⟩, rfl, rfl⟩ := taken
      exact .scans word here valid
  | write =>
      simp only [step, Option.ite_none_right_eq_some] at taken
      obtain ⟨here, taken⟩ := taken
      split at taken
      · cases taken
        exact .quits here
      · cases taken
        exact .sends here ‹_›
  | read result =>
      simp only [step] at taken
      split at taken
      case h_2 => contradiction
      case h_1 down here got =>
          obtain ⟨rfl, rfl⟩ := Prod.mk.inj (Option.some.inj taken)
          exact .reads result down here got
  | serverRead result =>
      simp only [step] at taken
      split at taken
      case h_2 => contradiction
      case h_1 server made up stepped got =>
          cases taken
          exact .serverReads result server made up (LineServer.turn_of_step stepped) got
  | serverWrite =>
      simp only [step] at taken
      split at taken
      case h_2 => contradiction
      case h_1 server made stepped =>
          cases taken
          cases LineServer.turn_of_step stepped with
          | writes ok here => exact .serverWrites here

/-! Where a session is between two steps. -/

def total (words : List Bytes) : Nat := words.flatten.length

theorem total_append (earlier : List Bytes) (word : Bytes) :
    total (earlier ++ [word]) = total earlier + word.length := by
  rw [total, List.flatten_append, List.flatten_singleton, List.length_append, total]

def Ready (server : Server) : Prop :=
  server.pc = .reading ∧ server.reader.place = 0 ∧ server.reader.length = 0

structure Open (up down : Link UInt8) : Prop where
  up : up.broken = false ∧ up.closed = false
  down : down.broken = false ∧ down.closed = false

/-- In a turn: the server has read `done` of the word, or all of it, or has
answered and the client has read `done` of the answer. -/
inductive InTurn (system : System) (earlier : Nat) : Prop where
  | asked (done rest : Bytes) (split : system.buffer = done ++ rest)
      (up : system.up.arriving = rest ++ [0]) (down : system.down.arriving = [])
      (reading : system.server.pc = .reading) (holds : Holds system.server.reader done)
      (length : system.server.reader.length = done.length)
      (place : system.reader.place = 0) (count : system.reader.length = earlier)
  | heard (up : system.up.arriving = []) (down : system.down.arriving = [])
      (writing : system.server.pc = .writing) (text : system.server.reader.text = system.buffer)
      (place : system.reader.place = 0) (count : system.reader.length = earlier)
  | answered (done rest : Bytes) (split : system.buffer = done ++ rest)
      (up : system.up.arriving = []) (down : system.down.arriving = rest ++ [0])
      (ready : Ready system.server) (holds : Holds system.reader done)
      (count : system.reader.length = earlier + done.length)

inductive Inv (system : System) : Prop where
  | between (here : system.pc = .scanning ∨ system.pc = .writing)
      (links : Open system.up system.down)
      (up : system.up.arriving = []) (down : system.down.arriving = [])
      (ready : Ready system.server) (count : system.reader.length = total system.words)
      (room : total system.words < BUFSIZ) (valid : system.pc = .writing → Word system.buffer)
  | turn (earlier : List Bytes) (here : system.pc = .receiving) (links : Open system.up system.down)
      (words : system.words = earlier ++ [system.buffer]) (valid : Word system.buffer)
      (other : system.buffer ≠ quit) (room : total earlier < BUFSIZ)
      (inTurn : InTurn system (total earlier))
  | closed (here : system.pc = .closed) (room : total system.words < BUFSIZ)

theorem inv_start (rcvBuffer rBuffer : CBuffer.Memory BUFSIZ) :
    Inv (start rcvBuffer rBuffer) := by
  have room : 0 < BUFSIZ := by decide
  exact .between (.inl rfl) ⟨⟨rfl, rfl⟩, ⟨rfl, rfl⟩⟩ rfl rfl ⟨rfl, rfl, rfl⟩ rfl room nofun

/-- The stores fall inside `rcvBuffer`, and what is printed is the word. -/
def Sound : Call → Prop
  | .store index => index < BUFSIZ
  | .echo text word => text = word

instance : (call : Call) → Decidable (Sound call)
  | .store index => inferInstanceAs (Decidable (index < BUFSIZ))
  | .echo text word => inferInstanceAs (Decidable (text = word))

theorem word_bytes {word : Bytes} (valid : Word word) :
    (∀ byte ∈ word, byte ≠ 0) ∧ ∀ byte ∈ word, Kept byte := by
  obtain ⟨_, bytes, _⟩ := valid
  refine ⟨fun byte member => (bytes byte member).1, fun byte member => ?_⟩
  obtain ⟨nonzero, visible⟩ := bytes byte member
  refine ⟨?_, ?_, nonzero⟩
  · rintro rfl
    exact visible (.inr (by decide))
  · rintro rfl
    exact visible (.inr (by decide))

theorem asked_turn {server next : Server} {byte : UInt8} {word done rest : Bytes}
    {made : List LineServer.Call} (valid : Word word) (other : word ≠ quit)
    (split : word = done ++ rest) (holds : Holds server.reader done)
    (length : server.reader.length = done.length)
    (turn : LineServer.Turn server (.read (some [byte])) next made) :
    (∀ later, rest = byte :: later → next.pc = .reading ∧ Holds next.reader (done ++ [byte]) ∧
        next.reader.length = (done ++ [byte]).length) ∧
      (rest = [] → byte = 0 → next.pc = .writing ∧ next.reader.text = word) := by
  obtain ⟨nonzero, kept⟩ := word_bytes valid
  have short := valid.2.2
  have inside : done.length < BUFSIZ := by
    rw [split, List.length_append] at short
    omega
  constructor
  · rintro later rfl
    obtain ⟨more, counted, stored⟩ := LineReader.pass_kept holds (kept byte (by simp [split]))
      (by rw [length]; exact Nat.ne_of_lt inside) (by rw [holds.place]; exact inside)
    cases turn with
    | reads _ here _ => exact ⟨here, stored, by rw [counted, length, List.length_append]; rfl⟩
    | readsLast _ _ last =>
        rw [more] at last
        cases last
    | streamEnds _ _ nothing => simp at nothing
  · rintro rfl rfl
    rw [List.append_nil] at split
    subst split
    obtain ⟨last, counted, stored⟩ := LineReader.pass_zero holds
      (by rw [holds.place]; exact inside)
    have text := LineReader.text_finish nonzero stored (by rw [counted, length])
    cases turn with
    | reads _ _ more =>
        rw [last] at more
        cases more
    | readsLast _ _ _ =>
        rw [LineServer.ended, text, if_neg other]
        exact ⟨rfl, text⟩
    | streamEnds _ _ nothing => simp at nothing

theorem received_more {system : System} {byte : UInt8} (down : Link UInt8)
    (more : (system.reader.pass byte).2 = false) :
    received system (some [byte]) down =
      ({ system with reader := (system.reader.pass byte).1, down := down },
        [.store system.reader.place]) := by
  simp [received, more]

theorem received_last {system : System} {byte : UInt8} (down : Link UInt8)
    (last : (system.reader.pass byte).2 = true) :
    received system (some [byte]) down =
      ({ system with
          pc := .scanning, reader := (system.reader.pass byte).1.finish, down := down },
        [.store system.reader.place, .store (system.reader.pass byte).1.length,
          .echo (system.reader.pass byte).1.finish.text system.buffer]) := by
  simp [received, printed, last]

/-- The step goes well and the session can go on, or the words have filled the
buffer. -/
def Goes (next : System) (made : List Call) : Prop :=
  ((∀ call ∈ made, Sound call) ∧ Inv next) ∨
    (¬ (∀ call ∈ made, Sound call) ∧ BUFSIZ ≤ total next.words)

theorem answered_turn {system : System} {earlier : List Bytes} (here : system.pc = .receiving)
    (links : Open system.up system.down) (words : system.words = earlier ++ [system.buffer])
    (valid : Word system.buffer) (other : system.buffer ≠ quit) (room : total earlier < BUFSIZ)
    {done rest : Bytes} (split : system.buffer = done ++ rest) (up : system.up.arriving = [])
    (sent : system.down.arriving = rest ++ [0]) (ready : Ready system.server)
    (holds : Holds system.reader done) (count : system.reader.length = total earlier + done.length)
    {result : Option Bytes} {down : Link UInt8} (got : system.down.read 1 result = some down) :
    Goes (received system result down).1 (received system result down).2 := by
  obtain ⟨nonzero, kept⟩ := word_bytes valid
  have size : total system.words = total earlier + system.buffer.length := by
    rw [words, total_append]
  have short : done.length + rest.length < BUFSIZ - 1 := by
    rw [← List.length_append, ← split]
    exact valid.2.2
  have inside : system.reader.place < BUFSIZ := by
    rw [holds.place]
    omega
  obtain ⟨byte, rfl, arriving, held⟩ := Link.read_one links.down.1 links.down.2 got
  rw [sent] at arriving
  cases rest with
  | nil =>
      obtain ⟨rfl, empty⟩ := List.cons.inj arriving
      rw [List.append_nil] at split
      obtain ⟨last, counted, stored⟩ := LineReader.pass_zero holds inside
      have whole : (system.reader.pass 0).1.length = total system.words := by
        rw [counted, count, size, split]
      rw [received_last down last]
      by_cases full : total system.words < BUFSIZ
      · have text := LineReader.text_finish (split ▸ nonzero) stored (by omega)
        refine .inl ⟨?_, .between (.inl rfl) ⟨links.up, held⟩ up empty.symm ready whole full nofun⟩
        simp [Sound, inside, whole, full, text, split]
      · refine .inr ⟨fun all => ?_, Nat.le_of_not_lt full⟩
        have stays : (system.reader.pass 0).1.length < BUFSIZ := all (.store _) (by simp)
        omega
  | cons first later =>
      obtain ⟨rfl, empty⟩ := List.cons.inj arriving
      by_cases full : system.reader.length = BUFSIZ
      · obtain ⟨last, counted⟩ := LineReader.pass_full (kept first (by simp [split])) full
        rw [received_last down last]
        refine .inr ⟨fun all => ?_, ?_⟩
        · have stays : (system.reader.pass first).1.length < BUFSIZ := all (.store _) (by simp)
          omega
        · change BUFSIZ ≤ total system.words
          rw [size, split, List.length_append]
          omega
      · obtain ⟨more, counted, stored⟩ :=
          LineReader.pass_kept holds (kept first (by simp [split])) full inside
        rw [received_more down more]
        refine .inl ⟨by simpa [Sound] using inside, .turn earlier here ⟨links.up, held⟩ words valid
          other room (.answered (done ++ [first]) later ?_ up empty.symm ready stored ?_)⟩
        · rw [split, List.append_assoc, List.singleton_append]
        · rw [counted, count, List.length_append, List.length_singleton, Nat.add_assoc]

theorem asked_read {system : System} {earlier : Nat} {done rest : Bytes}
    (valid : Word system.buffer) (other : system.buffer ≠ quit)
    (split : system.buffer = done ++ rest) (down : system.down.arriving = [])
    (holds : Holds system.server.reader done) (length : system.server.reader.length = done.length)
    (place : system.reader.place = 0) (count : system.reader.length = earlier)
    {byte : UInt8} {server : Server} {made : List LineServer.Call} {up : Link UInt8}
    (turn : LineServer.Turn system.server (.read (some [byte])) server made)
    (arriving : rest ++ [0] = byte :: up.arriving) :
    server.pc ≠ .closed ∧ InTurn { system with server := server, up := up } earlier := by
  obtain ⟨more, last⟩ := asked_turn valid other split holds length turn
  cases rest with
  | nil =>
      obtain ⟨rfl, empty⟩ := List.cons.inj arriving
      obtain ⟨writing, text⟩ := last rfl rfl
      exact ⟨by simp [writing], .heard empty.symm down writing text place count⟩
  | cons first later =>
      obtain ⟨rfl, empty⟩ := List.cons.inj arriving
      obtain ⟨still, stored, counted⟩ := more later rfl
      refine ⟨by simp [still], .asked (done ++ [first]) later ?_ empty.symm down still stored
        counted place count⟩
      rw [split, List.append_assoc, List.singleton_append]

theorem goes_quietly {next : System} (inv : Inv next) : Goes next [] := .inl ⟨by simp, inv⟩

theorem inv_turn {system next : System} {event : Event} {made : List Call} (inv : Inv system)
    (turn : Turn system event next made) : Goes next made := by
  cases inv with
  | closed here room =>
      cases turn with
      | scans word at_scan valid => simp [here] at at_scan
      | quits at_write => simp [here] at at_write
      | sends at_write other => simp [here] at at_write
      | reads result down at_read got => simp [here] at at_read
      | serverReads result server made up turn got => exact goes_quietly (.closed here room)
      | serverWrites writing => exact goes_quietly (.closed here room)
  | between here links up down ready count room valid =>
      cases turn with
      | scans word at_scan fine =>
          exact goes_quietly (.between (.inr rfl) links up down ready count room fun _ => fine)
      | quits at_write => exact goes_quietly (.closed rfl room)
      | sends at_write other =>
          refine goes_quietly (.turn system.words rfl ?_ rfl (valid at_write) other room ?_)
          · exact ⟨⟨(Link.send_broken ..).trans links.up.1, (Link.send_closed ..).trans links.up.2⟩,
              links.down⟩
          · refine .asked [] system.buffer rfl ?_ down ready.1 ?_ ready.2.2 rfl count
            · rw [Link.send_arriving links.up.1, up, List.nil_append]
            · exact LineReader.holds_nil _ ready.2.1
      | reads result down at_read got => simp [at_read] at here
      | serverReads result server made up' turn got =>
          obtain ⟨_, _, some, _⟩ := Link.read_one links.up.1 links.up.2 got
          rw [up] at some
          cases some
      | serverWrites writing =>
          have reading := ready.1
          rw [writing] at reading
          cases reading
  | turn earlier here links words valid other room inTurn =>
      cases turn with
      | scans word at_scan fine => simp [here] at at_scan
      | quits at_write => simp [here] at at_write
      | sends at_write another => simp [here] at at_write
      | reads result down at_read got =>
          cases inTurn with
          | asked done rest split up none reading holds length place count =>
              obtain ⟨_, _, some, _⟩ := Link.read_one links.down.1 links.down.2 got
              rw [none] at some
              cases some
          | heard up none writing text place count =>
              obtain ⟨_, _, some, _⟩ := Link.read_one links.down.1 links.down.2 got
              rw [none] at some
              cases some
          | answered done rest split up sent ready holds count =>
              exact answered_turn here links words valid other room split up sent ready holds
                count got
      | serverReads result server made up' turn got =>
          obtain ⟨byte, rfl, arriving, held⟩ := Link.read_one links.up.1 links.up.2 got
          cases inTurn with
          | asked done rest split up none reading holds length place count =>
              have open_ : server.pc ≠ .closed ∧ InTurn
                  { system with server := server, up := up' } (total earlier) := by
                rw [up] at arriving
                exact asked_read valid other split none holds length place count turn arriving
              refine goes_quietly (.turn earlier here ?_ words valid other room ?_)
              · rw [if_neg open_.1]
                exact ⟨held, links.down⟩
              · rw [if_neg open_.1]
                exact open_.2
          | heard up none writing text place count =>
              rw [up] at arriving
              cases arriving
          | answered done rest split up sent ready holds count =>
              rw [up] at arriving
              cases arriving
      | serverWrites writing =>
          cases inTurn with
          | asked done rest split up none reading holds length place count =>
              rw [writing] at reading
              cases reading
          | heard up none _ text place count =>
              refine goes_quietly (.turn earlier here ?_ words valid other room ?_)
              · exact ⟨links.up, (Link.send_broken ..).trans links.down.1,
                  (Link.send_closed ..).trans links.down.2⟩
              · refine .answered [] system.buffer rfl up ?_ ⟨rfl, rfl, rfl⟩
                  (LineReader.holds_nil _ place) count
                rw [Link.send_arriving links.down.1, none, text, List.nil_append]
          | answered done rest split up sent ready holds count =>
              have reading := ready.1
              rw [writing] at reading
              cases reading

theorem received_words (system : System) (result : Option Bytes) (down : Link UInt8) :
    (received system result down).1.words = system.words := by
  unfold received
  split
  · dsimp only
    split <;> rfl
  · rfl

theorem total_mono {system next : System} {event : Event} {made : List Call}
    (turn : Turn system event next made) : total system.words ≤ total next.words := by
  cases turn with
  | sends here other =>
      rw [total_append]
      exact Nat.le_add_right ..
  | reads result down here got =>
      rw [received_words]
  | _ => exact Nat.le_refl _

/-- A session goes on well until the words have filled the buffer. -/
theorem session_goes {rcvBuffer rBuffer : CBuffer.Memory BUFSIZ} {events : List Event}
    {system : System} {calls : List Call}
    (ran : exec step (start rcvBuffer rBuffer) events = some (system, calls)) :
    Goes system calls := by
  refine Machine.exec_invariant (fun calls system => Goes system calls) ?_
    (goes_quietly (inv_start rcvBuffer rBuffer)) ran
  intro before state event next made goes taken
  have turn := turn_of_step taken
  rcases goes with ⟨sound, inv⟩ | ⟨failed, full⟩
  · rcases inv_turn inv turn with ⟨fresh, kept⟩ | ⟨failed, full⟩
    · exact .inl ⟨List.forall_mem_append.mpr ⟨sound, fresh⟩, kept⟩
    · exact .inr ⟨fun all => failed (List.forall_mem_append.mp all).2, full⟩
  · exact .inr ⟨fun all => failed (List.forall_mem_append.mp all).1,
      full.trans (total_mono turn)⟩

/-- Between its turns a session has printed every word, and stored inside
`rcvBuffer` only, exactly if its words have fewer than `BUFSIZ` bytes in all. -/
theorem session_echoes_iff (rcvBuffer rBuffer : CBuffer.Memory BUFSIZ) (events : List Event)
    (system : System) (calls : List Call)
    (ran : exec step (start rcvBuffer rBuffer) events = some (system, calls))
    (between : system.pc ≠ .receiving) :
    (∀ call ∈ calls, Sound call) ↔ total system.words < BUFSIZ := by
  rcases session_goes ran with ⟨sound, inv⟩ | ⟨failed, full⟩
  · refine iff_of_true sound ?_
    cases inv with
    | between here links up down ready count room valid => exact room
    | turn earlier here links words valid other room inTurn => exact absurd here between
    | closed here room => exact room
  · exact iff_of_false failed (Nat.not_lt.mpr full)

def oneWord : List Event :=
  [.scan [97], .write, .serverRead (some [97]), .serverRead (some [0]), .serverWrite,
    .read (some [97]), .read (some [0])]

theorem session_echoes_oneWord :
    ∃ system calls, exec step (start (.zeros _) (.zeros _)) oneWord = some (system, calls) ∧
      .echo [97] [97] ∈ calls ∧ ∀ call ∈ calls, Sound call := by
  have result : (exec step (start (.zeros _) (.zeros _)) oneWord).map
      (fun result => (result.1.pc, result.1.words, result.2)) =
      some (.scanning, [[97]], [.store 0, .store 1, .store 1, .echo [97] [97]]) := by
    decide +kernel
  obtain ⟨⟨system, calls⟩, ran, same⟩ := Option.map_eq_some_iff.mp result
  simp only [Prod.mk.injEq] at same
  obtain ⟨pc, words, made⟩ := same
  have sound := session_echoes_iff (.zeros _) (.zeros _) oneWord system calls ran (by simp [pc])
  exact ⟨system, calls, ran, by simp [made], sound.mpr (by rw [words]; decide)⟩

/-! A session can go through any words, and words enough fill the buffer. -/

theorem client_drains (rest : Bytes) {system : System} (here : system.pc = .receiving)
    (sent : system.down.arriving = rest ++ [0]) :
    ∃ events next calls, exec step system events = some (next, calls) ∧
      next.pc = .scanning ∧ next.words = system.words := by
  induction rest generalizing system with
  | nil =>
      have got := (Link.read_head sent).1
      have taken : step system (.read (some [0])) =
          some (received system (some [0]) (system.down.take 1)) := by
        simp [step, here, got]
      rw [received_last _ rfl] at taken
      exact ⟨_, _, _, Machine.exec_single taken, rfl, rfl⟩
  | cons byte rest ih =>
      obtain ⟨got, left⟩ := Link.read_head sent
      have taken : step system (.read (some [byte])) =
          some (received system (some [byte]) (system.down.take 1)) := by
        simp [step, here, got]
      cases last : (system.reader.pass byte).2 with
      | true =>
          rw [received_last _ last] at taken
          exact ⟨_, _, _, Machine.exec_single taken, rfl, rfl⟩
      | false =>
          rw [received_more _ last] at taken
          obtain ⟨events, next, calls, ran, scanning, words⟩ := @ih
            { system with
              reader := (system.reader.pass byte).1, down := system.down.take 1 } here left
          exact ⟨_, next, _, (Machine.exec_cons_iff ..).mpr ⟨_, _, calls, taken, ran, rfl⟩,
            scanning, words⟩

theorem server_reads {server : Server} (here : server.pc = .reading) (byte : UInt8) :
    ∃ next made, LineServer.step server (.read (some [byte])) = some (next, made) := by
  simp only [LineServer.step, here]
  split <;> exact ⟨_, _, rfl⟩

/-- From anywhere in a turn the session can go on to the end of the turn. -/
theorem turn_completes (count : Nat) {system : System} (inv : Inv system)
    (here : system.pc = .receiving) (left : system.up.arriving.length = count) :
    ∃ events next calls, exec step system events = some (next, calls) ∧
      next.pc = .scanning ∧ next.words = system.words := by
  induction count using Nat.strong_induction_on generalizing system with
  | _ count ih =>
  cases inv with
  | between idle _ _ _ _ _ _ _ => simp [here] at idle
  | closed closed _ => simp [here] at closed
  | turn earlier _ links words valid other room inTurn =>
      have inv := Inv.turn earlier here links words valid other room inTurn
      cases inTurn with
      | answered done rest split up sent ready holds length => exact client_drains rest here sent
      | heard up none writing text place length =>
          have taken : step system .serverWrite = some ({ system with
              server := ⟨.reading, LineServer.again system.server.reader⟩
              down := system.down.send (system.server.reader.text ++ [0]) }, []) := by
            simp [step, LineServer.step, writing]
          have sent := Link.send_arriving links.down.1 (system.server.reader.text ++ [0])
          rw [none, List.nil_append] at sent
          obtain ⟨events, next, calls, ran, scanning, same⟩ := @client_drains _
            { system with
              server := ⟨.reading, LineServer.again system.server.reader⟩
              down := system.down.send (system.server.reader.text ++ [0]) } here sent
          exact ⟨_, next, _, (Machine.exec_cons_iff ..).mpr ⟨_, _, calls, taken, ran, rfl⟩,
            scanning, same⟩
      | asked done rest split up none reading holds length place counted =>
          obtain ⟨byte, more, arriving⟩ : ∃ byte more, system.up.arriving = byte :: more := by
            rw [up]
            cases rest <;> exact ⟨_, _, rfl⟩
          obtain ⟨got, behind⟩ := Link.read_head arriving
          obtain ⟨server, made, stepped⟩ := server_reads reading byte
          have taken : step system (.serverRead (some [byte])) = some ({ system with
              server := server
              up := system.up.take 1
              down := if server.pc = .closed then system.down.close else system.down }, []) := by
            simp [step, LineServer.takes, stepped, got]
          rcases inv_turn inv (turn_of_step taken) with ⟨_, kept⟩ | ⟨failed, _⟩
          · have fewer : more.length < count := by
              rw [← left, arriving]
              exact Nat.lt_succ_self _
            obtain ⟨events, next, calls, ran, scanning, same⟩ :=
              ih more.length fewer kept here (congrArg List.length behind)
            exact ⟨_, next, _, (Machine.exec_cons_iff ..).mpr ⟨_, _, calls, taken, ran, rfl⟩,
              scanning, same⟩
          · exact absurd (by simp) failed

theorem word_enters {system : System} (inv : Inv system) (here : system.pc = .scanning)
    {word : Bytes} (valid : Word word) (other : word ≠ quit) :
    ∃ events next calls, exec step system events = some (next, calls) ∧
      next.pc = .scanning ∧ next.words = system.words ++ [word] := by
  have scans : step system (.scan word) =
      some ({ system with buffer := word, pc := .writing }, []) := by
    simp [step, here, valid]
  have writes : step { system with buffer := word, pc := .writing } .write = some ({ system with
      buffer := word
      up := system.up.send (word ++ [0])
      words := system.words ++ [word]
      reader := { system.reader with place := 0 }
      pc := .receiving }, []) := by
    simp [step, other]
  rcases inv_turn inv (turn_of_step scans) with ⟨_, scanned⟩ | ⟨failed, _⟩
  · rcases inv_turn scanned (turn_of_step writes) with ⟨_, written⟩ | ⟨failed, _⟩
    · obtain ⟨events, next, calls, ran, scanning, same⟩ := turn_completes _ written rfl rfl
      exact ⟨_, next, _, (Machine.exec_cons_iff ..).mpr ⟨_, _, _, scans,
        (Machine.exec_cons_iff ..).mpr ⟨_, _, calls, writes, ran, rfl⟩, rfl⟩, scanning, same⟩
    · exact absurd (by simp) failed
  · exact absurd (by simp) failed

def half : Bytes := List.replicate 4096 97

theorem half_length : half.length = 4096 := List.length_replicate

theorem half_word : Word half ∧ half ≠ quit := by
  refine ⟨⟨?_, fun byte member => ?_, ?_⟩, ?_⟩
  · intro none
    have length := half_length
    rw [none] at length
    cases length
  · rw [List.eq_of_mem_replicate member]
    decide
  · rw [half_length]
    decide
  · intro same
    have length := half_length
    rw [same] at length
    cases length

theorem session_overflows :
    ∃ events system calls,
      exec step (start (.zeros _) (.zeros _)) events = some (system, calls) ∧
      system.pc = .scanning ∧ system.words = [half, half] ∧ ¬ ∀ call ∈ calls, Sound call := by
  obtain ⟨valid, other⟩ := half_word
  obtain ⟨first, middle, early, ran, scanning, words⟩ :=
    word_enters (inv_start (.zeros _) (.zeros _)) rfl valid other
  have short : total middle.words < BUFSIZ := by
    rw [words, total_append, half_length]
    decide
  rcases session_goes ran with ⟨_, inv⟩ | ⟨_, full⟩
  · obtain ⟨second, last, late, more, still, both⟩ := word_enters inv scanning valid other
    have whole := (Machine.exec_append_iff ..).mpr ⟨_, _, _, ran, more, rfl⟩
    have pair : last.words = [half, half] := by
      rw [both, words]
      rfl
    have count : total last.words = BUFSIZ := by
      rw [both, total_append, words, total_append, half_length]
      rfl
    refine ⟨_, last, _, whole, still, pair, fun sound => ?_⟩
    rcases session_goes whole with ⟨_, kept⟩ | ⟨failed, _⟩
    · cases kept with
      | between _ _ _ _ _ _ room _ => omega
      | turn _ receiving _ _ _ _ _ _ => simp [still] at receiving
      | closed closed _ => simp [still] at closed
    · exact failed sound
  · omega

end NetworkTest.LineEcho
