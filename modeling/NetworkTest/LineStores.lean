import Mathlib.Data.List.Induction
import NetworkTest.LineServer

/-!
Where the loops that read one byte at a time store: those of hello_server of mon, of
ls_server and ls_client of tue/ls_srv_client, and of echo_server of tue/echo. The
three servers read a line again and again into the same buffer, ls_client one reply.
-/

namespace NetworkTest.LineStores

open CBuffer (Bytes BUFSIZ Memory)
open LineReader (Reader)
open Machine (Step exec)

inductive Program where
  | hello_server
  | ls_server
  | echo_server
  | ls_client
  deriving DecidableEq

variable {size : Nat}

/-- One pass of the loop of ls_client, which keeps every byte. -/
def receive (reader : Reader size) (byte : UInt8) : Reader size × Bool :=
  if reader.length = size then (reader.store byte, true)
  else
    ({ reader.store byte with place := reader.place + 1, length := reader.length + 1 }, false)

def Program.pass : Program → Reader size → UInt8 → Reader size × Bool
  | .hello_server => Reader.pass
  | .ls_server => Reader.pass
  | .echo_server => Reader.pass
  | .ls_client => receive

def Program.skips : Program → UInt8 → Bool
  | .ls_client, _ => false
  | _, byte => byte = 13

def Program.ends : Program → UInt8 → Bool
  | .ls_client, _ => false
  | _, byte => byte = 10 ∨ byte = 0

inductive Pc where
  | reading
  | done
  deriving DecidableEq

structure Loop (size : Nat) where
  pc : Pc
  reader : Reader size
  deriving DecidableEq

/-- What `read` returns, and the beginning of the next line. -/
inductive Event where
  | byte (byte : UInt8)
  | ended
  | failed
  | again
  deriving DecidableEq

/-- The calls of a step are the places of the buffer where it stores; the last store of
a line is that of the zero. -/
def step (program : Program) : Step (Loop size) Event Nat := fun loop event =>
  match loop.pc with
  | .reading =>
      match event with
      | .byte byte =>
          let read := program.pass loop.reader byte
          if read.2 then
            some ({ pc := .done, reader := read.1.finish }, [loop.reader.place, read.1.length])
          else some ({ loop with reader := read.1 }, [loop.reader.place])
      | .ended => some ({ pc := .done, reader := loop.reader.finish }, [loop.reader.length])
      | .failed => some ({ pc := .done, reader := loop.reader.finish }, [loop.reader.length])
      | .again => none
  | .done =>
      match event with
      | .again =>
          some ({ pc := .reading, reader := { loop.reader with place := 0, length := 0 } }, [])
      | _ => none

def start (buffer : Memory size) : Loop size := ⟨.reading, ⟨buffer, 0, 0⟩⟩

inductive Turn (program : Program) (loop : Loop size) : Event → Loop size → List Nat → Prop where
  | reads (byte : UInt8) (here : loop.pc = .reading)
      (more : (program.pass loop.reader byte).2 = false) :
      Turn program loop (.byte byte) ⟨.reading, (program.pass loop.reader byte).1⟩
        [loop.reader.place]
  | readsLast (byte : UInt8) (here : loop.pc = .reading)
      (last : (program.pass loop.reader byte).2 = true) :
      Turn program loop (.byte byte) ⟨.done, (program.pass loop.reader byte).1.finish⟩
        [loop.reader.place, (program.pass loop.reader byte).1.length]
  | stops (event : Event) (here : loop.pc = .reading) (nothing : event = .ended ∨ event = .failed) :
      Turn program loop event ⟨.done, loop.reader.finish⟩ [loop.reader.length]
  | begins (here : loop.pc = .done) :
      Turn program loop .again ⟨.reading, { loop.reader with place := 0, length := 0 }⟩ []

theorem turn_of_step {program : Program} {loop next : Loop size} {event : Event}
    {made : List Nat} (taken : step program loop event = some (next, made)) :
    Turn program loop event next made := by
  cases here : loop.pc with
  | reading =>
      cases event with
      | byte byte =>
          cases last : (program.pass loop.reader byte).2 with
          | true =>
              simp only [step, here, last, if_true, Option.some.injEq, Prod.mk.injEq] at taken
              obtain ⟨rfl, rfl⟩ := taken
              exact .readsLast byte here last
          | false =>
              simp only [step, here, last, Bool.false_eq_true, if_false, Option.some.injEq,
                Prod.mk.injEq] at taken
              obtain ⟨rfl, rfl⟩ := taken
              exact .reads byte here last
      | ended =>
          simp only [step, here, Option.some.injEq, Prod.mk.injEq] at taken
          obtain ⟨rfl, rfl⟩ := taken
          exact .stops .ended here (.inl rfl)
      | failed =>
          simp only [step, here, Option.some.injEq, Prod.mk.injEq] at taken
          obtain ⟨rfl, rfl⟩ := taken
          exact .stops .failed here (.inr rfl)
      | again => simp [step, here] at taken
  | done =>
      cases event with
      | again =>
          simp only [step, here, Option.some.injEq, Prod.mk.injEq] at taken
          obtain ⟨rfl, rfl⟩ := taken
          exact .begins here
      | _ => simp [step, here] at taken

/-- The pass of every program: a byte passed over leaves the reader where it is, and a
byte that ends the line or finds the count full ends the loop. -/
theorem pass_eq (program : Program) (reader : Reader size) (byte : UInt8) :
    program.pass reader byte =
      if program.skips byte then (reader.store byte, false)
      else if program.ends byte ∨ reader.length = size then (reader.store byte, true)
      else
        ({ reader.store byte with place := reader.place + 1, length := reader.length + 1 },
          false) := by
  cases program <;>
    simp [Program.pass, Program.skips, Program.ends, Reader.pass, receive, or_assoc]

/-! The lines of a run. -/

def bytes : List Event → Bytes
  | [] => []
  | .byte byte :: rest => byte :: bytes rest
  | _ :: rest => bytes rest

/-- What the loop makes of the bytes of one reading: those up to the first that ends
the line, without those passed over. -/
def line (program : Program) (data : Bytes) : Bytes :=
  (data.takeWhile (fun byte => !program.ends byte)).filter (fun byte => !program.skips byte)

def readings : List Event → List (List Event)
  | [] => [[]]
  | .again :: rest => [] :: readings rest
  | event :: rest => (readings rest).modifyHead (event :: ·)

theorem readings_eq_cons (events : List Event) :
    ∃ front others, readings events = front :: others := by
  induction events with
  | nil => exact ⟨_, _, rfl⟩
  | cons event rest ih =>
      obtain ⟨front, others, split⟩ := ih
      cases event <;> simp [readings, split]

/-- The line of a reading is shorter than the buffer. -/
def Short (program : Program) (size : Nat) (reading : List Event) : Prop :=
  (line program (bytes reading)).length < size

/-- The rest of a reading of which `count` bytes have been kept, and all later ones,
fit the buffer. -/
def Fits (program : Program) (size count : Nat) (events : List Event) : Prop :=
  ∃ front others, readings events = front :: others ∧
    count + (line program (bytes front)).length < size ∧ ∀ other ∈ others, Short program size other

theorem fits_iff {program : Program} {count : Nat} {events front : List Event}
    {others : List (List Event)} (split : readings events = front :: others) :
    Fits program size count events ↔
      count + (line program (bytes front)).length < size ∧
        ∀ other ∈ others, Short program size other := by
  constructor
  · rintro ⟨front, others, same, fits⟩
    obtain ⟨rfl, rfl⟩ := List.cons.inj (split.symm.trans same)
    exact fits
  · intro fits
    exact ⟨front, others, split, fits⟩

theorem fits_zero_iff (program : Program) (events : List Event) :
    Fits program size 0 events ↔ ∀ reading ∈ readings events, Short program size reading := by
  obtain ⟨front, others, split⟩ := readings_eq_cons events
  rw [fits_iff split, split, List.forall_mem_cons, Nat.zero_add, Short]

theorem not_fits_full (program : Program) (events : List Event) :
    ¬ Fits program size size events := by
  rintro ⟨front, others, split, room, _⟩
  omega

theorem fits_again (program : Program) (count : Nat) (rest : List Event) :
    Fits program size count (.again :: rest) ↔ count < size ∧ Fits program size 0 rest := by
  rw [fits_iff rfl, fits_zero_iff]
  simp [bytes, line]

theorem fits_byte {program : Program} {byte : UInt8} (inside : program.ends byte = false)
    (count : Nat) (rest : List Event) :
    Fits program size count (.byte byte :: rest) ↔
      Fits program size (if program.skips byte then count else count + 1) rest := by
  obtain ⟨front, others, split⟩ := readings_eq_cons rest
  have more : readings (.byte byte :: rest) = (.byte byte :: front) :: others := by
    rw [readings, split, List.modifyHead_cons]
    simp
  rw [fits_iff more, fits_iff split]
  cases skipped : program.skips byte with
  | true => simp [bytes, line, inside, skipped]
  | false => simp [bytes, line, inside, skipped, Nat.add_assoc, Nat.add_comm]

theorem fits_last {program : Program} {event : Event} {rest : List Event}
    {others : List (List Event)} (nothing : line program (bytes [event]) = [])
    (goes : event ≠ .again) (behind : readings rest = [] :: others) (positive : 0 < size)
    (count : Nat) :
    Fits program size count (event :: rest) ↔ count < size ∧ Fits program size 0 rest := by
  have more : readings (event :: rest) = [event] :: others := by
    cases event with
    | again => contradiction
    | byte byte => simp [readings, behind]
    | ended => simp [readings, behind]
    | failed => simp [readings, behind]
  rw [fits_iff more, fits_iff behind, nothing]
  simp [bytes, line, positive]

/-! The stores of a run. -/

def Loop.kept (loop : Loop size) : Nat :=
  match loop.pc with
  | .reading => loop.reader.length
  | .done => 0

/-- Every store is inside the buffer, and the loop does not go on once it is full. -/
def Inside (last : Loop size) (stores : List Nat) : Prop :=
  (∀ place ∈ stores, place < size) ∧ (last.pc = .reading → last.reader.length < size)

theorem inside_append_iff (last : Loop size) (stores later : List Nat) :
    Inside last (stores ++ later) ↔ (∀ place ∈ stores, place < size) ∧ Inside last later := by
  rw [Inside, List.forall_mem_append, and_assoc, Inside]

theorem readings_done {program : Program} {loop last : Loop size} {events : List Event}
    {stores : List Nat} (here : loop.pc = .done)
    (ran : exec (step program) loop events = some (last, stores)) :
    ∃ others, readings events = [] :: others := by
  cases events with
  | nil => exact ⟨[], rfl⟩
  | cons event rest =>
      obtain ⟨next, made, later, taken, tail, rfl⟩ := (Machine.exec_cons_iff ..).mp ran
      cases turn_of_step taken with
      | begins _ => exact ⟨_, rfl⟩
      | _ => simp_all

/-- The loop counts its bytes at the place where it stores the next, at most at the
first one behind the buffer. -/
def Placed (loop : Loop size) : Prop :=
  loop.pc = .reading → loop.reader.place = loop.reader.length ∧ loop.reader.length ≤ size

theorem skips_of_ends {program : Program} {byte : UInt8} (ends : program.ends byte = true) :
    program.skips byte = false := by
  cases program <;> simp_all [Program.ends, Program.skips] <;>
    rcases ends with rfl | rfl <;> decide

theorem kept_reading {loop : Loop size} (here : loop.pc = .reading) :
    loop.kept = loop.reader.length := by
  rw [Loop.kept, here]

theorem pass_more {program : Program} {reader : Reader size} {byte : UInt8}
    (more : (program.pass reader byte).2 = false) :
    program.ends byte = false ∧ (program.pass reader byte).1 =
      if program.skips byte then reader.store byte
      else { reader.store byte with place := reader.place + 1, length := reader.length + 1 } := by
  rw [pass_eq] at more ⊢
  cases skipped : program.skips byte with
  | true =>
      refine ⟨?_, rfl⟩
      by_contra ends
      rw [skips_of_ends (by simpa using ends)] at skipped
      cases skipped
  | false =>
      by_cases last : program.ends byte ∨ reader.length = size
      · simp [skipped, last] at more
      · exact ⟨by simpa using not_or.mp last |>.1, by simp [last]⟩

theorem pass_last {program : Program} {reader : Reader size} {byte : UInt8}
    (finished : (program.pass reader byte).2 = true) (room : reader.length ≠ size) :
    program.ends byte = true ∧ (program.pass reader byte).1 = reader.store byte := by
  rw [pass_eq] at finished ⊢
  cases skipped : program.skips byte with
  | true => simp [skipped] at finished
  | false =>
      cases ends : program.ends byte with
      | true => simp
      | false => simp [skipped, ends, room] at finished

theorem placed_pass {reader next : Reader size} {byte : UInt8} {skipped : Bool}
    (same : reader.place = reader.length) (room : reader.length < size)
    (read : next = if skipped then reader.store byte
      else { reader.store byte with place := reader.place + 1, length := reader.length + 1 }) :
    next.place = next.length ∧ next.length ≤ size := by
  subst read
  cases skipped with
  | true => exact ⟨same, Nat.le_of_lt room⟩
  | false => exact ⟨congrArg (· + 1) same, room⟩

theorem full_iff {program : Program} {last : Loop size} {made later : List Nat}
    {events : List Event} {place : Nat} (stored : place ∈ made) (behind : size ≤ place) :
    ((∀ place ∈ made, place < size) ∧ Inside last later) ↔ Fits program size size events := by
  apply iff_of_false _ (not_fits_full program events)
  rintro ⟨inside, _⟩
  exact absurd (inside place stored) (Nat.not_lt_of_le behind)

theorem inside_iff_fits {program : Program} {loop last : Loop size} {events : List Event}
    {stores : List Nat} (positive : 0 < size) (placed : Placed loop)
    (ran : exec (step program) loop events = some (last, stores)) :
    Inside last stores ↔ Fits program size loop.kept events := by
  induction events generalizing loop stores with
  | nil =>
      cases ran
      rw [fits_iff rfl]
      cases here : last.pc <;> simp [Inside, Loop.kept, here, bytes, line, positive]
  | cons event rest ih =>
      obtain ⟨next, made, later, taken, tail, rfl⟩ := (Machine.exec_cons_iff ..).mp ran
      rw [inside_append_iff]
      cases turn_of_step taken with
      | reads byte here more =>
          obtain ⟨same, within⟩ := placed here
          rw [kept_reading here]
          by_cases full : loop.reader.length = size
          · rw [full]
            exact full_iff (List.mem_singleton_self _) (Nat.le_of_eq (same.trans full).symm)
          · obtain ⟨inside, read⟩ := pass_more more
            have room : loop.reader.length < size := Nat.lt_of_le_of_ne within full
            have reached : Placed ⟨.reading, (program.pass loop.reader byte).1⟩ :=
              fun _ => placed_pass same room read
            rw [ih reached tail, fits_byte inside, kept_reading rfl]
            dsimp only
            rw [read]
            cases program.skips byte <;> simp [same, room, Reader.store]
      | readsLast byte here finished =>
          obtain ⟨same, within⟩ := placed here
          rw [kept_reading here]
          by_cases full : loop.reader.length = size
          · rw [full]
            exact full_iff List.mem_cons_self (Nat.le_of_eq (same.trans full).symm)
          · obtain ⟨ends, read⟩ := pass_last finished full
            obtain ⟨others, behind⟩ := readings_done rfl tail
            have nothing : line program (bytes [.byte byte]) = [] := by
              simp [bytes, line, ends]
            rw [fits_last nothing (by simp) behind positive, ih (by intro; contradiction) tail,
              read]
            simp [Loop.kept, Reader.store, same]
      | stops _ here nothing =>
          obtain ⟨others, behind⟩ := readings_done rfl tail
          have none : line program (bytes [event]) = [] := by
            rcases nothing with rfl | rfl <;> rfl
          have goes : event ≠ .again := by
            rcases nothing with rfl | rfl <;> simp
          rw [fits_last none goes behind positive, kept_reading here,
            ih (by intro; contradiction) tail]
          simp [Loop.kept]
      | begins here =>
          have kept : loop.kept = 0 := by rw [Loop.kept, here]
          rw [fits_again, kept, ih (fun _ => ⟨rfl, Nat.zero_le _⟩) tail]
          simp [Loop.kept, positive]

/-! The loop of echo_server in its whole program. -/

def reads : LineServer.Event → List Event
  | .read (some [byte]) => [.byte byte]
  | .read (some _) => [.ended]
  | .read none => [.failed]
  | .write ok => if ok then [.again] else []

def places : List LineServer.Call → List Nat :=
  List.filterMap fun call =>
    match call with
    | .store index => some index
    | _ => none

structure Matches (server : LineServer.Server) (loop : Loop BUFSIZ) : Prop where
  buffer : loop.reader.buffer = server.reader.buffer
  reading : server.pc = .reading → loop = ⟨.reading, server.reader⟩
  idle : server.pc ≠ .reading → loop.pc = .done

theorem places_ended (reader : Reader BUFSIZ) :
    places (LineServer.ended reader).2 = [reader.length] := by
  rw [LineServer.ended]
  split <;> rfl

theorem matches_ended (reader : Reader BUFSIZ) :
    Matches (LineServer.ended reader).1 ⟨.done, reader.finish⟩ := by
  rw [LineServer.ended]
  split
  · exact ⟨rfl, nofun, fun _ => rfl⟩
  · exact ⟨rfl, nofun, fun _ => rfl⟩

theorem echo_step {server next : LineServer.Server} {loop : Loop BUFSIZ}
    {event : LineServer.Event} {calls : List LineServer.Call} (held : Matches server loop)
    (taken : LineServer.step server event = some (next, calls)) :
    ∃ reached, exec (step .echo_server) loop (reads event) = some (reached, places calls) ∧
      Matches next reached := by
  cases LineServer.turn_of_step taken with
  | reads byte here more =>
      obtain rfl := held.reading here
      refine ⟨⟨.reading, (server.reader.pass byte).1⟩, ?_, rfl, fun _ => rfl, ?_⟩
      · apply Machine.exec_single
        simp [step, Program.pass, more]
        rfl
      · intro idle
        exact absurd here idle
  | readsLast byte here last =>
      obtain rfl := held.reading here
      refine ⟨⟨.done, (server.reader.pass byte).1.finish⟩, ?_, matches_ended _⟩
      apply Machine.exec_single
      have stored : places (.store server.reader.place ::
          (LineServer.ended (server.reader.pass byte).1).2) =
          server.reader.place :: places (LineServer.ended (server.reader.pass byte).1).2 := rfl
      rw [stored, places_ended]
      simp [step, Program.pass, last]
  | streamEnds result here nothing =>
      obtain rfl := held.reading here
      refine ⟨⟨.done, server.reader.finish⟩, ?_, matches_ended _⟩
      rw [places_ended]
      rcases nothing with rfl | rfl <;> exact Machine.exec_single rfl
  | writes ok here =>
      have done := held.idle (by simp [here])
      cases ok with
      | false => exact ⟨loop, rfl, held.buffer, nofun, fun _ => done⟩
      | true =>
          refine ⟨⟨.reading, { loop.reader with place := 0, length := 0 }⟩, ?_, held.buffer, ?_,
            fun idle => absurd rfl idle⟩
          · apply Machine.exec_single
            simp [step, done]
            rfl
          · intro _
            simp [LineServer.again, held.buffer]

theorem echo_run {server last : LineServer.Server} {loop : Loop BUFSIZ}
    {events : List LineServer.Event} {calls : List LineServer.Call} (held : Matches server loop)
    (ran : exec LineServer.step server events = some (last, calls)) :
    ∃ reached, exec (step .echo_server) loop (events.flatMap reads) =
        some (reached, places calls) ∧ Matches last reached := by
  induction events generalizing server loop calls with
  | nil =>
      cases ran
      exact ⟨loop, rfl, held⟩
  | cons event rest ih =>
      obtain ⟨next, made, later, taken, tail, rfl⟩ := (Machine.exec_cons_iff ..).mp ran
      obtain ⟨middle, first, kept⟩ := echo_step held taken
      obtain ⟨reached, follows, same⟩ := ih kept tail
      refine ⟨reached, ?_, same⟩
      rw [List.flatMap_cons]
      exact (Machine.exec_append_iff ..).mpr
        ⟨middle, _, _, first, follows, List.filterMap_append⟩

/-- Over a whole run of echo_server every store is inside the buffer just when each
line is shorter than it, once the last of them has ended. -/
theorem echo_stores_iff {server last : LineServer.Server} {events : List LineServer.Event}
    {calls : List LineServer.Call} (here : server.pc = .reading)
    (first : server.reader.place = 0) (none : server.reader.length = 0)
    (ended : last.pc ≠ .reading)
    (ran : exec LineServer.step server events = some (last, calls)) :
    (∀ place ∈ places calls, place < BUFSIZ) ↔
      ∀ reading ∈ readings (events.flatMap reads),
        (line .echo_server (bytes reading)).length < BUFSIZ := by
  have held : Matches server ⟨.reading, server.reader⟩ :=
    ⟨rfl, fun _ => rfl, fun idle => absurd here idle⟩
  obtain ⟨reached, follows, same⟩ := echo_run held ran
  have placed : Placed (⟨.reading, server.reader⟩ : Loop BUFSIZ) :=
    fun _ => ⟨first.trans none.symm, by rw [none]; exact Nat.zero_le _⟩
  have fits := inside_iff_fits (by decide) placed follows
  rw [kept_reading rfl, none] at fits
  rw [Inside, same.idle ended] at fits
  apply Iff.trans _ (fits.trans (fits_zero_iff _ _))
  simp

theorem done_of_ended {program : Program} {loop last : Loop size} {events : List Event}
    {stores : List Nat} {event : Event} (final : event ∈ events.getLast?)
    (nothing : event = .ended ∨ event = .failed)
    (ran : exec (step program) loop events = some (last, stores)) : last.pc = .done := by
  obtain ⟨front, rfl⟩ := List.getLast?_eq_some_iff.mp final
  obtain ⟨middle, made, later, head, tail, rfl⟩ := (Machine.exec_append_iff ..).mp ran
  obtain ⟨next, first, second, taken, nil, rfl⟩ := (Machine.exec_cons_iff ..).mp tail
  cases nil
  cases turn_of_step taken with
  | stops _ _ _ => rfl
  | _ => simp at nothing

/-- The loop stores inside the buffer, its zeros too, and it ends with the stream and
where the buffer is full. -/
structure Sound (events : List Event) (last : Loop BUFSIZ) (stores : List Nat) : Prop where
  inside : ∀ place ∈ stores, place < BUFSIZ
  full : last.pc = .reading → last.reader.length < BUFSIZ
  ended : ∀ event ∈ events.getLast?, event = .ended ∨ event = .failed → last.pc = .done

/-- The loop of each program is sound over the lines of a stream just when each of them
is shorter than the buffer. -/
theorem stores_sound_iff (program : Program) (buffer : Memory BUFSIZ) (events : List Event)
    (last : Loop BUFSIZ) (stores : List Nat)
    (ran : exec (step program) (start buffer) events = some (last, stores)) :
    Sound events last stores ↔
      ∀ reading ∈ readings events, (line program (bytes reading)).length < BUFSIZ := by
  have placed : Placed (start buffer) := fun _ => ⟨rfl, Nat.zero_le _⟩
  have fits := inside_iff_fits (by decide) placed ran
  rw [kept_reading rfl] at fits
  apply Iff.trans _ (fits.trans (fits_zero_iff program events))
  constructor
  · rintro ⟨inside, full, _⟩
    exact ⟨inside, full⟩
  · rintro ⟨inside, full⟩
    exact ⟨inside, full, fun event final nothing => done_of_ended final nothing ran⟩

def twoReadings : List Event :=
  [.byte 108, .byte 115, .byte 13, .byte 10, .again, .ended]

theorem stores_sound_twoReadings : ∃ last stores,
    exec (step .ls_server) (start (.zeros BUFSIZ)) twoReadings = some (last, stores) ∧
      Sound twoReadings last stores := by
  have runs : (exec (step .ls_server) (start (.zeros BUFSIZ)) twoReadings).isSome = true := by
    decide +kernel
  obtain ⟨last, stores, ran⟩ := Machine.exec_of_isSome runs
  have short : ∀ reading ∈ readings twoReadings,
      (line .ls_server (bytes reading)).length < BUFSIZ := by decide
  exact ⟨last, stores, ran,
    (stores_sound_iff .ls_server (.zeros BUFSIZ) twoReadings last stores ran).mpr short⟩

theorem exec_replicate {program : Program} {byte : UInt8} (inside : program.ends byte = false)
    (kept : program.skips byte = false) (count : Nat) {loop : Loop size}
    (here : loop.pc = .reading) (same : loop.reader.place = loop.reader.length)
    (room : loop.reader.length + count ≤ size) :
    ∃ next stores,
      exec (step program) loop (.replicate count (.byte byte)) = some (next, stores) ∧
        next.pc = .reading ∧ next.reader.place = loop.reader.length + count ∧
          next.reader.length = loop.reader.length + count := by
  induction count generalizing loop with
  | zero => exact ⟨loop, [], rfl, here, same, rfl⟩
  | succ count ih =>
      have more : program.pass loop.reader byte =
          ({ loop.reader.store byte with
              place := loop.reader.place + 1, length := loop.reader.length + 1 }, false) := by
        have other : loop.reader.length ≠ size := by omega
        simp [pass_eq, kept, inside, other]
      have taken : step program loop (.byte byte) = some (⟨.reading, (program.pass loop.reader
          byte).1⟩, [loop.reader.place]) := by
        simp [step, here, more]
      obtain ⟨next, stores, ran, reading, place, length⟩ :=
        @ih ⟨.reading, (program.pass loop.reader byte).1⟩ rfl (by simp [more, same])
          (by simp only [more]; omega)
      refine ⟨next, [loop.reader.place] ++ stores,
        (Machine.exec_cons_iff ..).mpr ⟨_, _, _, taken, ran, rfl⟩, reading, ?_, ?_⟩
      · simp only [place, more]
        omega
      · simp only [length, more]
        omega

/-- A line of as many bytes as the buffer has: the line feed and the zero are stored
behind it. -/
theorem feed_behind : ¬ ∀ (program : Program) (buffer : Memory BUFSIZ) (events : List Event)
    (last : Loop BUFSIZ) (stores : List Nat),
    exec (step program) (start buffer) events = some (last, stores) →
    Sound events last stores := by
  intro all
  obtain ⟨full, stores, ran, here, place, length⟩ :=
    @exec_replicate BUFSIZ .hello_server 97 rfl rfl BUFSIZ (start (.zeros BUFSIZ)) rfl rfl
      (Nat.le_of_eq (Nat.zero_add _))
  have taken : step .hello_server full (.byte 10) =
      some (⟨.done, (full.reader.store 10).finish⟩, [full.reader.place, full.reader.length]) := by
    simp [step, here, Program.pass, Reader.pass, Reader.store]
  have whole := (Machine.exec_append_iff ..).mpr
    ⟨full, stores, _, ran, Machine.exec_single taken, rfl⟩
  have stored := (all _ _ _ _ _ whole).inside full.reader.place (by simp)
  rw [place] at stored
  exact absurd stored (by simp [start])

end NetworkTest.LineStores
