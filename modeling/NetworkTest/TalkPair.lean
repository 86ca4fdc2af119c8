import NetworkTest.Channel
import NetworkTest.CBuffer
import NetworkTest.Machine

/-!
Two ends of a wen/talk session, in one direction: `do_keyboard` of one program
sends what is typed, `do_socket` of the other prints what it reads. Each stops
at the word `exit`; the one looks for it in what it has typed, the other in
what it has read.
-/

namespace NetworkTest.TalkPair

open CBuffer (Bytes BUFSIZ Memory cstring overwrite)
open Channel (Link)
open Machine (Step exec Along Throughout)

def quit : Bytes := [101, 120, 105, 116]

/-- `strncmp(buffer, quit, 4) == 0`. -/
def BeginsQuit (buffer : Bytes) : Prop := buffer.take 4 = quit

instance (buffer : Bytes) : Decidable (BeginsQuit buffer) :=
  inferInstanceAs (Decidable (_ = _))

/-- `ended` is after the end of the input: the other process of the program goes
on and holds the connection. -/
inductive KeyboardPc where
  | reading
  | stopped
  | ended
  deriving DecidableEq

inductive SocketPc where
  | reading
  | stopped
  deriving DecidableEq

/-- `chunks` are the results of the keyboard's reads so far. -/
structure System where
  keyboard : KeyboardPc
  sbuf : Memory BUFSIZ
  socket : SocketPc
  rbuf : Memory BUFSIZ
  link : Link UInt8
  chunks : List Bytes

inductive Event where
  | key (chunk : Bytes)
  | read (data : Bytes)
  deriving DecidableEq

inductive Call where
  | write (chunk : Bytes)
  | printed (text : Bytes)
  deriving DecidableEq

/-- One pass of `do_keyboard`; its end closes the connection. -/
def do_keyboard (system : System) (chunk : Bytes) (fits : chunk.length ≤ BUFSIZ) :
    System × List Call :=
  if chunk = [] then ({ system with keyboard := .ended }, [])
  else
    let sbuf := system.sbuf.store chunk fits
    let link := system.link.send chunk
    let sent := { system with sbuf := sbuf, link := link, chunks := system.chunks ++ [chunk] }
    if BeginsQuit sbuf.val then
      ({ sent with keyboard := .stopped, link := link.close }, [.write chunk])
    else (sent, [.write chunk])

/-- One pass of `do_socket`, behind a read that has left `link`. -/
def do_socket (system : System) (data : Bytes) (fits : data.length ≤ BUFSIZ)
    (link : Link UInt8) : System × List Call :=
  if data = [] then ({ system with link := link }, [])
  else
    -- behind a full read the zero is stored outside the array
    let rbuf := (system.rbuf.store data fits).set data.length 0
    let read := { system with rbuf := rbuf, link := link }
    if BeginsQuit rbuf.val then ({ read with socket := .stopped }, [.printed (cstring rbuf.val)])
    else (read, [.printed (cstring rbuf.val)])

def step : Step System Event Call := fun system event =>
  match event with
  | .key chunk =>
      if fits : chunk.length ≤ BUFSIZ then
        if system.keyboard = .reading then some (do_keyboard system chunk fits) else none
      else none
  | .read data =>
      if fits : data.length ≤ BUFSIZ then
        match system.socket, system.link.read BUFSIZ (some data) with
        | .reading, some link => some (do_socket system data fits link)
        | _, _ => none
      else none

/-- The two loops begin; their buffers hold anything. -/
def start (sbuf rbuf : Memory BUFSIZ) : System where
  keyboard := .reading
  sbuf := sbuf
  socket := .reading
  rbuf := rbuf
  link := .fresh
  chunks := []

/-! What the buffers add to the comparison. -/

theorem not_begins_short {buffer : Bytes} (short : buffer.length < 4) : ¬ BeginsQuit buffer := by
  intro begins
  have length := congrArg List.length begins
  rw [List.length_take, quit] at length
  simp only [List.length_cons, List.length_nil] at length
  omega

theorem begins_overwrite {buffer data : Bytes} (long : 4 ≤ data.length) :
    BeginsQuit (overwrite buffer data) ↔ BeginsQuit data := by
  rw [BeginsQuit, BeginsQuit, overwrite, List.take_append_of_le_length long]

theorem begins_received (rbuf : Memory BUFSIZ) {data : Bytes} (fits : data.length ≤ BUFSIZ) :
    BeginsQuit ((rbuf.store data fits).set data.length 0).val ↔ BeginsQuit data := by
  rcases Nat.lt_or_ge data.length 4 with short | long
  · have inside : data.length < rbuf.val.length := by
      rw [rbuf.property, BUFSIZ]
      omega
    refine iff_of_false ?_ (not_begins_short short)
    intro begins
    have zero : (0 : UInt8) ∈ quit := by
      rw [← begins]
      simp only [Memory.store, Memory.set]
      rw [CBuffer.overwrite_terminated inside, List.take_append, List.mem_append]
      right
      obtain ⟨rest, count⟩ : ∃ rest, 4 - data.length = rest + 1 := ⟨3 - data.length, by omega⟩
      rw [count, List.take_succ_cons]
      exact List.mem_cons_self
    revert zero
    decide
  · rw [← begins_overwrite long]
    simp only [BeginsQuit, Memory.store, Memory.set]
    rw [List.take_set_of_le long]

inductive Turn (system : System) : Event → System → List Call → Prop where
  | inputEnds (here : system.keyboard = .reading) :
      Turn system (.key []) { system with keyboard := .ended } []
  | types (chunk : Bytes) (fits : chunk.length ≤ BUFSIZ) (more : chunk ≠ [])
      (here : system.keyboard = .reading)
      (goes : ¬ BeginsQuit (system.sbuf.store chunk fits).val) :
      Turn system (.key chunk)
        { system with
          sbuf := system.sbuf.store chunk fits
          link := system.link.send chunk
          chunks := system.chunks ++ [chunk] } [.write chunk]
  | typesLast (chunk : Bytes) (fits : chunk.length ≤ BUFSIZ) (more : chunk ≠ [])
      (here : system.keyboard = .reading)
      (stops : BeginsQuit (system.sbuf.store chunk fits).val) :
      Turn system (.key chunk)
        { system with
          sbuf := system.sbuf.store chunk fits
          link := (system.link.send chunk).close
          chunks := system.chunks ++ [chunk]
          keyboard := .stopped } [.write chunk]
  | readsNothing (link : Link UInt8) (here : system.socket = .reading)
      (got : system.link.read BUFSIZ (some []) = some link) :
      Turn system (.read []) { system with link := link } []
  | reads (data text : Bytes) (rbuf : Memory BUFSIZ) (link : Link UInt8) (more : data ≠ [])
      (here : system.socket = .reading)
      (got : system.link.read BUFSIZ (some data) = some link) :
      Turn system (.read data)
        { system with
          rbuf := rbuf
          link := link
          socket := if BeginsQuit data then .stopped else .reading } [.printed text]

theorem turn_of_step {system next : System} {event : Event} {made : List Call}
    (taken : step system event = some (next, made)) : Turn system event next made := by
  unfold step at taken
  split at taken
  case h_1 chunk =>
      split at taken
      case isFalse => contradiction
      case isTrue fits =>
          simp only [Option.ite_none_right_eq_some, Option.some.injEq] at taken
          obtain ⟨here, taken⟩ := taken
          rw [do_keyboard] at taken
          split at taken
          · subst chunk
            cases taken
            exact .inputEnds here
          dsimp only at taken
          split at taken
          · cases taken
            exact .typesLast chunk fits ‹_› here ‹_›
          · cases taken
            exact .types chunk fits ‹_› here ‹_›
  case h_2 data =>
      split at taken
      case isFalse => contradiction
      case isTrue fits =>
          split at taken
          case h_2 => contradiction
          case h_1 link here got =>
              rw [Option.some.injEq, do_socket] at taken
              split at taken
              · subst data
                cases taken
                exact .readsNothing link here got
              · have turn := Turn.reads data
                  (cstring ((system.rbuf.store data fits).set data.length 0).val)
                  ((system.rbuf.store data fits).set data.length 0) link ‹_› here got
                simp only [begins_received] at taken
                split at taken
                · rw [if_pos ‹_›] at turn
                  cases taken
                  exact turn
                · rw [if_neg ‹_›] at turn
                  cases taken
                  rw [← here] at turn
                  exact turn

structure Inv (system : System) : Prop where
  held : system.link.broken = false
  sent : system.link.sent = system.chunks.flatten
  closed : system.link.closed = true → system.keyboard = .stopped
  wrote : system.keyboard = .stopped → system.chunks ≠ []

theorem inv_start (sbuf rbuf : Memory BUFSIZ) : Inv (start sbuf rbuf) := by
  constructor <;> simp [start, Link.fresh]

theorem inv_turn {system next : System} {event : Event} {made : List Call} (inv : Inv system)
    (turn : Turn system event next made) : Inv next := by
  cases turn with
  | inputEnds here =>
      refine ⟨inv.held, inv.sent, fun closed => ?_, nofun⟩
      have stopped := inv.closed closed
      rw [here] at stopped
      cases stopped
  | types chunk fits more here goes =>
      constructor
      case held => rw [Link.send_broken, inv.held]
      case sent =>
          rw [Link.send_sent inv.held, inv.sent, List.flatten_append, List.flatten_singleton]
      case closed =>
          rw [Link.send_closed]
          exact inv.closed
      case wrote => simp
  | typesLast chunk fits more here stops =>
      constructor
      case held => exact (Link.send_broken ..).trans inv.held
      case sent =>
          refine (Link.send_sent inv.held chunk).trans ?_
          rw [inv.sent, List.flatten_append, List.flatten_singleton]
      case closed => exact fun _ => rfl
      case wrote => simp
  | readsNothing link here got =>
      obtain ⟨sent, closed, broken⟩ := Link.read_sent got
      exact ⟨broken.trans inv.held, sent.trans inv.sent, closed ▸ inv.closed, inv.wrote⟩
  | reads data text rbuf link more here got =>
      obtain ⟨sent, closed, broken⟩ := Link.read_sent got
      exact ⟨broken.trans inv.held, sent.trans inv.sent, closed ▸ inv.closed, inv.wrote⟩

/-! The two ends agree on the end. -/

/-- The keyboard's side has typed a chunk that begins with the word. -/
def Said (system : System) : Prop := ∃ chunk ∈ system.chunks, BeginsQuit chunk

instance (system : System) : Decidable (Said system) :=
  inferInstanceAs (Decidable (∃ chunk ∈ system.chunks, _))

/-- `do_keyboard` has stopped exactly if a chunk began with the word, and
`do_socket` exactly if it has printed all up to the end of that chunk. -/
def Agreed (system : System) : Prop :=
  (system.keyboard = .stopped ↔ Said system) ∧
    (system.socket = .stopped ↔
      system.keyboard = .stopped ∧ system.link.taken = system.chunks.flatten)

instance (system : System) : Decidable (Agreed system) :=
  inferInstanceAs (Decidable (_ ∧ _))

/-- A chunk of fewer than four bytes does not make the word together with what
is left in the buffer; and of the read results exactly the one that ends where
the chunk with the word ends begins with it. -/
def Aligned (system : System) : Event → Prop
  | .key chunk =>
      chunk ≠ [] ∧ chunk.length < 4 → ¬ BeginsQuit (overwrite system.sbuf.val chunk)
  | .read data => BeginsQuit data ↔ Said system ∧ data = system.link.arriving

instance (system : System) : (event : Event) → Decidable (Aligned system event)
  | .key chunk => inferInstanceAs (Decidable
      (chunk ≠ [] ∧ chunk.length < 4 → ¬ BeginsQuit (overwrite system.sbuf.val chunk)))
  | .read data =>
      inferInstanceAs (Decidable (BeginsQuit data ↔ Said system ∧ data = system.link.arriving))

theorem begins_typed_iff (sbuf : Memory BUFSIZ) {chunk : Bytes} (fits : chunk.length ≤ BUFSIZ)
    (more : chunk ≠ []) :
    (BeginsQuit (sbuf.store chunk fits).val ↔ BeginsQuit chunk) ↔
      (chunk ≠ [] ∧ chunk.length < 4 → ¬ BeginsQuit (overwrite sbuf.val chunk)) := by
  rcases Nat.lt_or_ge chunk.length 4 with short | long
  · simp [not_begins_short short, short, more, Memory.store]
  · simp [begins_overwrite long, Nat.not_lt.mpr long, Memory.store]

theorem said_append (chunks : List Bytes) (chunk : Bytes) :
    (∃ old ∈ chunks ++ [chunk], BeginsQuit old) ↔
      (∃ old ∈ chunks, BeginsQuit old) ∨ BeginsQuit chunk := by
  simp only [List.mem_append, List.mem_singleton, or_and_right, exists_or, exists_eq_left]

theorem not_printed {system : System} (inv : Inv system) {chunk : Bytes} (more : chunk ≠ []) :
    system.link.taken ≠ (system.chunks ++ [chunk]).flatten := by
  intro same
  have whole := congrArg List.length (system.link.whole inv.held)
  have length := congrArg List.length same
  have some := List.length_pos_iff.mpr more
  rw [inv.sent, List.length_append] at whole
  rw [List.flatten_append, List.flatten_singleton, List.length_append] at length
  omega

theorem agreed_turn {system next : System} {event : Event} {made : List Call}
    (inv : Inv system) (agreed : Agreed system) (turn : Turn system event next made) :
    Agreed next ↔ Aligned system event := by
  obtain ⟨word, ends⟩ := agreed
  cases turn with
  | inputEnds here =>
      simp only [here, reduceCtorEq, false_iff, false_and, iff_false] at word ends
      simp [Agreed, Aligned, Said, ends, show ¬ ∃ chunk ∈ system.chunks, _ from word]
  | types chunk fits more here goes =>
      have typed := begins_typed_iff system.sbuf fits more
      simp only [here, reduceCtorEq, false_iff, false_and, iff_false] at word ends
      rw [Said] at word
      simp only [goes, false_iff] at typed
      simp only [Agreed, Aligned, Said, said_append, here, reduceCtorEq, false_iff, false_and,
        ends, word, false_or, iff_self, and_true]
      exact typed
  | typesLast chunk fits more here stops =>
      have typed := begins_typed_iff system.sbuf fits more
      have taken : (system.link.send chunk).close.taken = system.link.taken := Link.send_taken ..
      simp only [here, reduceCtorEq, false_iff, false_and, iff_false] at word ends
      rw [Said] at word
      simp only [stops, true_iff] at typed
      simp only [Agreed, Aligned, Said, said_append, true_iff, true_and, ends, word, false_or,
        taken, not_printed inv more, iff_self, and_true]
      exact typed
  | readsNothing link here got =>
      have taken := Link.read_taken got
      obtain ⟨rfl, _, _, last⟩ := Link.read_data got
      have whole := system.link.whole inv.held
      rw [(last rfl).1, List.append_nil, inv.sent] at whole
      simp only [here, reduceCtorEq, false_iff, whole, and_true] at ends
      rw [List.append_nil] at taken
      refine iff_of_true ⟨word, ?_⟩ ⟨fun begins => ?_, fun both => absurd (word.mpr both.1) ends⟩
      · simp only [taken, here, reduceCtorEq, false_iff, whole, and_true]
        exact ends
      · exact absurd begins (by decide)
  | reads data text rbuf link more here got =>
      have stops : (if BeginsQuit data then SocketPc.stopped else .reading) = .stopped ↔
          BeginsQuit data := by
        split <;> simp [*]
      have whole := system.link.whole inv.held
      rw [inv.sent] at whole
      simp only [Agreed, Aligned, stops, Link.read_taken got, ← whole, List.append_cancel_left_eq,
        word]
      exact and_iff_right Iff.rfl

/-- The two ends agree all through a session exactly when its chunks and its
read results are aligned at every step. -/
theorem session_agrees_iff (sbuf rbuf : Memory BUFSIZ) (events : List Event) (system : System)
    (calls : List Call) (ran : exec step (start sbuf rbuf) events = some (system, calls)) :
    Throughout step Agreed (start sbuf rbuf) events ↔
      Along step Aligned (start sbuf rbuf) events := by
  refine Machine.throughout_iff_along Inv ?_ ?_ (inv_start sbuf rbuf) ?_ ran
  · intro state event next made inv _ _ taken
    exact inv_turn inv (turn_of_step taken)
  · intro state event next made inv agreed taken
    exact agreed_turn inv agreed (turn_of_step taken)
  · simp [Agreed, Said, start]

/-- `hi` and then `exit`, which the other side reads whole. -/
def farewell : List Event :=
  [.key [104, 105, 10], .read [104, 105, 10], .key [101, 120, 105, 116, 10],
    .read [101, 120, 105, 116, 10]]

/-- The same, but the other side reads all at once. -/
def joined : List Event :=
  [.key [104, 105, 10], .key [101, 120, 105, 116, 10],
    .read [104, 105, 10, 101, 120, 105, 116, 10]]

theorem session_agrees_farewell :
    Throughout step Agreed (start (.zeros _) (.zeros _)) farewell :=
  (session_agrees_iff (.zeros _) (.zeros _) farewell _ _ rfl).mpr
    ((Machine.misses_zero_iff ..).mp (by decide +kernel))

theorem session_disagrees_joined :
    ∃ system calls, exec step (start (.zeros _) (.zeros _)) joined = some (system, calls) ∧
      ¬ Agreed system :=
  ⟨_, _, rfl, by decide +kernel⟩

end NetworkTest.TalkPair
