import NetworkTest.Channel
import NetworkTest.Checksum
import NetworkTest.Endings
import NetworkTest.IntBytes

/-!
The echo clients of thu/select and thu/echo_thread, from a chunk typed to its
answer printed. The two programs differ in one place: that of thu/select writes
one byte less than `strlen` says. Their receive loop counts down what is left
and goes on when the server has closed the connection.
-/

namespace NetworkTest.EchoClients

open CBuffer (Bytes BUFSIZ cstring)
open Channel (Link)
open Checksum (LongWidth)
open Endings (Ends)
open IntBytes (INT_MAX)
open Machine (Step exec)

inductive Client where
  | select
  | echo_thread
  deriving DecidableEq

def quit : Bytes := [113, 117, 105, 116, 10]

/-- The third argument of `write`; `size_t` is as wide as `long`. -/
def request (client : Client) (width : LongWidth) (chunk : Bytes) : Nat :=
  match client with
  | .select => ((cstring chunk).length + (2 ^ width.size - 1)) % 2 ^ width.size
  | .echo_thread => (cstring chunk).length

/-- `stopped` is behind the loop, `returned` out of `main` with -1. -/
inductive Pc where
  | stopped
  | writing
  | receiving
  | printed
  | returned
  deriving DecidableEq

/-- `received` are the first `n_recv` bytes of `rcvBuffer`. `written` is what
`write` has returned, and `down` the way from the server. -/
structure State where
  pc : Pc
  n_left : Nat
  n_recv : Nat
  received : Bytes
  written : Nat
  down : Link UInt8

/-- `none` is -1. The server sends its answer in pieces and closes at some time. -/
inductive Event where
  | write (result : Option Nat)
  | read (result : Option Bytes)
  | answer (data : Bytes)
  | close

inductive Call where
  | write (count : Nat)
  | store (index count : Nat)
  | printed (text : Bytes)
  deriving DecidableEq

/-- Behind `n_left` being set or lowered: the test of the loop, and what follows it. -/
def looped (state : State) : State × List Call :=
  if 0 < state.n_left then ({ state with pc := .receiving }, [])
  else
    ({ state with pc := .printed },
      [.store state.n_recv 1, .printed (cstring state.received)])

def step (client : Client) (width : LongWidth) (chunk : Bytes) : Step State Event Call :=
  fun state event =>
    match state.pc, event with
    | .writing, .write none =>
        some ({ state with pc := .returned }, [.write (request client width chunk)])
    | .writing, .write (some n) =>
        if n ≤ request client width chunk ∧ n ≤ INT_MAX then
          let after := looped { state with n_left := n, n_recv := 0, received := [], written := n }
          some (after.1, .write (request client width chunk) :: after.2)
        else none
    | .receiving, .read none => some ({ state with pc := .returned }, [])
    | .receiving, .read (some data) =>
        match state.down.read state.n_left (some data) with
        | none => none
        | some down =>
            let after := looped
              { state with
                n_left := state.n_left - data.length
                n_recv := state.n_recv + data.length
                received := state.received ++ data
                down := down }
            some (after.1, .store state.n_recv data.length :: after.2)
    | _, .answer data =>
        if state.down.closed then none
        else some ({ state with down := state.down.send data }, [])
    | _, .close => some ({ state with down := state.down.close }, [])
    | _, _ => none

def start (chunk : Bytes) : State where
  pc := if cstring chunk = quit then .stopped else .writing
  n_left := 0
  n_recv := 0
  received := []
  written := 0
  down := .fresh

theorem looped_state (state : State) :
    (looped state).1 =
      { state with pc := if 0 < state.n_left then .receiving else .printed } := by
  unfold looped
  split <;> rfl

inductive Turn (client : Client) (width : LongWidth) (chunk : Bytes) (state : State) :
    Event → State → List Call → Prop where
  | writeFailed (here : state.pc = .writing) :
      Turn client width chunk state (.write none) { state with pc := .returned }
        [.write (request client width chunk)]
  | wrote (n : Nat) (here : state.pc = .writing) (fits : n ≤ request client width chunk) :
      Turn client width chunk state (.write (some n))
        { state with
          n_left := n, n_recv := 0, received := [], written := n
          pc := if 0 < n then .receiving else .printed }
        (.write (request client width chunk) :: (looped
          { state with n_left := n, n_recv := 0, received := [], written := n }).2)
  | readFailed (here : state.pc = .receiving) :
      Turn client width chunk state (.read none) { state with pc := .returned } []
  | reads (data : Bytes) (down : Link UInt8) (here : state.pc = .receiving)
      (got : state.down.read state.n_left (some data) = some down) :
      Turn client width chunk state (.read (some data))
        { state with
          n_left := state.n_left - data.length
          n_recv := state.n_recv + data.length
          received := state.received ++ data
          down := down
          pc := if 0 < state.n_left - data.length then .receiving else .printed }
        (.store state.n_recv data.length :: (looped
          { state with
            n_left := state.n_left - data.length
            n_recv := state.n_recv + data.length
            received := state.received ++ data
            down := down }).2)
  | answered (data : Bytes) (going : state.down.closed = false) :
      Turn client width chunk state (.answer data) { state with down := state.down.send data } []
  | closed : Turn client width chunk state .close { state with down := state.down.close } []

theorem turn_of_step {client : Client} {width : LongWidth} {chunk : Bytes} {state next : State}
    {event : Event} {made : List Call}
    (taken : step client width chunk state event = some (next, made)) :
    Turn client width chunk state event next made := by
  unfold step at taken
  split at taken
  case h_1 here =>
      cases taken
      exact .writeFailed here
  case h_2 n here =>
      simp only [Option.ite_none_right_eq_some, Option.some.injEq, Prod.mk.injEq,
        looped_state] at taken
      obtain ⟨⟨fits, _⟩, rfl, rfl⟩ := taken
      exact .wrote n here fits
  case h_3 here =>
      cases taken
      exact .readFailed here
  case h_4 data here =>
      split at taken
      case h_1 => contradiction
      case h_2 down got =>
          simp only [Option.some.injEq, Prod.mk.injEq, looped_state] at taken
          obtain ⟨rfl, rfl⟩ := taken
          exact .reads data down here got
  case h_5 _ data =>
      simp only [Option.ite_none_left_eq_some, Option.some.injEq, Prod.mk.injEq] at taken
      obtain ⟨going, rfl, rfl⟩ := taken
      exact .answered data (Bool.eq_false_iff.mpr going)
  case h_6 =>
      cases taken
      exact .closed
  case h_7 => contradiction

/-! What the client holds to. -/

def StoreInside : Call → Prop
  | .store index count => index + count ≤ BUFSIZ
  | _ => True

structure Inv (client : Client) (width : LongWidth) (chunk : Bytes) (state : State) : Prop where
  split : state.n_left + state.n_recv = state.written
  taken : state.down.taken.length = state.n_recv
  held : state.down.broken = false
  few : state.written ≤ request client width chunk
  first : state.pc = .writing → state.n_recv = 0
  more : state.pc = .receiving → 0 < state.n_left

theorem inv_start (client : Client) (width : LongWidth) (chunk : Bytes) :
    Inv client width chunk (start chunk) := by
  constructor
  case more =>
      intro receiving
      simp only [start] at receiving
      split at receiving <;> cases receiving
  all_goals simp [start, Link.fresh]

theorem inv_turn {client : Client} {width : LongWidth} {chunk : Bytes} {state next : State}
    {event : Event} {made : List Call} (inv : Inv client width chunk state)
    (turn : Turn client width chunk state event next made) : Inv client width chunk next := by
  cases turn with
  | writeFailed here => exact { inv with first := by simp, more := by simp }
  | wrote n here fits =>
      constructor
      case split => rfl
      case taken => exact inv.taken.trans (inv.first here)
      case held => exact inv.held
      case few => exact fits
      case first => exact fun _ => rfl
      case more =>
          intro receiving
          by_contra none
          simp [none] at receiving
  | readFailed here => exact { inv with first := by simp, more := by simp }
  | reads data down here got =>
      obtain ⟨_, _, fits, _⟩ := Link.read_data got
      have split := inv.split
      constructor
      case split =>
          simp only
          omega
      case taken =>
          simp only
          rw [Link.read_taken got, List.length_append, inv.taken]
      case held => exact (Link.read_sent got).2.2.trans inv.held
      case few => exact inv.few
      case first =>
          intro writing
          simp only at writing
          split at writing <;> cases writing
      case more =>
          intro receiving
          by_contra none
          simp [none] at receiving
  | answered data going =>
      exact { inv with
        taken := by rw [Link.send_taken, inv.taken]
        held := (Link.send_broken ..).trans inv.held }
  | closed => exact { inv with taken := inv.taken, held := inv.held }

/-- The one chunk of which more is asked for than there is. -/
theorem request_le_iff (client : Client) (width : LongWidth) {chunk : Bytes}
    (typed : chunk ≠ []) (fits : chunk.length < BUFSIZ) :
    request client width chunk ≤ chunk.length ↔
      (client = .select → chunk.head? ≠ some 0) := by
  have short := CBuffer.cstring_length_le chunk
  have wide : BUFSIZ < 2 ^ width.size := by cases width <;> decide
  cases client with
  | echo_thread => simpa [request] using short
  | select =>
      obtain ⟨first, rest, rfl⟩ := List.exists_cons_of_ne_nil typed
      simp only [request, forall_const, List.head?_cons, ne_eq, Option.some.injEq]
      by_cases zero : first = 0
      -- 0 - 1 is the largest `size_t`
      · have nothing : cstring (first :: rest) = [] := by simp [CBuffer.cstring, zero]
        rw [nothing, List.length_nil, Nat.zero_add, Nat.mod_eq_of_lt (by omega)]
        exact iff_of_false (by omega) (fun other => other zero)
      · obtain ⟨text, more⟩ : ∃ text, cstring (first :: rest) = first :: text := by
          simp [CBuffer.cstring, zero]
        rw [more] at short ⊢
        have one : (first :: text).length + (2 ^ width.size - 1) =
            text.length + 2 ^ width.size := by
          rw [List.length_cons]
          omega
        rw [List.length_cons] at short
        rw [one, Nat.add_mod_right, Nat.mod_eq_of_lt (by omega)]
        exact iff_of_true (by omega) zero

theorem looped_stores {state : State} (inside : state.n_recv < BUFSIZ) :
    ∀ call ∈ (looped state).2, StoreInside call := by
  unfold looped
  split
  · simp
  · rw [List.forall_mem_cons, List.forall_mem_singleton]
    exact ⟨inside, trivial⟩

theorem stores_turn {client : Client} {width : LongWidth} {chunk : Bytes} {state next : State}
    {event : Event} {made : List Call} (inv : Inv client width chunk state)
    (small : request client width chunk < BUFSIZ)
    (turn : Turn client width chunk state event next made) : ∀ call ∈ made, StoreInside call := by
  cases turn with
  | wrote n here fits =>
      rw [List.forall_mem_cons]
      exact ⟨trivial, looped_stores (show 0 < BUFSIZ by decide)⟩
  | reads data down here got =>
      obtain ⟨_, _, fits, _⟩ := Link.read_data got
      have split := inv.split
      have few := inv.few
      rw [List.forall_mem_cons]
      refine ⟨?_, looped_stores ?_⟩
      · change state.n_recv + data.length ≤ BUFSIZ
        omega
      · change state.n_recv + data.length < BUFSIZ
        omega
  | _ => simp [StoreInside]

/-! The receive loop. -/

def Reads : Event → Prop
  | .read _ => True
  | _ => False

instance : DecidablePred Reads
  | .read _ => isTrue trivial
  | .write _ => isFalse id
  | .answer _ => isFalse id
  | .close => isFalse id

/-- The receive loop comes to its end, whatever its reads return. -/
def ReceiveEnds (client : Client) (width : LongWidth) (chunk : Bytes) (state : State) : Prop :=
  Ends (step client width chunk) Reads (fun _ => True) (fun _ => True) (·.pc ≠ .receiving) state

structure Enough (client : Client) (width : LongWidth) (chunk : Bytes) (state : State) : Prop where
  inv : Inv client width chunk state
  begun : state.pc ≠ .writing
  arrived : state.pc = .receiving → state.n_left ≤ state.down.arriving.length

def remaining (state : State) : Nat := if state.pc = .receiving then state.n_left else 0

theorem enough_turn {client : Client} {width : LongWidth} {chunk : Bytes} {state next : State}
    {event : Event} {made : List Call} (enough : Enough client width chunk state)
    (turn : Turn client width chunk state event next made) :
    Enough client width chunk next ∧
      remaining next + (if Reads event then 1 else 0) ≤ remaining state := by
  have kept := inv_turn enough.inv turn
  cases turn with
  | writeFailed here => exact absurd here enough.begun
  | wrote n here fits => exact absurd here enough.begun
  | readFailed here =>
      have more := enough.inv.more here
      have mine : Reads (.read none) := trivial
      refine ⟨⟨kept, by simp, by simp⟩, ?_⟩
      simpa [remaining, mine, here] using Nat.succ_le_of_lt more
  | reads data down here got =>
      have more := enough.inv.more here
      have arrived := enough.arrived here
      obtain ⟨_, _, fits, last⟩ := Link.read_data got
      have rest := congrArg List.length (Link.read_arriving got)
      rw [List.length_append] at rest
      -- nothing is read only where nothing is left to arrive
      have gotSome : 0 < data.length := by
        refine List.length_pos_iff.mpr fun nothing => ?_
        rw [(last nothing).1, List.length_nil] at arrived
        omega
      have mine : Reads (.read (some data)) := trivial
      refine ⟨⟨kept, ?_, fun _ => ?_⟩, ?_⟩
      · simp only
        split <;> simp
      · simp only
        omega
      · by_cases left : 0 < state.n_left - data.length
        · simp only [remaining, mine, here, left, if_true]
          omega
        · simpa [remaining, mine, here, left] using Nat.succ_le_of_lt more
  | answered data going =>
      refine ⟨⟨kept, enough.begun, fun here => ?_⟩, by simp [remaining, Reads]⟩
      have arrived := enough.arrived here
      simp only [Link.send_arriving enough.inv.held, List.length_append]
      omega
  | closed => exact ⟨⟨kept, enough.begun, enough.arrived⟩, by simp [remaining, Reads]⟩

/-- The server has closed with less on the way than the loop waits for. -/
structure Starved (client : Client) (width : LongWidth) (chunk : Bytes) (state : State) :
    Prop where
  inv : Inv client width chunk state
  here : state.pc = .receiving
  closed : state.down.closed = true
  less : state.down.arriving.length < state.n_left

theorem starved_again {client : Client} {width : LongWidth} {chunk : Bytes} {state : State}
    (starved : Starved client width chunk state) :
    ∃ event next made, Reads event ∧ True ∧
      step client width chunk state event = some (next, made) ∧
        Starved client width chunk next := by
  obtain ⟨inv, here, closed, less⟩ := starved
  have got : state.down.read state.n_left (some state.down.arriving) =
      some (state.down.take state.down.arriving.length) := by
    simp [Link.read, closed, Nat.le_of_lt less]
  obtain ⟨next, made, taken⟩ : ∃ next made,
      step client width chunk state (.read (some state.down.arriving)) = some (next, made) := by
    simp only [step, here, got]
    exact ⟨_, _, rfl⟩
  refine ⟨.read (some state.down.arriving), next, made, trivial, trivial, taken, ?_⟩
  have kept := inv_turn inv (turn_of_step taken)
  cases turn_of_step taken with
  | reads data down _ same =>
      rw [got, Option.some.injEq] at same
      subst same
      have left : 0 < state.n_left - state.down.arriving.length := by omega
      exact ⟨kept, if_pos left, closed, by simpa [Link.take] using left⟩

theorem receive_ends_iff {client : Client} {width : LongWidth} {chunk : Bytes} {state : State}
    (inv : Inv client width chunk state) (here : state.pc = .receiving)
    (answered : state.down.closed = true ∨ state.written ≤ state.down.sent.length) :
    ReceiveEnds client width chunk state ↔ state.written ≤ state.down.sent.length := by
  have sent := congrArg List.length (state.down.whole inv.held)
  have split := inv.split
  have taken := inv.taken
  rw [List.length_append] at sent
  constructor
  -- with less than that the reads return 0 for ever
  · intro ends
    by_contra less
    have closed := answered.resolve_right less
    refine Endings.not_ends_of_loop _ (fun _ => starved_again) ?_ ends
    exact ⟨inv, here, closed, by omega⟩
  · intro full
    apply Endings.ends_of_measure (Enough client width chunk) remaining
    · intro state event next made enough _ taken
      obtain ⟨kept, falls⟩ := enough_turn enough (turn_of_step taken)
      exact ⟨kept, fun _ _ => trivial, falls⟩
    · intro state enough
      rw [or_iff_not_imp_left, not_not]
      intro here
      have more := enough.inv.more here
      have arrived := enough.arrived here
      obtain ⟨byte, rest, coming⟩ :=
        List.exists_cons_of_ne_nil (List.ne_nil_of_length_pos (Nat.lt_of_lt_of_le more arrived))
      refine ⟨.read (some [byte]), trivial, trivial, ?_⟩
      have got : state.down.read state.n_left (some [byte]) = some (state.down.take 1) := by
        simp [Link.read, coming, Nat.succ_le_of_lt more]
      simp only [step, here, got, Option.isSome_some]
    · exact ⟨inv, by simp [here], fun _ => by omega⟩

/-- What is promised of a chunk: at most its bytes are given to `write`, the two
counters share what was written, every store is inside `rcvBuffer`, and once the
server has answered or closed the loop ends. -/
structure Sound (client : Client) (width : LongWidth) (chunk : Bytes) (state : State)
    (calls : List Call) : Prop where
  asked : request client width chunk ≤ chunk.length
  split : state.n_left + state.n_recv = state.written
  inside : ∀ call ∈ calls, StoreInside call
  ends : state.pc = .receiving →
    state.down.closed = true ∨ state.written ≤ state.down.sent.length →
      ReceiveEnds client width chunk state

theorem inv_run {client : Client} {width : LongWidth} {chunk : Bytes} {events : List Event}
    {state : State} {calls : List Call}
    (ran : exec (step client width chunk) (start chunk) events = some (state, calls)) :
    Inv client width chunk state :=
  Machine.exec_invariant (fun _ => Inv client width chunk)
    (fun _ _ _ _ _ inv taken => inv_turn inv (turn_of_step taken))
    (inv_start client width chunk) ran

theorem stores_run {client : Client} {width : LongWidth} {chunk : Bytes} {events : List Event}
    {state : State} {calls : List Call} (small : request client width chunk < BUFSIZ)
    (ran : exec (step client width chunk) (start chunk) events = some (state, calls)) :
    ∀ call ∈ calls, StoreInside call := by
  have kept := Machine.exec_invariant
    (fun calls state => Inv client width chunk state ∧ ∀ call ∈ calls, StoreInside call)
    (fun before state event next made inv taken => by
      have turn := turn_of_step taken
      exact ⟨inv_turn inv.1 turn,
        List.forall_mem_append.mpr ⟨inv.2, stores_turn inv.1 small turn⟩⟩)
    ⟨inv_start client width chunk, by simp⟩ ran
  exact kept.2

/-- All of it holds unless `strlen` is 0 where one is taken from it, or the
server closes with less sent than the client wrote. -/
theorem chunk_sound_iff (client : Client) (width : LongWidth) (chunk : Bytes)
    (typed : chunk ≠ []) (fits : chunk.length < BUFSIZ) (events : List Event) (state : State)
    (calls : List Call)
    (ran : exec (step client width chunk) (start chunk) events = some (state, calls)) :
    Sound client width chunk state calls ↔
      (client = .select → chunk.head? ≠ some 0) ∧
        (state.pc = .receiving → state.down.closed = true →
          state.written ≤ state.down.sent.length) := by
  have inv := inv_run ran
  constructor
  · intro sound
    refine ⟨(request_le_iff client width typed fits).mp sound.asked, fun here closed => ?_⟩
    exact (receive_ends_iff inv here (.inl closed)).mp (sound.ends here (.inl closed))
  · rintro ⟨first, full⟩
    have asked := (request_le_iff client width typed fits).mpr first
    refine ⟨asked, inv.split, stores_run (Nat.lt_of_le_of_lt asked fits) ran, ?_⟩
    intro here answered
    refine (receive_ends_iff inv here answered).mpr ?_
    rcases answered with closed | all
    · exact full here closed
    · exact all

def answeredChunk : List Event :=
  [.write (some 2), .answer [104], .read (some [104]), .answer [105], .close]

theorem chunk_sound_answered :
    ∃ state calls,
      exec (step .select .bits64 [104, 105, 10]) (start [104, 105, 10]) answeredChunk =
          some (state, calls) ∧
        Sound .select .bits64 [104, 105, 10] state calls := by
  refine ⟨_, _, rfl, (chunk_sound_iff .select .bits64 [104, 105, 10] (by simp) (by decide)
    answeredChunk _ _ rfl).mpr ⟨?_, ?_⟩⟩
  · simp
  · decide

/-- The server closes without an answer: the reads return 0, and the loop goes on. -/
theorem receive_goes_on :
    ¬ ∀ (client : Client) (width : LongWidth) (chunk : Bytes) (events : List Event)
      (state : State) (calls : List Call), chunk ≠ [] → chunk.length < BUFSIZ →
      exec (step client width chunk) (start chunk) events = some (state, calls) →
        Sound client width chunk state calls := by
  intro all
  have ran : exec (step .echo_thread .bits64 [104, 105, 10]) (start [104, 105, 10])
      [.write (some 3), .close] = some (_, _) := rfl
  have sound := all _ _ _ _ _ _ (by simp) (by decide) ran
  have full := (receive_ends_iff (inv_run ran) rfl (.inl rfl)).mp (sound.ends rfl (.inl rfl))
  revert full
  decide

end NetworkTest.EchoClients
