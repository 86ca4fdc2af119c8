import NetworkTest.TalkPair

/-!
`do_keyboard` of the clients of fri/homework and wen/talk, with whatever has been
typed before. The array is neither cleared nor terminated between the reads, so
the word is looked for in the chunk and in what earlier chunks have left behind it.
-/

namespace NetworkTest.KeyboardStop

open CBuffer (Bytes BUFSIZ Memory overwrite)
open Machine (Step exec)
open TalkPair (BeginsQuit KeyboardPc quit)

/-- The chat client of fri/homework and the talk client of wen/talk. -/
inductive Client where
  | chat
  | talk
  deriving DecidableEq

structure Keyboard where
  pc : KeyboardPc
  sbuf : Memory BUFSIZ
  deriving DecidableEq

/-- The results of a `read`, of which `none` is -1, and of the `write` that follows it. -/
structure Input where
  chunk : Option Bytes
  written : Int
  deriving DecidableEq

/-- `failed` is the line "Talk Server fail in sending". -/
inductive Call where
  | write (chunk : Bytes)
  | failed
  | kill
  deriving DecidableEq

/-- What is done before the `break`; the line is a comment in the chat client. -/
def Client.leaves : Client → List Call
  | .chat => []
  | .talk => [.kill]

def do_keyboard (client : Client) : Step Keyboard Input Call := fun keyboard input =>
  if keyboard.pc = .reading then
    match input.chunk with
    | none => some ({ keyboard with pc := .ended }, [])
    | some chunk =>
        if fits : chunk.length ≤ BUFSIZ then
          if chunk = [] then some ({ keyboard with pc := .ended }, [])
          else
            let sbuf := keyboard.sbuf.store chunk fits
            let made := .write chunk :: if input.written = chunk.length then [] else [.failed]
            if BeginsQuit sbuf.val then some (⟨.stopped, sbuf⟩, made ++ client.leaves)
            else some (⟨.reading, sbuf⟩, made)
        else none
  else none

def leftover (sbuf : Bytes) (earlier : List Input) : Bytes :=
  (earlier.filterMap Input.chunk).foldl overwrite sbuf

/-- The chunk is a beginning of the word, and the rest of the word stands in the
array at its place. -/
structure Completed (buffer chunk : Bytes) : Prop where
  short : chunk.length < 4
  begins : chunk = quit.take chunk.length
  ends : (buffer.drop chunk.length).take (4 - chunk.length) = quit.drop chunk.length

inductive Turn (client : Client) (keyboard : Keyboard) :
    Input → Keyboard → List Call → Prop where
  | ended (input : Input) (here : keyboard.pc = .reading)
      (nothing : input.chunk = none ∨ input.chunk = some []) :
      Turn client keyboard input { keyboard with pc := .ended } []
  | typed (chunk : Bytes) (written : Int) (made : List Call) (here : keyboard.pc = .reading)
      (more : chunk ≠ []) (fits : chunk.length ≤ BUFSIZ) :
      Turn client keyboard ⟨some chunk, written⟩
        { pc := if BeginsQuit (overwrite keyboard.sbuf.val chunk) then .stopped else .reading
          sbuf := keyboard.sbuf.store chunk fits } made

theorem turn_of_step {client : Client} {keyboard next : Keyboard} {input : Input}
    {made : List Call} (taken : do_keyboard client keyboard input = some (next, made)) :
    Turn client keyboard input next made := by
  obtain ⟨chunk, written⟩ := input
  rw [do_keyboard] at taken
  split at taken
  case isFalse => contradiction
  case isTrue here =>
      cases chunk with
      | none =>
          cases taken
          exact .ended _ here (.inl rfl)
      | some chunk =>
          simp only [Option.dite_none_right_eq_some] at taken
          obtain ⟨fits, taken⟩ := taken
          by_cases nothing : chunk = []
          · rw [if_pos nothing] at taken
            cases taken
            exact .ended _ here (.inr (congrArg some nothing))
          · have turn := fun made =>
              @Turn.typed client keyboard chunk written made here nothing fits
            rw [if_neg nothing] at taken
            split at taken
            case isTrue stops =>
                cases taken
                simpa only [if_pos (show BeginsQuit (overwrite ..) from stops)] using turn _
            case isFalse goes =>
                cases taken
                simpa only [if_neg (show ¬ BeginsQuit (overwrite ..) from goes)] using turn _

/-- The loop is that of the talk session's model, where `write` takes all. -/
theorem talk_keyboard {system next : TalkPair.System} {chunk : Bytes}
    {made : List TalkPair.Call} (taken : TalkPair.step system (.key chunk) = some (next, made)) :
    ∃ calls, do_keyboard .talk ⟨system.keyboard, system.sbuf⟩ ⟨some chunk, chunk.length⟩ =
      some (⟨next.keyboard, next.sbuf⟩, calls) := by
  cases TalkPair.turn_of_step taken with
  | inputEnds here => exact ⟨[], by simp [do_keyboard, here]⟩
  | types chunk fits more here goes =>
      exact ⟨[.write chunk], by simp [do_keyboard, here, fits, more, goes]⟩
  | typesLast chunk fits more here stops =>
      exact ⟨[.write chunk, .kill], by simp [do_keyboard, here, fits, more, stops, Client.leaves]⟩

theorem begins_overwrite_iff (buffer chunk : Bytes) :
    BeginsQuit (overwrite buffer chunk) ↔ BeginsQuit chunk ∨ Completed buffer chunk := by
  rcases Nat.lt_or_ge chunk.length 4 with short | long
  -- cut the four bytes compared behind the chunk
  · have lengths : chunk.length = (quit.take chunk.length).length := by
      rw [List.length_take, quit]
      simp only [List.length_cons, List.length_nil]
      omega
    have parts : BeginsQuit (overwrite buffer chunk) ↔
        chunk ++ (buffer.drop chunk.length).take (4 - chunk.length) =
          quit.take chunk.length ++ quit.drop chunk.length := by
      rw [BeginsQuit, overwrite, List.take_append, List.take_of_length_le short.le,
        List.take_append_drop]
    rw [parts, or_iff_right (TalkPair.not_begins_short short)]
    constructor
    · intro whole
      obtain ⟨begins, ends⟩ := List.append_inj whole lengths
      exact ⟨short, begins, ends⟩
    · intro completed
      exact congrArg₂ (· ++ ·) completed.begins completed.ends
  · rw [TalkPair.begins_overwrite long, or_iff_left]
    exact fun completed => absurd completed.short (Nat.not_lt.mpr long)

theorem sbuf_run {client : Client} {keyboard last : Keyboard} {earlier : List Input}
    {calls : List Call} (ran : exec (do_keyboard client) keyboard earlier = some (last, calls)) :
    last.sbuf.val = leftover keyboard.sbuf.val earlier := by
  induction earlier generalizing keyboard calls with
  | nil =>
      cases ran
      rfl
  | cons input rest ih =>
      obtain ⟨next, made, later, taken, tail, rfl⟩ := (Machine.exec_cons_iff ..).mp ran
      rw [ih tail]
      cases turn_of_step taken with
      -- a run behind the end is empty, and the end stores nothing
      | ended _ here nothing =>
          rcases nothing with failed | ended
          · rw [leftover, leftover, List.filterMap_cons_none failed]
          · rw [leftover, leftover, List.filterMap_cons_some ended]
            rfl
      | typed chunk written made here more fits => rfl

/-- The decision after the chunk, in terms of all that has been typed before. -/
theorem stopped_iff {client : Client} {sbuf : Memory BUFSIZ} {earlier : List Input}
    {chunk : Bytes} {written : Int} {last : Keyboard} {calls : List Call} (more : chunk ≠ [])
    (ran : exec (do_keyboard client) ⟨.reading, sbuf⟩ (earlier ++ [⟨some chunk, written⟩]) =
      some (last, calls)) :
    last.pc = .stopped ↔ BeginsQuit chunk ∨ Completed (leftover sbuf.val earlier) chunk := by
  obtain ⟨middle, made, later, before, step, rfl⟩ := (Machine.exec_append_iff ..).mp ran
  obtain ⟨next, _, _, taken, done, _⟩ := (Machine.exec_cons_iff ..).mp step
  cases done
  rw [← begins_overwrite_iff, ← sbuf_run before]
  cases turn_of_step taken with
  | ended _ here nothing => simp [more] at nothing
  | typed chunk written made here more fits =>
      dsimp only
      split <;> simp_all

/-- After any two histories the decision on the chunk is the same, that on the chunk by
itself, just when neither has left the rest of the word behind the place of a chunk
that begins it. -/
theorem decisions_iff (client peer : Client) (sbuf other : Memory BUFSIZ)
    (earlier history : List Input) (chunk : Bytes) (written wrote : Int) (one two : Keyboard)
    (calls made : List Call) (more : chunk ≠ [])
    (first : exec (do_keyboard client) ⟨.reading, sbuf⟩
      (earlier ++ [⟨some chunk, written⟩]) = some (one, calls))
    (second : exec (do_keyboard peer) ⟨.reading, other⟩
      (history ++ [⟨some chunk, wrote⟩]) = some (two, made)) :
    ((one.pc = .stopped ↔ two.pc = .stopped) ∧ (one.pc = .stopped ↔ BeginsQuit chunk)) ↔
      ¬ Completed (leftover sbuf.val earlier) chunk ∧
        ¬ Completed (leftover other.val history) chunk := by
  have alone : ∀ buffer, Completed buffer chunk → ¬ BeginsQuit chunk :=
    fun buffer completed => TalkPair.not_begins_short completed.short
  have left := alone (leftover sbuf.val earlier)
  have right := alone (leftover other.val history)
  rw [stopped_iff more first, stopped_iff more second]
  constructor
  · rintro ⟨same, word⟩
    have goes : ¬ Completed (leftover sbuf.val earlier) chunk :=
      fun completed => left completed (word.mp (.inr completed))
    exact ⟨goes, fun completed => right completed (word.mp (same.mpr (.inr completed)))⟩
  · rintro ⟨goes, stays⟩
    rw [or_iff_left goes, or_iff_left stays]
    exact ⟨Iff.rfl, Iff.rfl⟩

def typed : List Input := [⟨some [97, 98, 105, 116], 4⟩]

theorem decisions_exit : ∃ one two calls made,
    exec (do_keyboard .chat) ⟨.reading, .zeros _⟩ (typed ++ [⟨some quit, 4⟩]) =
        some (one, calls) ∧
      exec (do_keyboard .talk) ⟨.reading, .zeros _⟩ ([] ++ [⟨some quit, 4⟩]) =
        some (two, made) ∧ (one.pc = .stopped ↔ two.pc = .stopped) := by
  have runs : (exec (do_keyboard .chat) ⟨.reading, .zeros _⟩
      (typed ++ [⟨some quit, 4⟩])).isSome = true := by decide +kernel
  have others : (exec (do_keyboard .talk) ⟨.reading, .zeros _⟩
      ([] ++ [⟨some quit, 4⟩])).isSome = true := by decide +kernel
  obtain ⟨one, calls, first⟩ := Machine.exec_of_isSome runs
  obtain ⟨two, made, second⟩ := Machine.exec_of_isSome others
  have whole : ∀ buffer, ¬ Completed buffer quit :=
    fun _ completed => absurd completed.short (by decide)
  have same := (decisions_iff .chat .talk (.zeros _) (.zeros _) typed [] quit 4 4 one two calls
    made (by decide) first second).mpr ⟨whole _, whole _⟩
  exact ⟨one, two, calls, made, first, second, same.1⟩

/-- "ex" stops the loop where "abit" has been typed before, but not where nothing has. -/
theorem word_completed :
    ¬ ∀ (client : Client) (sbuf other : Memory BUFSIZ) (earlier history : List Input)
      (chunk : Bytes) (written wrote : Int) (one two : Keyboard) (calls made : List Call),
      chunk ≠ [] →
      exec (do_keyboard client) ⟨.reading, sbuf⟩ (earlier ++ [⟨some chunk, written⟩]) =
        some (one, calls) →
      exec (do_keyboard client) ⟨.reading, other⟩ (history ++ [⟨some chunk, wrote⟩]) =
        some (two, made) →
      (one.pc = .stopped ↔ two.pc = .stopped) ∧ (one.pc = .stopped ↔ BeginsQuit chunk) := by
  intro all
  have shown : (exec (do_keyboard .chat) ⟨.reading, .zeros _⟩
      (typed ++ [⟨some [101, 120], 2⟩])).map (fun result => result.1.pc) = some .stopped := by
    decide +kernel
  obtain ⟨⟨last, calls⟩, ran, stopped⟩ := Option.map_eq_some_iff.mp shown
  have alone : (exec (do_keyboard .chat) ⟨.reading, .zeros _⟩
      ([] ++ [⟨some [101, 120], 2⟩])).map (fun result => result.1.pc) = some .reading := by
    decide +kernel
  obtain ⟨⟨other, made⟩, second, reading⟩ := Option.map_eq_some_iff.mp alone
  have same := (all .chat (.zeros _) (.zeros _) typed [] [101, 120] 2 2 last other calls made
    (by decide) ran second).1.mp stopped
  rw [reading] at same
  cases same

end NetworkTest.KeyboardStop
