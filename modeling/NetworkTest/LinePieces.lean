import Mathlib.Data.List.Induction
import NetworkTest.LineServer
import NetworkTest.Served

/-!
The strings that the line server of tue/echo compares and echoes are the pieces
of the stream between its terminators. The buffer is never cleared, so what an
earlier line has left there has to stay behind the zero of each later one.
-/

namespace NetworkTest.LineServer

open CBuffer (Bytes BUFSIZ Memory)
open Channel (Link)
open LineReader (Reader Kept Holds)
open Machine (Step exec)

/-! The pieces of a stream. -/

def ends (byte : UInt8) : Bool := byte = 10 ∨ byte = 0

/-- The stream without its carriage returns, cut at each line feed and each zero;
the last piece is the one not ended yet. -/
def lines (stream : Bytes) : List Bytes := (stream.filter (· ≠ 13)).splitOnP ends

def pieces (stream : Bytes) : List Bytes := (lines stream).dropLast

theorem lines_return (stream : Bytes) : lines (stream ++ [13]) = lines stream := by
  simp [lines]

theorem lines_end (stream : Bytes) {byte : UInt8} (last : ends byte = true) :
    lines (stream ++ [byte]) = lines stream ++ [[]] := by
  have other : byte ≠ 13 := by
    rintro rfl
    cases last
  simp [lines, other, List.splitOnP_append_cons _ _ last]

theorem splitOnP_snoc {α : Type} {p : α → Bool} (xs : List α) {x : α} (inside : p x = false) :
    ∃ front last, xs.splitOnP p = front ++ [last] ∧
      (xs ++ [x]).splitOnP p = front ++ [last ++ [x]] := by
  induction xs with
  | nil => exact ⟨[], [], rfl, by simp [List.splitOnP_eq_singleton, inside]⟩
  | cons first rest ih =>
      obtain ⟨front, last, before, after⟩ := ih
      rw [List.cons_append, List.splitOnP_cons_eq_if_modifyHead,
        List.splitOnP_cons_eq_if_modifyHead, before, after]
      by_cases cut : p first
      · exact ⟨[] :: front, last, by simp [cut], by simp [cut]⟩
      · cases front with
        | nil => exact ⟨[], first :: last, by simp [cut], by simp [cut]⟩
        | cons head tail => exact ⟨(first :: head) :: tail, last, by simp [cut], by simp [cut]⟩

theorem lines_kept {stream last : Bytes} {front : List Bytes} {byte : UInt8} (kept : Kept byte)
    (before : lines stream = front ++ [last]) :
    lines (stream ++ [byte]) = front ++ [last ++ [byte]] := by
  have inside : ends byte = false := by simp [ends, kept.2.1, kept.2.2]
  obtain ⟨other, piece, split, after⟩ := splitOnP_snoc (stream.filter (· ≠ 13)) inside
  obtain ⟨rfl, rfl⟩ := List.append_singleton_inj.mp (split.symm.trans before)
  simpa [lines, kept.1] using after

theorem lines_eq_append (stream : Bytes) : ∃ front last, lines stream = front ++ [last] :=
  ⟨_, _, (List.dropLast_append_getLast (List.splitOnP_ne_nil _ _)).symm⟩

theorem kept_of_inside {byte : UInt8} (other : byte ≠ 13) (inside : ends byte = false) :
    Kept byte := by
  simp only [ends, decide_eq_false_iff_not, not_or] at inside
  exact ⟨other, inside⟩

/-- Each line of the stream has fewer than `BUFSIZ` bytes other than carriage
returns. -/
def Short (stream : Bytes) : Prop := ∀ line ∈ lines stream, line.length < BUFSIZ

instance (stream : Bytes) : Decidable (Short stream) :=
  inferInstanceAs (Decidable (∀ line ∈ lines stream, _))

theorem short_of_snoc {stream : Bytes} {byte : UInt8} (short : Short (stream ++ [byte])) :
    Short stream := by
  intro line member
  by_cases carriage : byte = 13
  · subst carriage
    exact short line (lines_return stream ▸ member)
  · cases last : ends byte with
    | true => exact short line (lines_end stream last ▸ List.mem_append_left _ member)
    | false =>
        obtain ⟨front, piece, before⟩ := lines_eq_append stream
        rw [Short, lines_kept (kept_of_inside carriage last) before] at short
        rw [before] at member
        rcases List.mem_append.mp member with old | new
        · exact short line (List.mem_append_left _ old)
        · have longer := short _ (List.mem_append_right _ (List.mem_singleton_self _))
          rw [List.mem_singleton.mp new]
          rw [List.length_append] at longer
          omega

/-! What the loop makes of a byte. -/

/-- The reader holds the line so far, and has counted its bytes. -/
structure Line (reader : Reader BUFSIZ) (line : Bytes) : Prop where
  holds : Holds reader line
  counted : reader.length = line.length
  nonzero : ∀ byte ∈ line, byte ≠ 0

theorem line_again (reader : Reader BUFSIZ) : Line (again reader) [] :=
  ⟨LineReader.holds_nil _ rfl, rfl, by simp⟩

theorem line_return {reader : Reader BUFSIZ} {text : Bytes} (line : Line reader text) :
    (reader.pass 13).2 = false ∧ Line (reader.pass 13).1 text := by
  obtain ⟨⟨place, stored⟩, counted, nonzero⟩ := line
  refine ⟨rfl, ⟨place, ?_⟩, counted, nonzero⟩
  change (reader.buffer.val.set reader.place 13).take text.length = text
  rw [place, List.take_set_of_le (Nat.le_refl _), stored]

theorem line_kept {reader : Reader BUFSIZ} {text : Bytes} (line : Line reader text)
    {byte : UInt8} (kept : Kept byte) (short : text.length < BUFSIZ) :
    (reader.pass byte).2 = false ∧ Line (reader.pass byte).1 (text ++ [byte]) := by
  obtain ⟨holds, counted, nonzero⟩ := line
  have inside : reader.place < BUFSIZ := holds.place ▸ short
  have room : reader.length ≠ BUFSIZ := counted ▸ Nat.ne_of_lt short
  obtain ⟨more, length, held⟩ := LineReader.pass_kept holds kept room inside
  refine ⟨more, held, by rw [length, counted, List.length_append, List.length_singleton], ?_⟩
  exact List.forall_mem_append.mpr ⟨nonzero, List.forall_mem_singleton.mpr kept.2.2⟩

theorem line_ends {reader : Reader BUFSIZ} {text : Bytes} (line : Line reader text)
    {byte : UInt8} (last : ends byte = true) (short : text.length < BUFSIZ) :
    (reader.pass byte).2 = true ∧ (reader.pass byte).1.finish.text = text := by
  obtain ⟨⟨place, stored⟩, counted, nonzero⟩ := line
  simp only [ends, decide_eq_true_eq] at last
  have pass : reader.pass byte = (reader.store byte, true) := by
    rcases last with rfl | rfl <;> rfl
  have before : text.length < reader.buffer.val.length := by
    rw [reader.buffer.property]
    exact short
  have split : (reader.store byte).finish.buffer.val.take (text.length + 1) = text ++ [0] := by
    simp only [Reader.store, Reader.finish, Memory.set]
    rw [place, counted, List.set_set, LineReader.take_set_place _ _ before, stored]
  refine ⟨by rw [pass], ?_⟩
  rw [pass, Reader.text,
    ← List.take_append_drop (text.length + 1) (reader.store byte).finish.buffer.val, split,
    List.append_assoc, List.singleton_append, CBuffer.cstring_append_zero,
    CBuffer.cstring_of_nonzero nonzero]

/-! The server on its connection. -/

abbrev Session := Served.Session Server UInt8

abbrev Input := Served.Input Event UInt8

def session : Step Session Input Call := Served.serve step takes

/-- Behind `accept`; the buffer holds anything. -/
def start (rBuffer : Memory BUFSIZ) : Session where
  server := { pc := .reading, reader := { buffer := rBuffer, place := 0, length := 0 } }
  link := .fresh

/-- The end of the stream is not reached, and writes succeed. -/
def Going : Input → Prop
  | .call (.read result) => result ≠ none ∧ result ≠ some []
  | .call (.write ok) => ok = true
  | _ => True

def heard (calls : List Call) : List Bytes :=
  calls.filterMap fun call =>
    match call with
    | .received text => some text
    | _ => none

def echoed (calls : List Call) : List Bytes :=
  calls.filterMap fun call =>
    match call with
    | .write data => some data
    | _ => none

@[simp] theorem heard_append (calls made : List Call) :
    heard (calls ++ made) = heard calls ++ heard made := List.filterMap_append

@[simp] theorem echoed_append (calls made : List Call) :
    echoed (calls ++ made) = echoed calls ++ echoed made := List.filterMap_append

/-- A piece goes back with its zero. -/
def answers (texts : List Bytes) : List Bytes := texts.map (· ++ [0])

/-- The pieces of what has been taken from the stream, and where the server
stands in them. -/
inductive Standing (server : Server) (taken : Bytes) (calls : List Call) : Prop where
  | reading (front : List Bytes) (line : Bytes) (here : server.pc = .reading)
      (split : lines taken = front ++ [line]) (held : Line server.reader line)
      (compared : heard calls = front) (goes : quit ∉ front)
      (answered : echoed calls = answers front)
  | writing (front : List Bytes) (here : server.pc = .writing)
      (split : lines taken = front ++ [server.reader.text] ++ [[]])
      (compared : heard calls = front ++ [server.reader.text])
      (goes : quit ∉ front ++ [server.reader.text]) (answered : echoed calls = answers front)
  | closed (front : List Bytes) (here : server.pc = .closed)
      (split : lines taken = front ++ [quit] ++ [[]]) (compared : heard calls = front)
      (goes : quit ∉ front) (answered : echoed calls = answers front)

theorem standing_ended {reader : Reader BUFSIZ} {taken text : Bytes}
    {front : List Bytes} {calls : List Call} (split : lines taken = front ++ [text] ++ [[]])
    (last : reader.finish.text = text) (compared : heard calls = front) (goes : quit ∉ front)
    (answered : echoed calls = answers front) (place : Nat) :
    Standing (ended reader).1 taken (calls ++ .store place :: (ended reader).2) := by
  rw [ended]
  by_cases word : reader.finish.text = quit
  · rw [if_pos word]
    refine .closed front rfl ?_ ?_ goes ?_
    · rw [split, ← last, word]
    · simpa [heard] using compared
    · simpa [echoed] using answered
  · rw [if_neg word]
    subst last
    refine .writing front rfl split ?_ ?_ ?_
    · simpa [heard] using compared
    · rw [List.mem_append, List.mem_singleton, not_or]
      exact ⟨goes, Ne.symm word⟩
    · simpa [echoed] using answered

theorem standing_read {server next : Server} {taken : Bytes} {byte : UInt8}
    {calls made : List Call} (standing : Standing server taken calls)
    (short : Short (taken ++ [byte])) (turn : Turn server (.read (some [byte])) next made) :
    Standing next (taken ++ [byte]) (calls ++ made) := by
  cases standing with
  | reading front line here split held compared goes answered =>
      have room : line.length < BUFSIZ :=
        short_of_snoc short line (split ▸ List.mem_append_right _ (List.mem_singleton_self _))
      -- the pieces so far, if the byte does not end one
      have stays : ∀ {after : Bytes}, lines (taken ++ [byte]) = front ++ [after] →
          (server.reader.pass byte).2 = false → Line (server.reader.pass byte).1 after →
            Standing next (taken ++ [byte]) (calls ++ made) := by
        intro after split more held
        cases turn with
        | reads _ _ _ =>
            refine .reading front after here split held ?_ goes ?_
            · simpa [heard] using compared
            · simpa [echoed] using answered
        | readsLast _ _ last => simp [more] at last
        | streamEnds _ _ nothing => simp at nothing
      by_cases carriage : byte = 13
      · subst carriage
        obtain ⟨more, held⟩ := line_return held
        exact stays ((lines_return taken).trans split) more held
      · cases last : ends byte with
        | false =>
            have kept := kept_of_inside carriage last
            obtain ⟨more, held⟩ := line_kept held kept room
            exact stays (lines_kept kept split) more held
        | true =>
            obtain ⟨stops, text⟩ := line_ends held last room
            cases turn with
            | reads _ _ more => simp [stops] at more
            | readsLast _ _ _ =>
                refine standing_ended ?_ text compared goes answered _
                rw [lines_end taken last, split]
            | streamEnds _ _ nothing => simp at nothing
  | writing front here => cases turn <;> simp_all
  | closed front here => cases turn <;> simp_all

theorem standing_write {server next : Server} {taken : Bytes} {calls made : List Call}
    (standing : Standing server taken calls) (turn : Turn server (.write true) next made) :
    Standing next taken (calls ++ made) := by
  cases turn with
  | writes _ here =>
      cases standing with
      | reading front line other =>
          rw [here] at other
          cases other
      | writing front _ split compared goes answered =>
          refine .reading _ [] rfl split (line_again _) ?_ goes ?_
          · simpa [heard] using compared
          · simpa [echoed, answers] using answered
      | closed front other =>
          rw [here] at other
          cases other

/-! The law. -/

def Inv (calls : List Call) (now : Session) : Prop :=
  Short now.link.taken → Standing now.server now.link.taken calls

theorem inv_start (rBuffer : Memory BUFSIZ) : Inv [] (start rBuffer) :=
  fun _ => .reading [] [] rfl rfl ⟨LineReader.holds_nil _ rfl, rfl, by simp⟩ rfl (by simp) rfl

theorem inv_step {now next : Session} {input : Input} {before made : List Call}
    (inv : Inv before now) (going : Going input)
    (taken : session now input = some (next, made)) : Inv (before ++ made) next := by
  cases Served.turn_of_step taken with
  | segment data =>
      rw [List.append_nil, Inv, Link.send_taken]
      exact inv
  | close =>
      rw [List.append_nil]
      exact inv
  | cut kept =>
      rw [List.append_nil]
      exact inv
  | call event server link _ got stepped =>
      have turn := turn_of_step stepped
      cases event with
      | read result =>
          cases result with
          | none => exact absurd rfl going.1
          | some data =>
              obtain ⟨_, _, fits, _⟩ := Link.read_data got
              match data, fits with
              | [], _ => exact absurd rfl going.2
              | [byte], _ =>
                  intro short
                  simp only [Link.read_taken got] at short ⊢
                  exact standing_read (inv (short_of_snoc short)) short turn
      | write ok =>
          cases got
          cases show ok = true from going
          exact fun short => standing_write (inv short) turn

theorem takes_sent (link : Link UInt8) (event : Event) (rest : Link UInt8)
    (got : takes link event = some rest) : rest.sent = link.sent := by
  cases event with
  | read result => exact (@Link.read_sent _ _ _ _ 1 result got).1
  | write ok =>
      cases got
      rfl

theorem takeWhile_goes {front : List Bytes} (goes : quit ∉ front) (rest : List Bytes) :
    (front ++ rest).takeWhile (· ≠ quit) = front ++ rest.takeWhile (· ≠ quit) := by
  apply List.takeWhile_append_of_pos
  intro text member
  exact decide_eq_true fun same => goes (same ▸ member)

/-- The strings compared with `quit` are the pieces of what has been read of the
stream, up to the first that is `quit`, and each other one is echoed. -/
theorem lines_echoed (rBuffer : Memory BUFSIZ) (inputs : List Input) (now : Session)
    (calls : List Call) (ran : exec session (start rBuffer) inputs = some (now, calls))
    (going : ∀ input ∈ inputs, Going input) (short : Short now.link.taken) :
    now.link.taken <+: inputs.flatMap Served.Input.data ∧
      heard calls = (pieces now.link.taken).takeWhile (· ≠ quit) ∧
      (now.server.pc = .closed ↔ quit ∈ pieces now.link.taken) ∧
      echoed calls ++
          (if now.server.pc = .writing then [now.server.reader.text ++ [0]] else []) =
        answers (heard calls) := by
  have inv := Machine.exec_invariant_forall Inv
    (fun before now input next made inv goes taken => inv_step inv goes taken)
    (inv_start rBuffer) going ran
  have sent : now.link.sent = inputs.flatMap Served.Input.data := Served.stream_run takes_sent ran
  refine ⟨sent ▸ (List.prefix_append ..).trans now.link.ordered, ?_⟩
  cases inv short with
  | reading front line here split held compared goes answered =>
      have all := takeWhile_goes goes []
      rw [List.append_nil, List.takeWhile_nil, List.append_nil] at all
      rw [pieces, split, List.dropLast_concat, compared, answered, here, all]
      simp [goes]
  | writing front here split compared goes answered =>
      have all := takeWhile_goes goes []
      rw [List.append_nil, List.takeWhile_nil, List.append_nil] at all
      rw [pieces, split, List.dropLast_concat, compared, answered, here, all]
      simpa [answers] using goes
  | closed front here split compared goes answered =>
      rw [pieces, split, List.dropLast_concat, compared, answered, here, takeWhile_goes goes]
      simp

def twoLines : List Input :=
  [.segment [104, 105, 13], .call (.read (some [104])), .call (.read (some [105])),
    .call (.read (some [13])), .segment (10 :: quit ++ [0]), .call (.read (some [10])),
    .call (.write true), .call (.read (some [113])), .call (.read (some [117])),
    .call (.read (some [105])), .call (.read (some [116])), .call (.read (some [0]))]

theorem lines_echoed_twoLines :
    ∃ now calls, exec session (start (Memory.zeros BUFSIZ)) twoLines = some (now, calls) ∧
      heard calls = [[104, 105]] ∧ now.server.pc = .closed := by
  have holds := lines_echoed (Memory.zeros BUFSIZ) twoLines _ _ rfl (by simp [twoLines, Going])
    (by decide)
  refine ⟨_, _, rfl, holds.2.1.trans ?_, holds.2.2.1.mpr ?_⟩
  · decide
  · decide

end NetworkTest.LineServer
