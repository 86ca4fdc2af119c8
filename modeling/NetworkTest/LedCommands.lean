import NetworkTest.Channel
import NetworkTest.LedDriver
import NetworkTest.Machine

/-!
The LED chain of thu/homework: a client that sends the lines typed at it, a
thread of test_app.c that hands each read result to the driver as it came, and
the driver, which looks at the first byte only.
-/

namespace NetworkTest.LedCommands

open CBuffer (Bytes BUFSIZ cstring)
open Channel (Link)
open LedDriver (Register led_display mode)
open Machine (Step exec)

inductive ClientPc where
  | typing
  | finished
  deriving DecidableEq

inductive ThreadPc where
  | reading
  | out
  | faulted
  deriving DecidableEq

/-- `lines` are the command lines sent so far, `reads` the results of the
thread's reads. -/
structure System where
  client : ClientPc
  thread : ThreadPc
  link : Link UInt8
  gpfdat : Register
  lines : List Bytes
  reads : List Bytes

/-- What the client reads from the keyboard, with the result of its write; and
what the thread reads, with what `kmalloc` in the driver comes to. -/
inductive Event where
  | key (typed : Bytes) (ok : Bool)
  | read (data : Bytes) (allocated : Bool)
  deriving DecidableEq

inductive Call where
  | printed (text : Bytes)
  | write (data : Bytes)
  deriving DecidableEq

def quit : Bytes := [53, 10]

/-- One pass of the client's loop. A write of no bytes sends no command. -/
def typed (system : System) (data : Bytes) (ok : Bool) : System :=
  let line := cstring data
  if data = [] then system
  else if line = quit ∨ ok = false then
    { system with client := .finished, link := system.link.close }
  else if line = [] then system
  else { system with link := system.link.send line, lines := system.lines ++ [line] }

/-- One pass of the thread's loop, behind a read that has left `link`. -/
def served (system : System) (data : Bytes) (allocated : Bool) (link : Link UInt8) :
    System × List Call :=
  if data = [] then ({ system with thread := .out, link := link }, [])
  else
    let written := LedDriver.led_write_mode system.gpfdat allocated 0 data
    ({ system with
        link := link
        gpfdat := written.gpfdat
        reads := system.reads ++ [data]
        thread := if written.outcome = .fault then .faulted else .reading },
      [.printed (cstring data), .write data])

def step : Step System Event Call := fun system event =>
  match event with
  | .key data ok =>
      if system.client = .typing ∧ data.length ≤ BUFSIZ then some (typed system data ok, [])
      else none
  | .read data allocated =>
      match system.thread, system.link.read BUFSIZ (some data) with
      | .reading, some link => some (served system data allocated link)
      | _, _ => none

def start (gpfdat : Register) : System where
  client := .typing
  thread := .reading
  link := .fresh
  gpfdat := gpfdat
  lines := []
  reads := []

inductive Turn (system : System) : Event → System → List Call → Prop where
  | pauses (data : Bytes) (ok : Bool) (silent : cstring data = []) :
      Turn system (.key data ok) system []
  | quits (data : Bytes) (ok : Bool) :
      Turn system (.key data ok)
        { system with client := .finished, link := system.link.close } []
  | sends (data : Bytes) (ok : Bool) (here : system.client = .typing)
      (some : cstring data ≠ []) :
      Turn system (.key data ok)
        { system with
          link := system.link.send (cstring data)
          lines := system.lines ++ [cstring data] } []
  | ends (allocated : Bool) (link : Link UInt8) (here : system.thread = .reading)
      (got : system.link.read BUFSIZ (some []) = Option.some link) :
      Turn system (.read [] allocated) { system with thread := .out, link := link } []
  | displays (data : Bytes) (allocated : Bool) (link : Link UInt8) (more : data ≠ [])
      (got : system.link.read BUFSIZ (some data) = Option.some link) :
      Turn system (.read data allocated)
        { system with
          link := link
          gpfdat := led_display system.gpfdat (mode (data.headD 0))
          reads := system.reads ++ [data]
          thread := .reading } [.printed (cstring data), .write data]
  | faults (data : Bytes) (allocated : Bool) (link : Link UInt8) (more : data ≠ [])
      (got : system.link.read BUFSIZ (some data) = Option.some link) :
      Turn system (.read data allocated)
        { system with
          link := link
          reads := system.reads ++ [data]
          thread := .faulted } [.printed (cstring data), .write data]

theorem led_write_cons (gpfdat : Register) (allocated : Bool) (first : UInt8) (rest : Bytes) :
    (LedDriver.led_write_mode gpfdat allocated 0 (first :: rest)).gpfdat =
        (if allocated then led_display gpfdat (mode first) else gpfdat) ∧
      ((LedDriver.led_write_mode gpfdat allocated 0 (first :: rest)).outcome = .fault ↔
        allocated = false) := by
  cases allocated <;> simp [LedDriver.led_write_mode, LedDriver.copied]

theorem turn_of_step {system next : System} {event : Event} {made : List Call}
    (taken : step system event = some (next, made)) : Turn system event next made := by
  unfold step at taken
  split at taken
  case h_1 data ok =>
      simp only [Option.ite_none_right_eq_some, Option.some.injEq, Prod.mk.injEq] at taken
      obtain ⟨⟨here, _⟩, rfl, rfl⟩ := taken
      rw [typed]
      split
      case isTrue empty => exact .pauses data ok (by rw [empty]; rfl)
      split
      · exact .quits data ok
      split
      case isTrue silent => exact .pauses data ok silent
      case isFalse more => exact .sends data ok here more
  case h_2 data allocated =>
      split at taken
      case h_1 link here got =>
          cases data with
          | nil =>
              cases taken
              exact .ends allocated link here got
          | cons first rest =>
              obtain ⟨shown, stops⟩ := led_write_cons system.gpfdat allocated first rest
              simp only [served, if_neg (List.cons_ne_nil first rest), shown, stops,
                Option.some.injEq, Prod.mk.injEq] at taken
              obtain ⟨rfl, rfl⟩ := taken
              cases allocated with
              | true => exact .displays (first :: rest) true link (by simp) got
              | false => exact .faults (first :: rest) false link (by simp) got
      case h_2 => contradiction

/-! The LEDs show the first byte of the last read result. -/

/-- Bits 7..4 of GPFDAT. -/
def leds (gpfdat : Register) : BitVec 4 := gpfdat.extractLsb' 4 4

/-- These bits after the driver has seen `number`. -/
def ledsOf (number : UInt8) : BitVec 4 := ~~~(mode number).setWidth 4

theorem leds_display (gpfdat : Register) (number : UInt8) :
    leds (led_display gpfdat (mode number)) = ledsOf number := by
  ext i inside
  have field : 4 ≤ 4 + i ∧ 4 + i < 8 := by omega
  have place : 4 + i - 4 = i := by omega
  simp [leds, ledsOf, LedDriver.getLsbD_display, field, place]

theorem ledsOf_eq_iff (left right : UInt8) :
    ledsOf left = ledsOf right ↔ mode left = mode right := by
  have small : ∀ number, ((mode number).setWidth 4).setWidth 32 = mode number := by
    intro number
    unfold mode
    split <;> rfl
  constructor
  · intro same
    have narrow := congrArg (~~~ ·) same
    simp only [ledsOf, BitVec.not_not] at narrow
    rw [← small left, narrow, small right]
  · intro same
    rw [ledsOf, same, ledsOf]

structure Inv (gpfdat : Register) (system : System) : Prop where
  held : system.link.broken = false
  sent : system.link.sent = system.lines.flatten
  taken : system.link.taken = system.reads.flatten
  lines : [] ∉ system.lines
  reads : [] ∉ system.reads
  shown : system.thread ≠ .faulted → leds system.gpfdat =
    match system.reads.getLast? with
    | none => leds gpfdat
    | some chunk => ledsOf (chunk.headD 0)
  closed : system.link.closed = true → system.client = .finished
  drained : system.thread = .out → system.link.arriving = [] ∧ system.client = .finished

theorem inv_start (gpfdat : Register) : Inv gpfdat (start gpfdat) := by
  constructor <;> simp [start, Link.fresh]

theorem inv_read {gpfdat : Register} {system : System} {data : Bytes} {link : Link UInt8}
    {register : Register} {thread : ThreadPc} (inv : Inv gpfdat system) (more : data ≠ [])
    (got : system.link.read BUFSIZ (some data) = some link) (running : thread ≠ .out)
    (shown : thread ≠ .faulted → leds register = ledsOf (data.headD 0)) :
    Inv gpfdat
      { system with
        link := link, gpfdat := register, reads := system.reads ++ [data], thread := thread } := by
  obtain ⟨sent, closed, broken⟩ := Link.read_sent got
  constructor
  case held => exact broken.trans inv.held
  case sent => exact sent.trans inv.sent
  case taken =>
      rw [Link.read_taken got, inv.taken, List.flatten_append, List.flatten_singleton]
  case lines => exact inv.lines
  case reads => simp [inv.reads, more.symm]
  case shown =>
      intro sound
      rw [List.getLast?_concat]
      exact shown sound
  case closed =>
      rw [closed]
      exact inv.closed
  case drained => exact fun out => absurd out running

theorem inv_turn {gpfdat : Register} {system next : System} {event : Event} {made : List Call}
    (inv : Inv gpfdat system) (turn : Turn system event next made) : Inv gpfdat next := by
  cases turn with
  | pauses data ok silent => exact inv
  | quits data ok =>
      exact ⟨inv.held, inv.sent, inv.taken, inv.lines, inv.reads, inv.shown, fun _ => rfl,
        fun out => ⟨(inv.drained out).1, rfl⟩⟩
  | sends data ok here some =>
      constructor
      case held => rw [Link.send_broken, inv.held]
      case sent =>
          rw [Link.send_sent inv.held, inv.sent, List.flatten_append, List.flatten_singleton]
      case taken => rw [Link.send_taken, inv.taken]
      case lines => simp [inv.lines, some.symm]
      case reads => exact inv.reads
      case shown => exact inv.shown
      case closed =>
          rw [Link.send_closed]
          exact inv.closed
      case drained =>
          intro out
          have finished := (inv.drained out).2
          rw [here] at finished
          cases finished
  | ends allocated link here got =>
      obtain ⟨sent, closed, broken⟩ := Link.read_sent got
      obtain ⟨rfl, _, _, last⟩ := Link.read_data got
      obtain ⟨empty, ended⟩ := last rfl
      have finished := inv.closed (ended.resolve_right (by simp [inv.held]))
      have taken := Link.read_taken got
      rw [List.append_nil] at taken
      constructor
      case held => exact inv.held
      case sent => exact inv.sent
      case taken => exact taken.trans inv.taken
      case lines => exact inv.lines
      case reads => exact inv.reads
      case shown =>
          intro _
          exact inv.shown (by simp [here])
      case closed => exact inv.closed
      case drained => exact fun _ => ⟨empty, finished⟩
  | displays data allocated link more got =>
      exact inv_read inv more got nofun fun _ => leds_display ..
  | faults data allocated link more got =>
      exact inv_read inv more got nofun fun sound => absurd rfl sound

/-! What two ways of cutting the same bytes come to. -/

/-- The LEDs are the same, and those of the last command line. -/
def Agree (left right : System) : Prop :=
  leds left.gpfdat = leds right.gpfdat ∧
    ∀ line ∈ left.lines.getLast?, leds left.gpfdat = ledsOf (line.headD 0)

/-- The last read result begins with a byte that selects what the last command
line begins with. -/
def Aligned (system : System) : Prop :=
  ∀ line ∈ system.lines.getLast?, ∀ chunk ∈ system.reads.getLast?,
    mode (chunk.headD 0) = mode (line.headD 0)

instance (left right : System) : Decidable (Agree left right) :=
  inferInstanceAs (Decidable (_ ∧ ∀ line ∈ left.lines.getLast?, _))

instance (system : System) : Decidable (Aligned system) :=
  inferInstanceAs (Decidable (∀ line ∈ system.lines.getLast?, ∀ chunk ∈ system.reads.getLast?, _))

theorem leds_out {gpfdat : Register} {system : System} (inv : Inv gpfdat system)
    (out : system.thread = .out) :
    (system.lines = [] → leds system.gpfdat = leds gpfdat) ∧
      (∀ line ∈ system.lines.getLast?,
        (leds system.gpfdat = ledsOf (line.headD 0) ↔ Aligned system)) := by
  have shown := inv.shown (by simp [out])
  have same : system.lines.flatten = system.reads.flatten := by
    have whole := system.link.whole inv.held
    rw [(inv.drained out).1, List.append_nil] at whole
    rw [← inv.sent, ← whole, inv.taken]
  constructor
  · intro none
    rw [none, List.flatten_nil] at same
    have silent : system.reads = [] :=
      List.eq_nil_iff_forall_not_mem.mpr fun chunk member =>
        inv.reads (List.flatten_eq_nil_iff.mp same.symm chunk member ▸ member)
    rw [shown, silent]
    rfl
  · intro line last
    have member := List.mem_of_getLast? last
    cases read : system.reads.getLast? with
    | none =>
        rw [List.getLast?_eq_none_iff.mp read, List.flatten_nil] at same
        exact absurd (List.flatten_eq_nil_iff.mp same line member ▸ member) inv.lines
    | some chunk =>
        rw [read] at shown
        rw [shown, ledsOf_eq_iff, Aligned, Option.mem_def.mp last, read]
        simp

/-- Two runs over the same command lines, each to its end, agree exactly when
in both the last read result begins with a byte that selects what the last
command line begins with. -/
theorem leds_agree_iff (gpfdat : Register) (first second : List Event) (left right : System)
    (callsLeft callsRight : List Call)
    (ranLeft : exec step (start gpfdat) first = some (left, callsLeft))
    (ranRight : exec step (start gpfdat) second = some (right, callsRight))
    (outLeft : left.thread = .out) (outRight : right.thread = .out)
    (same : left.lines = right.lines) :
    Agree left right ↔ Aligned left ∧ Aligned right := by
  have keeps : ∀ (before : List Call) (system : System) (event : Event) (next : System)
      (made : List Call), Inv gpfdat system → step system event = some (next, made) →
      Inv gpfdat next :=
    fun _ _ _ _ _ inv taken => inv_turn inv (turn_of_step taken)
  have invLeft := Machine.exec_invariant (fun _ => Inv gpfdat) keeps (inv_start gpfdat) ranLeft
  have invRight := Machine.exec_invariant (fun _ => Inv gpfdat) keeps (inv_start gpfdat) ranRight
  obtain ⟨noneLeft, lastLeft⟩ := leds_out invLeft outLeft
  obtain ⟨noneRight, lastRight⟩ := leds_out invRight outRight
  rw [← same] at noneRight lastRight
  cases last : left.lines.getLast? with
  | none =>
      have none := List.getLast?_eq_none_iff.mp last
      simp [Agree, Aligned, ← same, last, noneLeft none, noneRight none]
  | some line =>
      have left_iff := lastLeft line last
      have right_iff := lastRight line last
      rw [← left_iff, ← right_iff, Agree, last]
      simp only [Option.mem_def, Option.some.injEq, forall_eq']
      constructor
      · rintro ⟨equal, shown⟩
        exact ⟨shown, equal ▸ shown⟩
      · rintro ⟨shownLeft, shownRight⟩
        exact ⟨shownLeft.trans shownRight.symm, shownLeft⟩

/-- The lines `1` and `3`, read one by one. -/
def apart : List Event :=
  [.key [49, 10] true, .read [49, 10] true, .key [51, 10] true, .read [51, 10] true,
    .key quit true, .read [] true]

/-- The same lines, read at once. -/
def joined : List Event :=
  [.key [49, 10] true, .key [51, 10] true, .read [49, 10, 51, 10] true, .key quit true,
    .read [] true]

/-- The same lines, the first of them read in two pieces. -/
def pieces : List Event :=
  [.key [49, 10] true, .read [49] true, .read [10] true, .key [51, 10] true,
    .read [51, 10] true, .key quit true, .read [] true]

theorem leds_agree_pieces :
    ∃ left right callsLeft callsRight,
      exec step (start 0#32) apart = some (left, callsLeft) ∧
      exec step (start 0#32) pieces = some (right, callsRight) ∧
      left.reads ≠ right.reads ∧ Agree left right :=
  ⟨_, _, _, _, rfl, rfl, by decide,
    (leds_agree_iff 0#32 apart pieces _ _ _ _ rfl rfl rfl rfl rfl).mpr ⟨by decide, by decide⟩⟩

theorem leds_differ_joined :
    ∃ left right callsLeft callsRight,
      exec step (start 0#32) apart = some (left, callsLeft) ∧
      exec step (start 0#32) joined = some (right, callsRight) ∧
      left.thread = .out ∧ right.thread = .out ∧ left.lines = right.lines ∧
      ¬ Agree left right :=
  ⟨_, _, _, _, rfl, rfl, rfl, rfl, rfl, by decide⟩

end NetworkTest.LedCommands
