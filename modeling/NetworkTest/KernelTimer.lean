import NetworkTest.LedDriver
import NetworkTest.Machine

/-!
The kernel timer of fri/kernelTimer/el2440_led.c. Each `led_write` arms
`mytimer`, its handler arms it again and again, and the module may be unloaded
when no process has the device open. The writes, the handler and the unloading
take their steps in any order.
-/

namespace NetworkTest.KernelTimer

open LedDriver (Register)
open Machine (Step exec Along)

def TIMER_INTERVAL : Nat := 20

/-- `mytimer`: `pending` is what `timer_pending` tells, `queue` the places at
which the timer wheel holds it, each with its time. -/
structure Timer where
  pending : Bool
  expires : Nat
  queue : List Nat
  deriving DecidableEq

/-- `init_timer` of the kernel, which takes the timer out of no list. -/
def Timer.init (timer : Timer) : Timer := { timer with pending := false }

/-- `add_timer` of the kernel, whose `BUG_ON(timer_pending(timer))` fails with
`none`. -/
def Timer.add (timer : Timer) : Option Timer :=
  if timer.pending then none
  else some { timer with pending := true, queue := timer.queue ++ [timer.expires] }

inductive WriterPc where
  | started
  | initialised
  | prepared
  | added
  | displayed
  | returned
  deriving DecidableEq

structure Writer where
  pid : Int
  pc : WriterPc
  deriving DecidableEq

/-- `entered` and `polled` are inside `mypollingfunction`. -/
inductive HandlerPc where
  | idle
  | entered
  | polled
  deriving DecidableEq

/-- `writers` are the calls of `led_write` made so far, `halted` is after a
`BUG`. `timerOccur` goes on where the int of the source ends, at 2^31. -/
structure System where
  jiffies : Nat
  timer : Timer
  handler : HandlerPc
  writers : List Writer
  id : Int
  counter : Nat
  timerOccur : Nat
  gpfdat : Register
  loaded : Bool
  halted : Bool
  deriving DecidableEq

inductive Event where
  | tick
  | write (pid : Int)
  | writer (i : Nat)
  | expire (place : Nat)
  | poll
  | rearm
  | exit
  deriving DecidableEq

/-- The calls on `mytimer` report it as they find it; `polls` tells whether the
module is there. -/
inductive Call where
  | init_timer (timer : Timer)
  | add_timer (timer : Timer)
  | polls (loaded : Bool)
  | kill (pid : Int)
  deriving DecidableEq

def System.moved (system : System) (i : Nat) (writer : Writer) (pc : WriterPc) : System :=
  { system with writers := system.writers.set i { writer with pc := pc } }

def led_write (system : System) (i : Nat) (writer : Writer) : Option (System × List Call) :=
  match writer.pc with
  | .started =>
      some ({ system.moved i writer .initialised with timer := system.timer.init },
        [.init_timer system.timer])
  | .initialised =>
      some ({ system.moved i writer .prepared with
        timer := { system.timer with expires := system.jiffies + TIMER_INTERVAL } }, [])
  | .prepared =>
      match system.timer.add with
      | none => some ({ system with halted := true }, [.add_timer system.timer])
      | some timer =>
          some ({ system.moved i writer .added with timer := timer }, [.add_timer system.timer])
  | .added =>
      some ({ system.moved i writer .displayed with
        id := writer.pid, gpfdat := LedDriver.led_display system.gpfdat 0 }, [])
  | .displayed =>
      some ({ system.moved i writer .returned with
        gpfdat := LedDriver.led_display system.gpfdat 1 }, [])
  | .returned => none

/-- `mypollingfunction` up to its `add_timer`. -/
def mypollingfunction (system : System) : System × List Call :=
  ({ system with
      counter := (if system.counter = 10 then 0 else system.counter) + 1
      timerOccur := system.timerOccur + 1
      timer := { system.timer with expires := system.jiffies + TIMER_INTERVAL }
      handler := .polled },
    .polls system.loaded :: if system.counter = 10 then [.kill system.id] else [])

def step : Step System Event Call := fun system event =>
  if system.halted then none else
  match event with
  | .tick => some ({ system with jiffies := system.jiffies + 1 }, [])
  | .write pid =>
      if system.loaded then
        some ({ system with writers := system.writers ++ [⟨pid, .started⟩] }, [])
      else none
  | .writer i =>
      match system.writers[i]? with
      | none => none
      | some writer => led_write system i writer
  | .expire place =>
      match system.timer.queue[place]? with
      | none => none
      | some time =>
          if system.handler = .idle ∧ time ≤ system.jiffies then
            some ({ system with
              timer := { system.timer with
                pending := false, queue := system.timer.queue.eraseIdx place }
              handler := .entered }, [])
          else none
  | .poll => if system.handler = .entered then some (mypollingfunction system) else none
  | .rearm =>
      if system.handler = .polled then
        match system.timer.add with
        | none => some ({ system with halted := true }, [.add_timer system.timer])
        | some timer =>
            some ({ system with timer := timer, handler := .idle }, [.add_timer system.timer])
      else none
  | .exit =>
      -- no process has the device open
      if system.loaded = true ∧ ∀ writer ∈ system.writers, writer.pc = .returned then
        some ({ system with loaded := false }, [])
      else none

/-- The module has been loaded; `mytimer` is all zeros. -/
def start (jiffies : Nat) (gpfdat : Register) : System where
  jiffies := jiffies
  timer := ⟨false, 0, []⟩
  handler := .idle
  writers := []
  id := 0
  counter := 0
  timerOccur := 0
  gpfdat := gpfdat
  loaded := true
  halted := false

inductive Turn (system : System) : Event → System → List Call → Prop where
  | ticks : Turn system .tick { system with jiffies := system.jiffies + 1 } []
  | begins (pid : Int) (loaded : system.loaded = true) :
      Turn system (.write pid)
        { system with writers := system.writers ++ [⟨pid, .started⟩] } []
  | inits (i : Nat) (writer : Writer) (found : system.writers[i]? = some writer)
      (here : writer.pc = .started) :
      Turn system (.writer i)
        { system.moved i writer .initialised with timer := system.timer.init }
        [.init_timer system.timer]
  | prepares (i : Nat) (writer : Writer) (found : system.writers[i]? = some writer)
      (here : writer.pc = .initialised) :
      Turn system (.writer i)
        { system.moved i writer .prepared with
          timer := { system.timer with expires := system.jiffies + TIMER_INTERVAL } } []
  | adds (i : Nat) (writer : Writer) (timer : Timer) (found : system.writers[i]? = some writer)
      (here : writer.pc = .prepared) (added : system.timer.add = some timer) :
      Turn system (.writer i) { system.moved i writer .added with timer := timer }
        [.add_timer system.timer]
  | addHalts (i : Nat) (writer : Writer) (found : system.writers[i]? = some writer)
      (here : writer.pc = .prepared) (pending : system.timer.add = none) :
      Turn system (.writer i) { system with halted := true } [.add_timer system.timer]
  | displays (i : Nat) (writer : Writer) (pc : WriterPc) (id : Int) (gpfdat : Register)
      (found : system.writers[i]? = some writer)
      (here : writer.pc = .added ∧ pc = .displayed ∨ writer.pc = .displayed ∧ pc = .returned) :
      Turn system (.writer i) { system.moved i writer pc with id := id, gpfdat := gpfdat } []
  | expires (place time : Nat) (found : system.timer.queue[place]? = some time)
      (here : system.handler = .idle) (due : time ≤ system.jiffies) :
      Turn system (.expire place)
        { system with
          timer := { system.timer with
            pending := false, queue := system.timer.queue.eraseIdx place }
          handler := .entered } []
  | polls (here : system.handler = .entered) :
      Turn system .poll (mypollingfunction system).1 (mypollingfunction system).2
  | rearms (timer : Timer) (here : system.handler = .polled)
      (added : system.timer.add = some timer) :
      Turn system .rearm { system with timer := timer, handler := .idle } [.add_timer system.timer]
  | rearmHalts (here : system.handler = .polled) (pending : system.timer.add = none) :
      Turn system .rearm { system with halted := true } [.add_timer system.timer]
  | exits (loaded : system.loaded = true)
      (closed : ∀ writer ∈ system.writers, writer.pc = .returned) :
      Turn system .exit { system with loaded := false } []

theorem turn_of_led_write {system next : System} {i : Nat} {writer : Writer} {made : List Call}
    (found : system.writers[i]? = some writer)
    (taken : led_write system i writer = some (next, made)) :
    Turn system (.writer i) next made := by
  unfold led_write at taken
  split at taken
  case h_1 here =>
      cases taken
      exact .inits i writer found here
  case h_2 here =>
      cases taken
      exact .prepares i writer found here
  case h_3 here =>
      split at taken
      case h_1 pending =>
          cases taken
          exact .addHalts i writer found here pending
      case h_2 timer added =>
          cases taken
          exact .adds i writer timer found here added
  case h_4 here =>
      cases taken
      exact .displays i writer .displayed _ _ found (.inl ⟨here, rfl⟩)
  case h_5 here =>
      cases taken
      exact .displays i writer .returned _ _ found (.inr ⟨here, rfl⟩)
  case h_6 => contradiction

theorem turn_of_step {system next : System} {event : Event} {made : List Call}
    (taken : step system event = some (next, made)) : Turn system event next made := by
  unfold step at taken
  split at taken
  · contradiction
  split at taken
  case h_1 =>
      cases taken
      exact .ticks
  case h_2 pid =>
      simp only [Option.ite_none_right_eq_some, Option.some.injEq, Prod.mk.injEq] at taken
      obtain ⟨loaded, rfl, rfl⟩ := taken
      exact .begins pid loaded
  case h_3 i =>
      split at taken
      case h_1 => contradiction
      case h_2 writer found => exact turn_of_led_write found taken
  case h_4 place =>
      split at taken
      case h_1 => contradiction
      case h_2 time found =>
          simp only [Option.ite_none_right_eq_some, Option.some.injEq, Prod.mk.injEq] at taken
          obtain ⟨⟨here, due⟩, rfl, rfl⟩ := taken
          exact .expires place time found here due
  case h_5 =>
      simp only [Option.ite_none_right_eq_some, Option.some.injEq] at taken
      obtain ⟨here, taken⟩ := taken
      cases taken
      exact .polls here
  case h_6 =>
      simp only [Option.ite_none_right_eq_some] at taken
      obtain ⟨here, taken⟩ := taken
      split at taken
      case h_1 pending =>
          cases taken
          exact .rearmHalts here pending
      case h_2 timer added =>
          cases taken
          exact .rearms timer here added
  case h_7 =>
      simp only [Option.ite_none_right_eq_some, Option.some.injEq, Prod.mk.injEq] at taken
      obtain ⟨⟨loaded, closed⟩, rfl, rfl⟩ := taken
      exact .exits loaded closed

/-! One write arms the timer, and from then on it is queued or being handled. -/

/-- The timer is not pending, and its handler does not run. -/
def Quiet (system : System) : Prop :=
  system.timer.pending = false ∧ system.timer.queue = [] ∧ system.handler = .idle

/-- The timer is queued once, or its handler runs and will queue it. -/
def Running (system : System) : Prop :=
  (system.timer.pending = true ∧ (∃ time, system.timer.queue = [time]) ∧
      system.handler = .idle) ∨
    (system.timer.pending = false ∧ system.timer.queue = [] ∧ system.handler ≠ .idle)

/-- The write has armed the timer. -/
def WriterPc.armed : WriterPc → Bool
  | .started => false
  | .initialised => false
  | .prepared => false
  | .added => true
  | .displayed => true
  | .returned => true

structure Inv (system : System) : Prop where
  sound : system.halted = false
  few : system.writers.length ≤ 1
  unwritten : system.writers = [] → Quiet system
  loaded : system.writers ≠ [] → system.loaded = true
  written : ∀ writer ∈ system.writers,
    (writer.pc.armed = false → Quiet system) ∧ (writer.pc.armed = true → Running system)

theorem inv_start (jiffies : Nat) (gpfdat : Register) : Inv (start jiffies gpfdat) := by
  constructor <;> simp [start, Quiet]

/-- No `led_write` begins once another has begun, and the module is unloaded
only before any has. -/
def Once (system : System) : Event → Prop
  | .write _ => system.writers = []
  | .exit => system.writers = []
  | _ => True

instance (system : System) : (event : Event) → Decidable (Once system event)
  | .write _ => inferInstanceAs (Decidable (system.writers = []))
  | .exit => inferInstanceAs (Decidable (system.writers = []))
  | .tick => isTrue trivial
  | .writer _ => isTrue trivial
  | .expire _ => isTrue trivial
  | .poll => isTrue trivial
  | .rearm => isTrue trivial

/-- `mytimer` is handled only while it is not pending, and the handler runs only
while the module is there. -/
def Sound : Call → Prop
  | .init_timer timer => timer.pending = false ∧ timer.queue = []
  | .add_timer timer => timer.pending = false ∧ timer.queue = []
  | .polls loaded => loaded = true
  | .kill _ => True

instance : (call : Call) → Decidable (Sound call)
  | .init_timer timer =>
      inferInstanceAs (Decidable (timer.pending = false ∧ timer.queue = []))
  | .add_timer timer => inferInstanceAs (Decidable (timer.pending = false ∧ timer.queue = []))
  | .polls loaded => inferInstanceAs (Decidable (loaded = true))
  | .kill _ => isTrue trivial

theorem add_of_quiet {system : System} (quiet : Quiet system) :
    system.timer.add = some { system.timer with
      pending := true, queue := [system.timer.expires] } := by
  obtain ⟨pending, queue, _⟩ := quiet
  simp [Timer.add, pending, queue]

theorem Inv.only {system : System} (inv : Inv system) {i : Nat} {writer : Writer}
    (found : system.writers[i]? = some writer) : i = 0 ∧ system.writers = [writer] := by
  have few := inv.few
  match writers : system.writers, few, found with
  | [], _, found => simp at found
  | [one], _, found =>
      cases i with
      | zero => exact ⟨rfl, congrArg ([·]) (Option.some.inj found)⟩
      | succ i => simp at found

theorem inv_single {system : System} {writer : Writer} (sound : system.halted = false)
    (only : system.writers = [writer]) (loaded : system.loaded = true)
    (quiet : writer.pc.armed = false → Quiet system)
    (running : writer.pc.armed = true → Running system) : Inv system := by
  constructor
  case sound => exact sound
  case few => simp [only]
  case unwritten => simp [only]
  case loaded => exact fun _ => loaded
  case written =>
      intro other member
      rw [only, List.mem_singleton] at member
      subst member
      exact ⟨quiet, running⟩

theorem inv_handler {system next : System} (inv : Inv system) (busy : ¬ Quiet system)
    (sound : next.halted = false) (writers : next.writers = system.writers)
    (loaded : next.loaded = system.loaded) (running : Running next) : Inv next := by
  constructor
  case sound => exact sound
  case few => rw [writers]; exact inv.few
  case unwritten =>
      intro none
      exact absurd (inv.unwritten (writers ▸ none)) busy
  case loaded =>
      rw [writers, loaded]
      exact inv.loaded
  case written =>
      intro writer member
      rw [writers] at member
      exact ⟨fun unarmed => absurd ((inv.written writer member).1 unarmed) busy, fun _ => running⟩

theorem running_of_busy {system : System} (inv : Inv system) (busy : ¬ Quiet system) :
    Running system ∧ system.loaded = true := by
  cases writers : system.writers with
  | nil => exact absurd (inv.unwritten writers) busy
  | cons writer rest =>
      obtain ⟨quiet, running⟩ := inv.written writer (by simp [writers])
      refine ⟨running ?_, inv.loaded (by simp [writers])⟩
      cases armed : writer.pc.armed with
      | true => rfl
      | false => exact absurd (quiet armed) busy

theorem queue_of_handled {system : System} (inv : Inv system) (handled : system.handler ≠ .idle) :
    ¬ Quiet system ∧ system.timer.pending = false ∧ system.timer.queue = [] ∧
      system.loaded = true := by
  have busy : ¬ Quiet system := fun quiet => handled quiet.2.2
  obtain ⟨⟨_, _, idle⟩ | ⟨pending, queue, _⟩, loaded⟩ := running_of_busy inv busy
  · exact absurd idle handled
  · exact ⟨busy, pending, queue, loaded⟩

theorem writer_turn {system : System} (inv : Inv system) {i : Nat} {writer : Writer}
    (found : system.writers[i]? = some writer) (pc : WriterPc) :
    (system.moved i writer pc).writers = [{ writer with pc := pc }] ∧ system.loaded = true ∧
      (writer.pc.armed = false → Quiet system) ∧ (writer.pc.armed = true → Running system) := by
  obtain ⟨rfl, only⟩ := inv.only found
  refine ⟨by simp [System.moved, only], inv.loaded (by simp [only]), ?_⟩
  exact inv.written writer (by simp [only])

theorem inv_turn {system next : System} {event : Event} {made : List Call} (inv : Inv system)
    (once : Once system event) (turn : Turn system event next made) :
    Inv next ∧ ∀ call ∈ made, Sound call := by
  cases turn with
  | ticks => exact ⟨⟨inv.sound, inv.few, inv.unwritten, inv.loaded, inv.written⟩, by simp⟩
  | begins pid loaded =>
      have none : system.writers = [] := once
      have quiet := inv.unwritten none
      have only : system.writers ++ [⟨pid, .started⟩] = [⟨pid, .started⟩] := by simp [none]
      exact ⟨inv_single inv.sound only loaded (fun _ => quiet) (fun armed => (nomatch armed)),
        by simp⟩
  | inits i writer found here =>
      obtain ⟨only, loaded, quiet, _⟩ := writer_turn inv found .initialised
      obtain ⟨pending, queue, idle⟩ := quiet (by rw [here]; rfl)
      refine ⟨inv_single inv.sound only loaded (fun _ => ⟨rfl, queue, idle⟩)
        (fun armed => (nomatch armed)), ?_⟩
      simp [Sound, pending, queue]
  | prepares i writer found here =>
      obtain ⟨only, loaded, quiet, _⟩ := writer_turn inv found .prepared
      have still := quiet (by rw [here]; rfl)
      exact ⟨inv_single inv.sound only loaded (fun _ => still)
        (fun armed => (nomatch armed)), by simp⟩
  | adds i writer timer found here added =>
      obtain ⟨only, loaded, quiet, _⟩ := writer_turn inv found .added
      have still := quiet (by rw [here]; rfl)
      rw [add_of_quiet still, Option.some.injEq] at added
      subst added
      refine ⟨inv_single inv.sound only loaded (fun unarmed => (nomatch unarmed))
        (fun _ => .inl ⟨rfl, ⟨_, rfl⟩, still.2.2⟩), ?_⟩
      simp [Sound, still.1, still.2.1]
  | addHalts i writer found here pending =>
      obtain ⟨_, _, quiet, _⟩ := writer_turn inv found .added
      rw [add_of_quiet (quiet (by rw [here]; rfl))] at pending
      cases pending
  | displays i writer pc id gpfdat found here =>
      obtain ⟨only, loaded, _, running⟩ := writer_turn inv found pc
      have armed : writer.pc.armed = true ∧ pc.armed = true := by
        rcases here with ⟨before, rfl⟩ | ⟨before, rfl⟩ <;> exact ⟨by rw [before]; rfl, rfl⟩
      refine ⟨inv_single inv.sound only loaded ?_ (fun _ => running armed.1), by simp⟩
      intro unarmed
      rw [show WriterPc.armed _ = true from armed.2] at unarmed
      cases unarmed
  | expires place time found here due =>
      have busy : ¬ Quiet system := by
        rintro ⟨_, queue, _⟩
        simp [queue] at found
      obtain ⟨⟨_, ⟨only, queue⟩, _⟩ | ⟨_, _, handled⟩, _⟩ := running_of_busy inv busy
      · refine ⟨inv_handler inv busy inv.sound rfl rfl (.inr ⟨rfl, ?_, nofun⟩), by simp⟩
        have first : place = 0 := by
          have inside := (List.getElem?_eq_some_iff.mp found).1
          rw [queue, List.length_singleton] at inside
          omega
        simp [queue, first]
      · exact absurd here handled
  | polls here =>
      obtain ⟨busy, pending, queue, loaded⟩ := queue_of_handled inv (by simp [here])
      refine ⟨inv_handler inv busy inv.sound rfl rfl (.inr ⟨pending, queue, nofun⟩), ?_⟩
      rw [mypollingfunction, List.forall_mem_cons]
      refine ⟨loaded, ?_⟩
      split <;> simp [Sound]
  | rearms timer here added =>
      obtain ⟨busy, pending, queue, _⟩ := queue_of_handled inv (by simp [here])
      simp only [Timer.add, pending, queue, Bool.false_eq_true, if_false, List.nil_append,
        Option.some.injEq] at added
      subst added
      refine ⟨inv_handler inv busy inv.sound rfl rfl (.inl ⟨rfl, ⟨_, rfl⟩, rfl⟩), ?_⟩
      simp [Sound, pending, queue]
  | rearmHalts here halts =>
      obtain ⟨_, pending, _⟩ := queue_of_handled inv (by simp [here])
      simp [Timer.add, pending] at halts
  | exits loaded closed =>
      have none : system.writers = [] := once
      have quiet := inv.unwritten none
      refine ⟨⟨inv.sound, inv.few, fun _ => quiet, fun some => absurd none some, ?_⟩, by simp⟩
      simp [none]

/-- If at most one `led_write` is ever begun, and none before the module is
unloaded, then `mytimer` is only touched while it is not pending, it is queued at
most once, and after the unloading it is neither pending nor handled. -/
theorem timer_queued_once (jiffies : Nat) (gpfdat : Register) (events : List Event)
    (system : System) (calls : List Call)
    (once : Along step Once (start jiffies gpfdat) events)
    (ran : exec step (start jiffies gpfdat) events = some (system, calls)) :
    (∀ call ∈ calls, Sound call) ∧ system.timer.queue.length ≤ 1 ∧
      (system.loaded = false →
        system.timer.pending = false ∧ system.timer.queue = [] ∧ system.handler = .idle) := by
  obtain ⟨inv, sound⟩ := Machine.exec_invariant_along
    (fun calls system => Inv system ∧ ∀ call ∈ calls, Sound call)
    (by
      rintro before state event next made ⟨inv, sound⟩ allowed taken
      obtain ⟨kept, fresh⟩ := inv_turn inv allowed (turn_of_step taken)
      exact ⟨kept, List.forall_mem_append.mpr ⟨sound, fresh⟩⟩)
    ⟨inv_start jiffies gpfdat, by simp⟩ once ran
  refine ⟨sound, ?_, ?_⟩
  · by_cases quiet : Quiet system
    · simp [quiet.2.1]
    · rcases (running_of_busy inv quiet).1 with ⟨_, ⟨_, queue⟩, _⟩ | ⟨_, queue, _⟩ <;> simp [queue]
  · intro unloaded
    by_contra busy
    have loaded := (running_of_busy inv busy).2
    rw [unloaded] at loaded
    cases loaded

/-- One write, and two rounds of the handler. -/
def oneWrite : List Event :=
  .write 7 :: List.replicate 5 (.writer 0) ++ List.replicate 20 .tick ++
    [.expire 0, .poll, .rearm] ++ List.replicate 20 .tick ++ [.expire 0, .poll, .rearm]

theorem timer_queued_once_oneWrite :
    ∃ system calls, exec step (start 0 0#32) oneWrite = some (system, calls) ∧
      system.timer.queue.length ≤ 1 :=
  ⟨_, _, rfl, (timer_queued_once 0 0#32 oneWrite _ _
    ((Machine.misses_zero_iff ..).mp (by decide +kernel)) rfl).2.1⟩

def twoWrites : List Event :=
  .write 7 :: List.replicate 5 (.writer 0) ++ [.write 8] ++ List.replicate 3 (.writer 1)

def unloaded : List Event :=
  .write 7 :: List.replicate 5 (.writer 0) ++ [.exit] ++ List.replicate 20 .tick ++
    [.expire 0, .poll]

theorem timer_queued_twice :
    (∃ system calls, exec step (start 0 0#32) twoWrites = some (system, calls) ∧
      system.timer.queue.length = 2 ∧ ¬ ∀ call ∈ calls, Sound call) ∧
    ∃ system calls, exec step (start 0 0#32) unloaded = some (system, calls) ∧
      .polls false ∈ calls :=
  ⟨⟨_, _, rfl, rfl, by decide +kernel⟩, _, _, rfl, by decide +kernel⟩

end NetworkTest.KernelTimer
