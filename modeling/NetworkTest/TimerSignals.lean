import NetworkTest.KernelTimer
import NetworkTest.Projection
import NetworkTest.StandardSignal

/-!
The program of fri/kernelTimer/test.c on the timer of its driver. It writes its
pid to the device and then only handles SIGUSR1, which the driver sends it in
every tenth call of `mypollingfunction`; a signal that comes while one is
pending is lost.
-/

namespace NetworkTest.TimerSignals

open KernelTimer (TIMER_INTERVAL Once mypollingfunction)
open LedDriver (Register)
open Machine (Step exec Along)
open StandardSignal (Signal)

/-- `signal` is SIGUSR1 as the kernel keeps it for the program. `signal_count` is the
int of the source as long as that is below 2^31. -/
structure System where
  driver : KernelTimer.System
  signal : Signal
  signal_count : Nat

inductive Event where
  | driver (event : KernelTimer.Event)
  | usersignal
  deriving DecidableEq

/-- `usersignal` reports the number it prints. -/
inductive Call where
  | driver (call : KernelTimer.Call)
  | usersignal (shown : Nat)
  deriving DecidableEq

/-- `kill_proc` of the driver, as the process `pid` sees it. -/
def heard (pid : Int) (signal : Signal) (call : KernelTimer.Call) : Signal :=
  if call = .kill pid then StandardSignal.raise signal else signal

def step (pid : Int) : Step System Event Call := fun system event =>
  match event with
  | .driver event =>
      match KernelTimer.step system.driver event with
      | none => none
      | some (driver, made) =>
          some ({ system with driver := driver, signal := made.foldl (heard pid) system.signal },
            made.map .driver)
  | .usersignal =>
      if waiting : system.signal.pending = true then
        some ({ system with
            signal := StandardSignal.deliver system.signal waiting
            signal_count := system.signal_count + 1 },
          [.usersignal system.signal_count])
      else none

def start (jiffies : Nat) (gpfdat : Register) : System where
  driver := KernelTimer.start jiffies gpfdat
  signal := StandardSignal.quiet
  signal_count := 0

/-! The driver by itself. -/

def driverEvent : Event → Option KernelTimer.Event
  | .driver event => some event
  | .usersignal => none

def driverCall : Call → Option KernelTimer.Call
  | .driver call => some call
  | .usersignal _ => none

theorem filterMap_driver (made : List KernelTimer.Call) :
    (made.map Call.driver).filterMap driverCall = made := by
  induction made with
  | nil => rfl
  | cons call rest ih => simpa [driverCall] using ih

theorem driver_silent {pid : Int} {system next : System} {event : Event} {made : List Call}
    (taken : step pid system event = some (next, made)) (other : driverEvent event = none) :
    next.driver = system.driver ∧ made.filterMap driverCall = [] := by
  cases event with
  | driver event => simp [driverEvent] at other
  | usersignal =>
      simp only [step, Option.dite_none_right_eq_some, Option.some.injEq, Prod.mk.injEq] at taken
      obtain ⟨waiting, rfl, rfl⟩ := taken
      exact ⟨rfl, rfl⟩

theorem driver_steps {pid : Int} {system next : System} {event : Event}
    {act : KernelTimer.Event} {made : List Call}
    (taken : step pid system event = some (next, made)) (own : driverEvent event = some act) :
    KernelTimer.step system.driver act = some (next.driver, made.filterMap driverCall) := by
  cases event with
  | usersignal => simp [driverEvent] at own
  | driver event =>
      simp only [driverEvent, Option.some.injEq] at own
      subst own
      simp only [step] at taken
      split at taken
      case h_1 => contradiction
      case h_2 driver calls stepped =>
          cases taken
          rw [filterMap_driver, stepped]

theorem driver_run {pid : Int} {system last : System} {events : List Event} {calls : List Call}
    (ran : exec (step pid) system events = some (last, calls)) :
    exec KernelTimer.step system.driver (events.filterMap driverEvent) =
      some (last.driver, calls.filterMap driverCall) :=
  Projection.exec_projects System.driver driverEvent driverCall
    (fun _ _ _ _ => driver_silent) (fun _ _ _ _ _ => driver_steps) ran

/-! What the driver counts. -/

def kills : KernelTimer.Call → Bool
  | .kill _ => true
  | _ => false

/-- `counter` runs from 1 to 10 and starts again; a signal is sent where it does. -/
structure Counted (calls : List KernelTimer.Call) (driver : KernelTimer.System) : Prop where
  counter : driver.counter =
    if driver.timerOccur = 0 then 0 else (driver.timerOccur - 1) % 10 + 1
  sent : calls.countP kills = (driver.timerOccur - 1) / 10

theorem counted_of_same {before made : List KernelTimer.Call}
    {driver next : KernelTimer.System} (counted : Counted before driver)
    (counter : next.counter = driver.counter) (occur : next.timerOccur = driver.timerOccur)
    (none : made.countP kills = 0) : Counted (before ++ made) next := by
  constructor
  case counter => rw [counter, occur, counted.counter]
  case sent => rw [List.countP_append, none, counted.sent, occur, Nat.add_zero]

theorem counted_polls {before : List KernelTimer.Call} {driver : KernelTimer.System}
    (counted : Counted before driver) :
    Counted (before ++ (mypollingfunction driver).2) (mypollingfunction driver).1 := by
  obtain ⟨counter, sent⟩ := counted
  -- a full counter starts again, and a signal is sent
  by_cases full : driver.counter = 10
  · constructor
    case counter =>
        simp only [mypollingfunction, full, if_true, Nat.add_eq_zero_iff]
        split at counter <;> split <;> omega
    case sent =>
        simp only [mypollingfunction, full, if_true, List.countP_append, sent]
        simp only [List.countP_cons, List.countP_nil, kills]
        split at counter <;> simp <;> omega
  · constructor
    case counter =>
        simp only [mypollingfunction, full, if_false, Nat.add_eq_zero_iff]
        split at counter <;> split <;> omega
    case sent =>
        simp only [mypollingfunction, full, if_false, List.countP_append, sent]
        simp only [List.countP_cons, List.countP_nil, kills]
        split at counter <;> simp <;> omega

theorem counted_turn {before made : List KernelTimer.Call} {driver next : KernelTimer.System}
    {event : KernelTimer.Event} (counted : Counted before driver)
    (turn : KernelTimer.Turn driver event next made) : Counted (before ++ made) next := by
  cases turn with
  | polls here => exact counted_polls counted
  | _ => exact counted_of_same counted rfl rfl rfl

theorem counted_run {jiffies : Nat} {gpfdat : Register} {events : List KernelTimer.Event}
    {last : KernelTimer.System} {calls : List KernelTimer.Call}
    (ran : exec KernelTimer.step (KernelTimer.start jiffies gpfdat) events = some (last, calls)) :
    Counted calls last :=
  Machine.exec_invariant Counted
    (fun _ _ _ _ _ counted taken => counted_turn counted (KernelTimer.turn_of_step taken))
    ⟨rfl, by simp [KernelTimer.start]⟩ ran

/-! What the program hears of it. -/

/-- The kills sent to anyone, and the numbers the program has printed. -/
def sent (calls : List Call) : Nat := (calls.filterMap driverCall).countP kills

def shownOf : Call → Option Nat
  | .driver _ => none
  | .usersignal shown => some shown

theorem raised_heard (pid : Int) (signal : Signal) (made : List KernelTimer.Call) :
    (made.foldl (heard pid) signal).raised =
        signal.raised + made.countP (fun call => call = .kill pid) ∧
      (made.foldl (heard pid) signal).delivered = signal.delivered := by
  induction made generalizing signal with
  | nil => exact ⟨rfl, rfl⟩
  | cons call rest ih =>
      obtain ⟨raised, delivered⟩ := ih (heard pid signal call)
      rw [List.foldl_cons, raised, delivered, List.countP_cons]
      by_cases mine : call = .kill pid
      · simp [heard, mine]
        omega
      · simp [heard, mine]

theorem own_kills_le (pid : Int) (made : List KernelTimer.Call) :
    made.countP (fun call => call = .kill pid) ≤ made.countP kills := by
  apply List.countP_mono_left
  intro call member own
  simp only [decide_eq_true_eq] at own
  rw [own]
  rfl

structure Heard (calls : List Call) (system : System) : Prop where
  delivered : system.signal.delivered = system.signal_count
  raised : system.signal.raised ≤ sent calls
  shown : calls.filterMap shownOf = List.range system.signal_count

theorem shown_driver (made : List KernelTimer.Call) :
    (made.map Call.driver).filterMap shownOf = [] := by
  apply List.filterMap_eq_nil_iff.mpr
  intro call member
  obtain ⟨other, _, rfl⟩ := List.mem_map.mp member
  rfl

theorem heard_step {pid : Int} {before made : List Call} {system next : System} {event : Event}
    (told : Heard before system) (taken : step pid system event = some (next, made)) :
    Heard (before ++ made) next := by
  cases event with
  | driver event =>
      simp only [step] at taken
      split at taken
      case h_1 => contradiction
      case h_2 driver calls stepped =>
          cases taken
          obtain ⟨raised, delivered⟩ := raised_heard pid system.signal calls
          -- the driver may also have been given the number of another process
          have few := own_kills_le pid calls
          have earlier := told.raised
          constructor
          case delivered => exact delivered.trans told.delivered
          case raised =>
              simp only [sent, List.filterMap_append, filterMap_driver, List.countP_append]
              rw [raised]
              exact Nat.add_le_add earlier few
          case shown => rw [List.filterMap_append, shown_driver, List.append_nil, told.shown]
  | usersignal =>
      simp only [step, Option.dite_none_right_eq_some, Option.some.injEq, Prod.mk.injEq] at taken
      obtain ⟨waiting, rfl, rfl⟩ := taken
      constructor
      case delivered => rw [StandardSignal.deliver_delivered, told.delivered]
      case raised =>
          have none : [Call.usersignal system.signal_count].filterMap driverCall = [] := rfl
          rw [sent, List.filterMap_append, none, List.append_nil]
          exact told.raised
      case shown =>
          rw [List.filterMap_append, told.shown, List.range_succ]
          rfl

theorem heard_run {pid : Int} {jiffies : Nat} {gpfdat : Register} {events : List Event}
    {last : System} {calls : List Call}
    (ran : exec (step pid) (start jiffies gpfdat) events = some (last, calls)) :
    Heard calls last :=
  Machine.exec_invariant Heard (fun _ _ _ _ _ told taken => heard_step told taken)
    ⟨rfl, Nat.le_refl _, rfl⟩ ran

/-- In every order of the steps: a signal is sent in the calls 11, 21, 31, … of
`mypollingfunction` and in no other, and the program prints the numbers from 0 on,
at most one for each signal. -/
theorem signals_counted (pid : Int) (jiffies : Nat) (gpfdat : Register) (events : List Event)
    (last : System) (calls : List Call)
    (ran : exec (step pid) (start jiffies gpfdat) events = some (last, calls)) :
    sent calls = (last.driver.timerOccur - 1) / 10 ∧
      calls.filterMap shownOf = List.range last.signal_count ∧
      last.signal_count ≤ (last.driver.timerOccur - 1) / 10 := by
  have counted := (counted_run (driver_run ran)).sent
  have told := heard_run ran
  have few := (StandardSignal.delivered_le_raised last.signal).trans told.raised
  rw [told.delivered, sent, counted] at few
  exact ⟨counted, told.shown, few⟩

/-- One interval, and the call of `mypollingfunction` at its end. -/
def interval : List Event :=
  List.replicate 20 (.driver .tick) ++ [.driver (.expire 0), .driver .poll, .driver .rearm]

/-- The program has written its pid, and hears the first signal. -/
def firstSignal : List Event :=
  .driver (.write 7) :: List.replicate 5 (.driver (.writer 0)) ++
    (List.replicate 11 interval).flatten ++ [.usersignal]

theorem signals_counted_firstSignal : ∃ last calls,
    exec (step 7) (start 0 0#32) firstSignal = some (last, calls) ∧
      last.signal_count ≤ (last.driver.timerOccur - 1) / 10 := by
  have runs : (exec (step 7) (start 0 0#32) firstSignal).isSome = true := by decide +kernel
  obtain ⟨last, calls, ran⟩ := Machine.exec_of_isSome runs
  exact ⟨last, calls, ran, (signals_counted 7 0 0#32 firstSignal last calls ran).2.2⟩

/-! How often it hears it. -/

/-- The first jiffy at which `mypollingfunction` may be called again. -/
def next (jiffies : Nat) (driver : KernelTimer.System) : Nat :=
  jiffies + TIMER_INTERVAL * (driver.timerOccur + 1)

/-- With one write, a call of `mypollingfunction` is `TIMER_INTERVAL` behind the
call before, or behind the loading of the module. -/
structure Timed (jiffies : Nat) (driver : KernelTimer.System) : Prop where
  inv : KernelTimer.Inv driver
  elapsed : jiffies + TIMER_INTERVAL * driver.timerOccur ≤ driver.jiffies
  queued : ∀ time ∈ driver.timer.queue, next jiffies driver ≤ time
  entered : driver.handler = .entered → next jiffies driver ≤ driver.jiffies
  polled : driver.handler = .polled → next jiffies driver ≤ driver.timer.expires
  unwritten : driver.writers = [] → driver.timerOccur = 0
  unarmed : ∀ writer ∈ driver.writers, writer.pc.armed = false → driver.timerOccur = 0
  prepared : ∀ writer ∈ driver.writers, writer.pc = .prepared →
    next jiffies driver ≤ driver.timer.expires

theorem timed_start (jiffies : Nat) (gpfdat : Register) :
    Timed jiffies (KernelTimer.start jiffies gpfdat) := by
  have inv := KernelTimer.inv_start jiffies gpfdat
  constructor
  case inv => exact inv
  all_goals simp [KernelTimer.start]

theorem idle_of_unarmed {jiffies : Nat} {driver : KernelTimer.System} (timed : Timed jiffies driver)
    {writer : KernelTimer.Writer} (member : writer ∈ driver.writers)
    (unarmed : writer.pc.armed = false) :
    driver.timerOccur = 0 ∧ driver.timer.queue = [] ∧ driver.handler = .idle := by
  obtain ⟨_, queue, idle⟩ := (timed.inv.written writer member).1 unarmed
  exact ⟨timed.unarmed writer member unarmed, queue, idle⟩

theorem armed_of_busy {jiffies : Nat} {driver : KernelTimer.System} (timed : Timed jiffies driver)
    (busy : driver.handler ≠ .idle) :
    driver.writers ≠ [] ∧ ∀ writer ∈ driver.writers, writer.pc.armed = true := by
  constructor
  · exact fun none => busy (timed.inv.unwritten none).2.2
  · intro writer member
    by_contra unarmed
    exact busy (idle_of_unarmed timed member (by simpa using unarmed)).2.2

theorem timed_writer {jiffies : Nat} {driver later : KernelTimer.System}
    {writer : KernelTimer.Writer} (timed : Timed jiffies driver) (inv : KernelTimer.Inv later)
    (only : later.writers = [writer]) (time : later.jiffies = driver.jiffies)
    (handler : later.handler = driver.handler) (occur : later.timerOccur = driver.timerOccur)
    (queued : ∀ time ∈ later.timer.queue, next jiffies driver ≤ time)
    (polled : driver.handler = .polled → later.timer.expires = driver.timer.expires)
    (unarmed : writer.pc.armed = false → driver.timerOccur = 0)
    (prepared : writer.pc = .prepared → next jiffies driver ≤ later.timer.expires) :
    Timed jiffies later := by
  have same : next jiffies later = next jiffies driver := by rw [next, next, occur]
  constructor
  case inv => exact inv
  case elapsed => rw [occur, time]; exact timed.elapsed
  case queued => rw [same]; exact queued
  case entered => rw [same, handler, time]; exact timed.entered
  case polled =>
      rw [same, handler]
      exact fun here => polled here ▸ timed.polled here
  case unwritten => simp [only]
  case unarmed => rw [only, occur]; simpa using unarmed
  case prepared => rw [only, same]; simpa using prepared

theorem timed_handler {jiffies : Nat} {driver later : KernelTimer.System}
    (busy : driver.writers ≠ [] ∧ ∀ writer ∈ driver.writers, writer.pc.armed = true)
    (inv : KernelTimer.Inv later) (writers : later.writers = driver.writers)
    (elapsed : jiffies + TIMER_INTERVAL * later.timerOccur ≤ later.jiffies)
    (queued : ∀ time ∈ later.timer.queue, next jiffies later ≤ time)
    (entered : later.handler = .entered → next jiffies later ≤ later.jiffies)
    (polled : later.handler = .polled → next jiffies later ≤ later.timer.expires) :
    Timed jiffies later := by
  obtain ⟨written, armed⟩ := busy
  constructor
  case inv => exact inv
  case elapsed => exact elapsed
  case queued => exact queued
  case entered => exact entered
  case polled => exact polled
  case unwritten => exact fun none => absurd (writers ▸ none) written
  case unarmed =>
      intro writer member unarmed
      rw [armed writer (writers ▸ member)] at unarmed
      cases unarmed
  case prepared =>
      intro writer member here
      have done := armed writer (writers ▸ member)
      rw [here] at done
      cases done

theorem timed_turn {jiffies : Nat} {driver later : KernelTimer.System}
    {event : KernelTimer.Event} {made : List KernelTimer.Call} (timed : Timed jiffies driver)
    (once : Once driver event) (turn : KernelTimer.Turn driver event later made) :
    Timed jiffies later := by
  have inv := (KernelTimer.inv_turn timed.inv once turn).1
  cases turn with
  | ticks =>
      exact ⟨inv, Nat.le_succ_of_le timed.elapsed, timed.queued,
        fun here => Nat.le_succ_of_le (timed.entered here), timed.polled, timed.unwritten,
        timed.unarmed, timed.prepared⟩
  | begins pid loaded =>
      have none : driver.writers = [] := once
      have only : driver.writers ++ [⟨pid, .started⟩] = [⟨pid, .started⟩] := by simp [none]
      exact timed_writer timed inv only rfl rfl rfl timed.queued (fun _ => rfl)
        (fun _ => timed.unwritten none) (fun here => by cases here)
  | inits i writer found here =>
      have only := (KernelTimer.writer_turn timed.inv found .initialised).1
      have early := idle_of_unarmed timed (List.mem_of_getElem? found) (by rw [here]; rfl)
      exact timed_writer timed inv only rfl rfl rfl timed.queued (fun _ => rfl)
        (fun _ => early.1) (fun here => by cases here)
  | prepares i writer found here =>
      have only := (KernelTimer.writer_turn timed.inv found .prepared).1
      obtain ⟨occur, queue, idle⟩ :=
        idle_of_unarmed timed (List.mem_of_getElem? found) (by rw [here]; rfl)
      have elapsed := timed.elapsed
      refine timed_writer timed inv only rfl rfl rfl timed.queued ?_ (fun _ => occur) fun _ => ?_
      · intro polled
        rw [idle] at polled
        cases polled
      · rw [next, occur]
        rw [occur] at elapsed
        exact Nat.add_le_add_right elapsed TIMER_INTERVAL
  | adds i writer timer found here added =>
      have member := List.mem_of_getElem? found
      have only := (KernelTimer.writer_turn timed.inv found .added).1
      have early := idle_of_unarmed timed member (by rw [here]; rfl)
      have due := timed.prepared writer member here
      simp only [KernelTimer.Timer.add, Option.ite_none_left_eq_some, Option.some.injEq] at added
      obtain ⟨_, rfl⟩ := added
      refine timed_writer timed inv only rfl rfl rfl ?_ (fun _ => rfl) ?_ ?_
      · simpa [early.2.1] using due
      · exact fun unarmed => by cases unarmed
      · exact fun here => by cases here
  | addHalts i writer found here pending =>
      exact ⟨inv, timed.elapsed, timed.queued, timed.entered, timed.polled, timed.unwritten,
        timed.unarmed, timed.prepared⟩
  | displays i writer pc id gpfdat found here =>
      have only := (KernelTimer.writer_turn timed.inv found pc).1
      refine timed_writer timed inv only rfl rfl rfl timed.queued (fun _ => rfl) ?_ ?_
      · rcases here with ⟨_, rfl⟩ | ⟨_, rfl⟩ <;> exact fun unarmed => by cases unarmed
      · rcases here with ⟨_, rfl⟩ | ⟨_, rfl⟩ <;> exact fun shown => by cases shown
  | expires place time found here due =>
      have member := List.mem_of_getElem? found
      -- something is queued, so the one write has armed the timer
      have written : driver.writers ≠ [] := by
        intro none
        rw [(timed.inv.unwritten none).2.1] at member
        exact List.not_mem_nil member
      have armed : ∀ writer ∈ driver.writers, writer.pc.armed = true := by
        intro writer among
        by_contra unarmed
        rw [(idle_of_unarmed timed among (by simpa using unarmed)).2.1] at member
        exact List.not_mem_nil member
      refine timed_handler ⟨written, armed⟩ inv rfl timed.elapsed ?_ ?_ ?_
      · exact fun other left => timed.queued other (List.mem_of_mem_eraseIdx left)
      · exact fun _ => (timed.queued time member).trans due
      · exact fun polled => by cases polled
  | polls here =>
      have busy := armed_of_busy timed (by simp [here])
      have queue := (KernelTimer.queue_of_handled timed.inv (by simp [here])).2.2.1
      have entered := timed.entered here
      refine timed_handler busy inv rfl entered ?_ ?_ fun _ => ?_
      · simp [mypollingfunction, queue]
      · exact fun again => by cases again
      · exact Nat.add_le_add_right entered TIMER_INTERVAL
  | rearms timer here added =>
      have busy := armed_of_busy timed (by simp [here])
      have queue := (KernelTimer.queue_of_handled timed.inv (by simp [here])).2.2.1
      have due := timed.polled here
      simp only [KernelTimer.Timer.add, Option.ite_none_left_eq_some, Option.some.injEq] at added
      obtain ⟨_, rfl⟩ := added
      refine timed_handler busy inv rfl timed.elapsed ?_ ?_ ?_
      · intro time member
        rw [queue, List.nil_append, List.mem_singleton] at member
        exact member ▸ due
      · exact fun entered => by cases entered
      · exact fun polled => by cases polled
  | rearmHalts here pending =>
      exact ⟨inv, timed.elapsed, timed.queued, timed.entered, timed.polled, timed.unwritten,
        timed.unarmed, timed.prepared⟩
  | exits loaded closed =>
      exact ⟨inv, timed.elapsed, timed.queued, timed.entered, timed.polled, timed.unwritten,
        timed.unarmed, timed.prepared⟩

/-- No other process writes to the device, nor is the module unloaded under the
program. -/
def Alone (system : System) : Event → Prop
  | .driver event => Once system.driver event
  | .usersignal => True

instance (system : System) : (event : Event) → Decidable (Alone system event)
  | .driver event => inferInstanceAs (Decidable (Once system.driver event))
  | .usersignal => isTrue trivial

/-- Where nobody else uses the device, the program has printed its first line not
before 11 intervals of the timer have passed, and each further one 10 intervals
later. -/
theorem signals_apart (pid : Int) (jiffies : Nat) (gpfdat : Register) (events : List Event)
    (last : System) (calls : List Call)
    (alone : Along (step pid) Alone (start jiffies gpfdat) events)
    (ran : exec (step pid) (start jiffies gpfdat) events = some (last, calls))
    (some_ : 0 < last.signal_count) :
    jiffies + TIMER_INTERVAL * (10 * last.signal_count + 1) ≤ last.driver.jiffies := by
  have once : Along KernelTimer.step Once (KernelTimer.start jiffies gpfdat)
      (events.filterMap driverEvent) := by
    refine Projection.along_projects System.driver driverEvent driverCall
      (fun _ _ _ _ => driver_silent) (fun _ _ _ _ _ => driver_steps) ?_ alone ran
    intro system event act met own
    cases event with
    | driver event =>
        cases own
        exact met
    | usersignal => simp [driverEvent] at own
  have timed := Machine.exec_invariant_along (fun _ driver => Timed jiffies driver)
    (fun _ _ _ _ _ timed once taken => timed_turn timed once (KernelTimer.turn_of_step taken))
    (timed_start jiffies gpfdat) once (driver_run ran)
  have counted := (counted_run (driver_run ran)).sent
  have told := heard_run ran
  have few := (StandardSignal.delivered_le_raised last.signal).trans told.raised
  rw [told.delivered, sent, counted] at few
  -- each number printed is a signal delivered, and each of these ten calls
  have enough : 10 * last.signal_count + 1 ≤ last.driver.timerOccur := by omega
  exact (Nat.add_le_add_left (Nat.mul_le_mul_left _ enough) jiffies).trans timed.elapsed

theorem signals_apart_firstSignal : ∃ last calls,
    exec (step 7) (start 0 0#32) firstSignal = some (last, calls) ∧
      0 + TIMER_INTERVAL * (10 * last.signal_count + 1) ≤ last.driver.jiffies := by
  have result : (exec (step 7) (start 0 0#32) firstSignal).map
      (fun result => result.1.signal_count) = some 1 := by decide +kernel
  have whole : Machine.misses (step 7) Alone (start 0 0#32) firstSignal = 0 := by decide +kernel
  obtain ⟨⟨last, calls⟩, ran, count⟩ := Option.map_eq_some_iff.mp result
  exact ⟨last, calls, ran, signals_apart 7 0 0#32 firstSignal last calls
    ((Machine.misses_zero_iff _ _).mp whole) ran (by rw [count]; decide)⟩

end NetworkTest.TimerSignals
