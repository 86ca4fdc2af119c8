import Mathlib.Data.Fin.Basic
import NetworkTest.CriticalSection
import NetworkTest.Machine

/-!
The two counting threads of wen/mutex, their main program, and every order in
which their steps can come. Each thread makes a hundred rounds of lock, load,
store and unlock; `usleep` only says that anything may happen in between.
-/

namespace NetworkTest.MutexCount

open CriticalSection (Shared Serial go)
open Machine (Step exec)

def rounds : Nat := 100

/-- `gValue = t+1`, whichever thread stores. -/
def increment : Fin 2 → Int → Int := fun _ t => t + 1

inductive Main where
  | creating (i : Fin 2)
  | joining (i : Fin 2)
  | printing
  | returned
  -- `pthread_join` of a `gTh[i]` that was never filled in
  | lost (i : Fin 2)
  deriving DecidableEq

inductive Pc where
  | absent
  | begun
  | looping
  | ended
  deriving DecidableEq

/-- `mutex` holds `gMutex`, `gValue` and where each thread is in its round. -/
structure System where
  main : Main
  pc : Fin 2 → Pc
  i : Fin 2 → Nat
  mutex : Shared (Fin 2) Int

inductive Event where
  | create (made : Bool)
  | join
  | print
  | thread (id : Fin 2)
  deriving DecidableEq

inductive Call where
  | started (tid : Fin 2)
  | line
  | total (gValue : Int)
  deriving DecidableEq

/-- Behind `pthread_mutex_unlock`: `i++` and the test of the loop. -/
def unlocked (system : System) (id : Fin 2) : System :=
  { system with
    i := Function.update system.i id (system.i id + 1)
    pc :=
      if system.i id + 1 < rounds then system.pc
      else Function.update system.pc id .ended }

def threadStep (system : System) (id : Fin 2) : Option (System × List Call) :=
  match system.pc id with
  | .begun =>
      some ({ system with pc := Function.update system.pc id .looping }, [.started id])
  | .looping =>
      match go increment system.mutex id with
      | none => none
      | some mutex =>
          match system.mutex.phase id with
          | .stored => some (unlocked { system with mutex := mutex } id, [])
          | _ => some ({ system with mutex := mutex }, [])
  | _ => none

def step : Step System Event Call := fun system event =>
  match event with
  | .create made =>
      match system.main with
      | .creating i =>
          some ({ system with
            main := if i = 0 then .creating 1 else .joining 0
            pc := if made then Function.update system.pc i .begun else system.pc }, [])
      | _ => none
  | .join =>
      match system.main with
      | .joining i =>
          match system.pc i with
          | .ended => some ({ system with main := if i = 0 then .joining 1 else .printing }, [])
          | .absent => some ({ system with main := .lost i }, [])
          | _ => none
      | _ => none
  | .print =>
      match system.main with
      | .printing =>
          some ({ system with main := .returned }, [.line, .total system.mutex.value])
      | _ => none
  | .thread id => threadStep system id

def start : System where
  main := .creating 0
  pc := fun _ => .absent
  i := fun _ => 0
  mutex := CriticalSection.fresh 0

/-! What one step can do. -/

inductive Turn (system : System) : Event → System → List Call → Prop where
  | created (i : Fin 2) (here : system.main = .creating i) :
      Turn system (.create true)
        { system with
          main := if i = 0 then .creating 1 else .joining 0
          pc := Function.update system.pc i .begun } []
  | failed (i : Fin 2) (here : system.main = .creating i) :
      Turn system (.create false)
        { system with main := if i = 0 then .creating 1 else .joining 0 } []
  | joined (i : Fin 2) (here : system.main = .joining i) (ended : system.pc i = .ended) :
      Turn system .join { system with main := if i = 0 then .joining 1 else .printing } []
  | strays (i : Fin 2) (here : system.main = .joining i) (none : system.pc i = .absent) :
      Turn system .join { system with main := .lost i } []
  | prints (here : system.main = .printing) :
      Turn system .print { system with main := .returned }
        [.line, .total system.mutex.value]
  | starts (id : Fin 2) (here : system.pc id = .begun) :
      Turn system (.thread id)
        { system with pc := Function.update system.pc id .looping } [.started id]
  | goes (id : Fin 2) (mutex : Shared (Fin 2) Int) (here : system.pc id = .looping)
      (gone : go increment system.mutex id = some mutex)
      (inside : system.mutex.phase id ≠ .stored) :
      Turn system (.thread id) { system with mutex := mutex } []
  | unlocks (id : Fin 2) (mutex : Shared (Fin 2) Int) (here : system.pc id = .looping)
      (gone : go increment system.mutex id = some mutex)
      (stored : system.mutex.phase id = .stored) :
      Turn system (.thread id) (unlocked { system with mutex := mutex } id) []

theorem turn_of_threadStep {system next : System} {id : Fin 2} {made : List Call}
    (taken : threadStep system id = some (next, made)) :
    Turn system (.thread id) next made := by
  unfold threadStep at taken
  split at taken
  case h_1 here =>
      cases taken
      exact .starts id here
  case h_2 here =>
      split at taken
      case h_1 => contradiction
      case h_2 mutex gone =>
          split at taken
          case h_1 stored =>
              cases taken
              exact .unlocks id mutex here gone stored
          case h_2 inside =>
              cases taken
              exact .goes id mutex here gone inside
  case h_3 => contradiction

theorem turn_of_step {system next : System} {event : Event} {made : List Call}
    (taken : step system event = some (next, made)) : Turn system event next made := by
  unfold step at taken
  split at taken
  case h_1 made =>
      split at taken
      case h_1 i here =>
          cases taken
          cases made with
          | true => exact .created i here
          | false => exact .failed i here
      case h_2 => contradiction
  case h_2 =>
      split at taken
      case h_1 i here =>
          split at taken
          case h_1 ended =>
              cases taken
              exact .joined i here ended
          case h_2 none =>
              cases taken
              exact .strays i here none
          case h_3 => contradiction
      case h_2 => contradiction
  case h_3 =>
      split at taken
      case h_1 here =>
          cases taken
          exact .prints here
      case h_2 => contradiction
  case h_4 id => exact turn_of_threadStep taken

/-! What holds in every state reached. -/

/-- Where the main program is tells which threads have ended. -/
def Main.Awaits (main : Main) (pc : Fin 2 → Pc) : Prop :=
  match main with
  | .creating i => ∀ id, i ≤ id → pc id = .absent
  | .joining i => ∀ id < i, pc id = .ended
  | .printing => ∀ id, pc id = .ended
  | .returned => ∀ id, pc id = .ended
  | .lost _ => True

structure Inv (system : System) : Prop where
  serial : Serial increment 0 system.mutex
  counted : CriticalSection.Rounds system.mutex system.i
  under : ∀ id, system.pc id ≠ .ended → system.i id < rounds
  full : ∀ id, system.pc id = .ended → system.i id = rounds
  idle : ∀ id, system.pc id ≠ .looping → system.mutex.phase id = .outside
  awaits : system.main.Awaits system.pc

theorem inv_start : Inv start := by
  constructor
  case serial => exact CriticalSection.serial_fresh
  case counted => simp [CriticalSection.Rounds, start, CriticalSection.fresh,
    CriticalSection.Phase.open_]
  case awaits => simp [start, Main.Awaits]
  all_goals simp [start, CriticalSection.fresh, rounds]

theorem awaits_ended {main : Main} {pc : Fin 2 → Pc} {id : Fin 2} (later : Pc)
    (running : pc id = .begun ∨ pc id = .looping) (awaits : main.Awaits pc) :
    main.Awaits (Function.update pc id later) := by
  have other : ∀ {i}, pc i = .absent ∨ pc i = .ended → i ≠ id := by
    rintro i settled rfl
    rcases running with here | here <;> simp [here] at settled
  cases main with
  | creating i =>
      intro j after
      have absent := awaits j after
      rwa [Function.update_of_ne (other (.inl absent))]
  | joining i =>
      intro j before
      have ended := awaits j before
      rwa [Function.update_of_ne (other (.inr ended))]
  | printing =>
      intro j
      have ended := awaits j
      rwa [Function.update_of_ne (other (.inr ended))]
  | returned =>
      intro j
      have ended := awaits j
      rwa [Function.update_of_ne (other (.inr ended))]
  | lost i => trivial

theorem awaits_creating {pc after : Fin 2 → Pc} {i : Fin 2}
    (awaits : (Main.creating i).Awaits pc) (same : ∀ id, id ≠ i → after id = pc id) :
    (if i = 0 then Main.creating 1 else .joining 0).Awaits after := by
  split
  case isTrue first =>
      intro id late
      rw [same id (by omega)]
      exact awaits id (by omega)
  case isFalse second =>
      intro id early
      omega

/-- What a thread has counted, and where it is in its round, by how far it has come. -/
structure Steady (pc : Pc) (i : Nat) (phase : CriticalSection.Phase Int) : Prop where
  under : pc ≠ .ended → i < rounds
  full : pc = .ended → i = rounds
  idle : pc ≠ .looping → phase = .outside

theorem inv_of_steady {system : System} (serial : Serial increment 0 system.mutex)
    (counted : CriticalSection.Rounds system.mutex system.i)
    (steady : ∀ id, Steady (system.pc id) (system.i id) (system.mutex.phase id))
    (awaits : system.main.Awaits system.pc) : Inv system where
  serial := serial
  counted := counted
  under id := (steady id).under
  full id := (steady id).full
  idle id := (steady id).idle
  awaits := awaits

theorem steady_moved {system next : System} (inv : Inv system) (id : Fin 2)
    (mine : Steady (next.pc id) (next.i id) (next.mutex.phase id))
    (others : ∀ other, other ≠ id → next.pc other = system.pc other ∧
      next.i other = system.i other ∧ next.mutex.phase other = system.mutex.phase other) :
    ∀ other, Steady (next.pc other) (next.i other) (next.mutex.phase other) := by
  intro other
  by_cases same : other = id
  · rw [same]
    exact mine
  · obtain ⟨pc, i, phase⟩ := others other same
    rw [pc, i, phase]
    exact ⟨inv.under other, inv.full other, inv.idle other⟩

theorem steady_unlocked {system : System} {id : Fin 2} (under : system.i id < rounds)
    (outside : system.mutex.phase id = .outside) (here : system.pc id = .looping) :
    Steady ((unlocked system id).pc id) ((unlocked system id).i id)
      ((unlocked system id).mutex.phase id) := by
  have count : (unlocked system id).i id = system.i id + 1 := Function.update_self ..
  by_cases more : system.i id + 1 < rounds
  · have stays : (unlocked system id).pc id = .looping := by
      rw [unlocked, if_pos more]
      exact here
    rw [count, stays]
    exact ⟨fun _ => more, fun ended => absurd ended (by decide), fun out => absurd rfl out⟩
  · have ends : (unlocked system id).pc id = .ended := by
      rw [unlocked, if_neg more]
      exact Function.update_self ..
    rw [count, ends]
    exact ⟨fun going => absurd rfl going, fun _ => by omega, fun _ => outside⟩

theorem unlocked_other (system : System) {id other : Fin 2} (differs : other ≠ id) :
    (unlocked system id).pc other = system.pc other ∧
      (unlocked system id).i other = system.i other := by
  refine ⟨?_, Function.update_of_ne differs ..⟩
  unfold unlocked
  split
  · rfl
  · exact Function.update_of_ne differs ..

theorem inv_turn {system next : System} {event : Event} {made : List Call} (inv : Inv system)
    (turn : Turn system event next made) : Inv next := by
  have awaits := inv.awaits
  cases turn with
  | created i here =>
      rw [here] at awaits
      have absent := awaits i (Nat.le_refl _)
      refine inv_of_steady inv.serial inv.counted (steady_moved inv i ?_ fun other differs => ?_)
        (awaits_creating awaits fun id other => Function.update_of_ne other ..)
      · simp only [Function.update_self]
        exact ⟨fun _ => inv.under i (by simp [absent]), fun ended => absurd ended (by decide),
          fun _ => inv.idle i (by simp [absent])⟩
      · exact ⟨Function.update_of_ne differs .., rfl, rfl⟩
  | failed i here =>
      rw [here] at awaits
      exact ⟨inv.serial, inv.counted, inv.under, inv.full, inv.idle,
        awaits_creating awaits fun _ _ => rfl⟩
  | joined i here ended =>
      rw [here] at awaits
      refine ⟨inv.serial, inv.counted, inv.under, inv.full, inv.idle, ?_⟩
      split
      case isTrue first =>
          intro id early
          rw [show id = i by omega]
          exact ended
      case isFalse second =>
          intro id
          by_cases same : id = i
          · rw [same]
            exact ended
          · exact awaits id (by omega)
  | strays i here none =>
      exact ⟨inv.serial, inv.counted, inv.under, inv.full, inv.idle, trivial⟩
  | prints here =>
      rw [here] at awaits
      exact ⟨inv.serial, inv.counted, inv.under, inv.full, inv.idle, awaits⟩
  | starts id here =>
      refine inv_of_steady inv.serial inv.counted (steady_moved inv id ?_ fun other differs => ?_)
        (awaits_ended _ (.inl here) awaits)
      · simp only [Function.update_self]
        exact ⟨fun _ => inv.under id (by simp [here]), fun ended => absurd ended (by decide),
          fun out => absurd rfl out⟩
      · exact ⟨Function.update_of_ne differs .., rfl, rfl⟩
  | goes id mutex here gone inside =>
      have moved := CriticalSection.turn_of_go gone
      refine inv_of_steady (CriticalSection.serial_turn inv.serial moved)
        (CriticalSection.rounds_turn inv.counted moved inside)
        (steady_moved inv id ?_ fun other differs => ?_) awaits
      · exact ⟨inv.under id, inv.full id, fun out => absurd here out⟩
      · exact ⟨rfl, rfl, CriticalSection.turn_other moved differs⟩
  | unlocks id mutex here gone stored =>
      have moved := CriticalSection.turn_of_go gone
      have under := inv.under id (by simp [here])
      have outside := CriticalSection.turn_of_stored moved stored
      refine inv_of_steady (CriticalSection.serial_turn inv.serial moved)
        (CriticalSection.rounds_unlock inv.counted moved stored)
        (steady_moved inv id ?_ fun other differs => ?_) ?_
      · exact @steady_unlocked { system with mutex := mutex } id under outside here
      · obtain ⟨pc, i⟩ := unlocked_other { system with mutex := mutex } differs
        exact ⟨pc, i, CriticalSection.turn_other moved differs⟩
      · by_cases more : system.i id + 1 < rounds
        · rw [unlocked, if_pos more]
          exact awaits
        · rw [unlocked, if_neg more]
          exact awaits_ended _ (.inr here) awaits

theorem inv_run {events : List Event} {last : System} {calls : List Call}
    (ran : exec step start events = some (last, calls)) : Inv last :=
  Machine.exec_invariant (fun _ => Inv)
    (fun _ _ _ _ _ inv taken => inv_turn inv (turn_of_step taken)) inv_start ran

/-! The count. -/

theorem length_of_counts (stores : List (Fin 2)) :
    stores.length = stores.count 0 + stores.count 1 := by
  induction stores with
  | nil => rfl
  | cons id rest ih =>
      rw [List.length_cons, ih, List.count_cons, List.count_cons]
      by_cases first : id = 0
      · subst first
        simp only [BEq.rfl, if_true, Fin.reduceBEq, Bool.false_eq_true, if_false]
        omega
      · obtain rfl : id = 1 := by omega
        simp only [BEq.rfl, if_true, Fin.reduceBEq, Bool.false_eq_true, if_false]
        omega

theorem value_of_stores (stores : List (Fin 2)) (initial : Int) :
    stores.foldl (fun value id => increment id value) initial = initial + stores.length := by
  induction stores generalizing initial with
  | nil => simp
  | cons id rest ih =>
      rw [List.foldl_cons, ih, increment, List.length_cons]
      omega

def System.stores (system : System) (id : Fin 2) : Nat :=
  system.i id + (system.mutex.phase id).open_

/-- No store is ever lost. -/
theorem Inv.value {system : System} (inv : Inv system) :
    system.mutex.value = ((system.stores 0 + system.stores 1 : Nat) : Int) := by
  rw [inv.serial.serial, value_of_stores, length_of_counts, inv.counted 0, inv.counted 1,
    Int.zero_add]
  rfl

theorem Inv.total {system : System} (inv : Inv system) (ended : ∀ id, system.pc id = .ended) :
    system.mutex.value = 200 := by
  have each : ∀ id, system.stores id = rounds := by
    intro id
    have outside := inv.idle id (by simp [ended])
    rw [System.stores, inv.full id (ended id), outside]
    rfl
  rw [inv.value, each, each]
  rfl

def System.Inside (system : System) (id : Fin 2) : Prop := system.mutex.phase id ≠ .outside

theorem printed_run {events : List Event} {last : System} {calls : List Call}
    (ran : exec step start events = some (last, calls)) :
    ∀ value, Call.total value ∈ calls → value = 200 := by
  have kept := Machine.exec_invariant
    (fun calls system => Inv system ∧ ∀ value, Call.total value ∈ calls → value = 200)
    (fun before system event next made holds taken => by
      have turn := turn_of_step taken
      refine ⟨inv_turn holds.1 turn, fun value member => ?_⟩
      rcases List.mem_append.mp member with old | new
      · exact holds.2 value old
      · cases turn with
        | prints here =>
            have ended : system.main.Awaits system.pc := holds.1.awaits
            rw [here] at ended
            obtain rfl : value = system.mutex.value := by simpa using new
            exact holds.1.total ended
        | starts id here => simp at new
        | _ => simp at new)
    ⟨inv_start, by simp⟩ ran
  exact kept.2

/-- What a thread still has to do; one that was never created counts as whole. -/
def System.threadLeft (system : System) (id : Fin 2) : Nat :=
  match system.pc id with
  | .absent => 4 * (rounds - system.i id) + 1
  | .begun => 4 * (rounds - system.i id) + 1
  | .looping => 4 * (rounds - system.i id) - (system.mutex.phase id).made
  | .ended => 0

def Main.left : Main → Nat
  | .creating i => 5 - i.val
  | .joining i => 3 - i.val
  | .printing => 1
  | .returned => 0
  | .lost i => 2 - i.val

def System.left (system : System) : Nat :=
  system.main.left + (system.threadLeft 0 + system.threadLeft 1)

theorem left_of_thread {system next : System} {id : Fin 2} (main : next.main = system.main)
    (mine : next.threadLeft id + 1 = system.threadLeft id)
    (others : ∀ other, other ≠ id → next.threadLeft other = system.threadLeft other) :
    next.left + 1 = system.left := by
  rw [System.left, System.left, main]
  by_cases first : id = 0
  · subst first
    rw [others 1 (by decide)]
    omega
  · obtain rfl : id = 1 := by omega
    rw [others 0 (by decide)]
    omega

theorem left_of_main {system next : System} (main : next.main.left + 1 = system.main.left)
    (threads : ∀ id, next.threadLeft id = system.threadLeft id) :
    next.left + 1 = system.left := by
  rw [System.left, System.left, threads, threads]
  omega

theorem left_creating (i : Fin 2) :
    (if i = 0 then Main.creating 1 else .joining 0).left + 1 = (Main.creating i).left := by
  revert i
  decide

theorem left_joining (i : Fin 2) :
    (if i = 0 then Main.joining 1 else .printing).left + 1 = (Main.joining i).left := by
  revert i
  decide

/-- Every step takes one from what is left. -/
theorem left_turn {system next : System} {event : Event} {made : List Call} (inv : Inv system)
    (turn : Turn system event next made) : next.left + 1 = system.left := by
  cases turn with
  | created i here =>
      have awaits := inv.awaits
      rw [here] at awaits
      have absent := awaits i (Nat.le_refl _)
      refine left_of_main ?_ fun id => ?_
      · rw [here]
        exact left_creating i
      · by_cases same : id = i
        · subst same
          simp [System.threadLeft, absent]
        · simp [System.threadLeft, same]
  | failed i here =>
      refine left_of_main ?_ fun _ => rfl
      rw [here]
      exact left_creating i
  | joined i here ended =>
      refine left_of_main ?_ fun _ => rfl
      rw [here]
      exact left_joining i
  | strays i here none =>
      refine left_of_main ?_ fun _ => rfl
      rw [here]
      simp only [Main.left]
      omega
  | prints here =>
      refine left_of_main ?_ fun _ => rfl
      rw [here]
      rfl
  | starts id here =>
      refine @left_of_thread _ _ id rfl ?_ fun other differs => ?_
      · have outside := inv.idle id (by simp [here])
        simp [System.threadLeft, here, outside, CriticalSection.Phase.made]
      · simp [System.threadLeft, differs]
  | goes id mutex here gone inside =>
      have moved := CriticalSection.turn_of_go gone
      have under := inv.under id (by simp [here])
      refine @left_of_thread _ _ id rfl ?_ fun other differs => ?_
      · have steps := CriticalSection.turn_made moved inside
        have few : (system.mutex.phase id).made < 3 := by
          cases phase : system.mutex.phase id with
          | stored => exact absurd phase inside
          | _ => simp [CriticalSection.Phase.made]
        simp only [System.threadLeft, here, steps]
        omega
      · simp [System.threadLeft, CriticalSection.turn_other moved differs]
  | unlocks id mutex here gone stored =>
      have moved := CriticalSection.turn_of_go gone
      have under := inv.under id (by simp [here])
      have outside := CriticalSection.turn_of_stored moved stored
      refine @left_of_thread _ _ id rfl ?_ fun other differs => ?_
      · by_cases more : system.i id + 1 < rounds
        · simp only [System.threadLeft, unlocked, more, if_true, here, stored, outside,
            Function.update_self, CriticalSection.Phase.made]
          omega
        · simp only [System.threadLeft, unlocked, more, if_false, here, stored,
            Function.update_self, CriticalSection.Phase.made]
          omega
      · have stays := CriticalSection.turn_other moved differs
        by_cases more : system.i id + 1 < rounds
        · simp [System.threadLeft, unlocked, more, differs, stays]
        · simp [System.threadLeft, unlocked, more, differs, stays]

theorem length_run {events : List Event} {system last : System} {calls : List Call}
    (inv : Inv system) (ran : exec step system events = some (last, calls)) :
    events.length + last.left = system.left := by
  induction events generalizing system calls with
  | nil =>
      cases ran
      simp
  | cons event rest ih =>
      obtain ⟨next, made, later, taken, tail, rfl⟩ := (Machine.exec_cons_iff ..).mp ran
      have turn := turn_of_step taken
      have falls := left_turn inv turn
      have ends := ih (inv_turn inv turn) tail
      rw [List.length_cons]
      omega

/-- A thread that has begun can go on, or waits for one that can. -/
theorem thread_goes {system : System} (inv : Inv system) {id : Fin 2}
    (running : system.pc id = .begun ∨ system.pc id = .looping) :
    ∃ other, (step system (.thread other)).isSome = true := by
  have goes : ∀ other, system.pc other = .looping →
      (go increment system.mutex other).isSome = true →
        (step system (.thread other)).isSome = true := by
    intro other here gone
    obtain ⟨mutex, gone⟩ := Option.isSome_iff_exists.mp gone
    simp only [step, threadStep, here, gone]
    split <;> rfl
  rcases running with begun | here
  · exact ⟨id, by simp [step, threadStep, begun]⟩
  cases gone : go increment system.mutex id with
  | some mutex => exact ⟨id, goes id here (by simp [gone])⟩
  | none =>
      -- the owner of the lock is in its loop
      obtain ⟨other, inside, gone⟩ := inv.serial.goes gone
      refine ⟨other, goes other ?_ gone⟩
      by_contra out
      exact inside (inv.idle other out)

theorem main_ended {system : System} (inv : Inv system)
    (stuck : ∀ event, step system event = none) :
    system.main = .returned ∨ ∃ i, system.main = .lost i := by
  cases here : system.main with
  | returned => exact .inl rfl
  | lost i => exact .inr ⟨i, rfl⟩
  | creating i =>
      have none := stuck (.create true)
      simp [step, here] at none
  | printing =>
      have none := stuck .print
      simp [step, here] at none
  | joining i =>
      have waits := stuck .join
      simp only [step, here] at waits
      have running : system.pc i = .begun ∨ system.pc i = .looping := by
        split at waits
        case h_1 => contradiction
        case h_2 => contradiction
        case h_3 first second =>
            cases pc : system.pc i with
            | absent => exact absurd pc second
            | begun => exact .inl rfl
            | looping => exact .inr rfl
            | ended => exact absurd pc first
      -- the thread it waits for could go on, or another one that holds the lock
      obtain ⟨other, goes⟩ := thread_goes inv running
      simp [stuck] at goes

/-- As long as no `pthread_create` has failed. -/
def Created (calls : List Call) (system : System) : Prop :=
  match system.main with
  | .creating i => ∀ id < i, system.pc id ≠ .absent
  | .joining _ => ∀ id, system.pc id ≠ .absent
  | .printing => True
  | .returned => ∃ value, Call.total value ∈ calls
  | .lost _ => False

theorem created_start : Created [] start := by simp [Created, start]

theorem created_thread {calls : List Call} {made : List Call} {system next : System}
    (main : next.main = system.main)
    (kept : ∀ id, next.pc id = .absent → system.pc id = .absent)
    (created : Created calls system) : Created (calls ++ made) next := by
  rw [Created] at created ⊢
  rw [main]
  split at created
  case h_1 => exact fun id early none => created id early (kept id none)
  case h_2 => exact fun id none => created id (kept id none)
  case h_3 => trivial
  case h_4 =>
      obtain ⟨value, member⟩ := created
      exact ⟨value, List.mem_append_left _ member⟩
  case h_5 => exact created

theorem created_turn {calls : List Call} {made : List Call} {system next : System}
    {event : Event} (created : Created calls system) (well : event ≠ .create false)
    (turn : Turn system event next made) : Created (calls ++ made) next := by
  cases turn with
  | created i here =>
      simp only [Created, here] at created ⊢
      by_cases first : i = 0
      · subst first
        intro id early
        obtain rfl : id = 0 := by omega
        simp
      · rw [if_neg first]
        intro id
        by_cases same : id = i
        · simp [same]
        · simpa [same] using created id (by omega)
  | failed i here => exact absurd rfl well
  | joined i here ended =>
      simp only [Created, here] at created ⊢
      by_cases first : i = 0
      · simpa [first] using created
      · simp [first]
  | strays i here none =>
      simp only [Created, here] at created
      exact created i none
  | prints here =>
      exact ⟨system.mutex.value, by simp⟩
  | starts id here =>
      refine @created_thread _ _ system _ rfl (fun other none => ?_) created
      by_cases same : other = id
      · simp [same] at none
      · simpa [same] using none
  | goes id mutex here gone inside => exact created_thread rfl (fun _ none => none) created
  | unlocks id mutex here gone stored =>
      refine @created_thread _ _ system _ rfl (fun other none => ?_) created
      by_cases more : system.i id + 1 < rounds
      · simpa [unlocked, more] using none
      · by_cases same : other = id
        · simp [unlocked, more, same] at none
        · simpa [unlocked, more, same] using none

/-- No run has more than 807 steps, and one that cannot go on, with both threads
created, has printed 200. -/
theorem ends_run (events : List Event) (last : System) (calls : List Call)
    (ran : exec step start events = some (last, calls)) :
    events.length ≤ 807 ∧
      ((∀ event ∈ events, event ≠ .create false) → (∀ event, step last event = none) →
        last.main = .returned ∧ Call.total 200 ∈ calls) := by
  have inv := inv_run ran
  have length := length_run inv_start ran
  have whole : start.left = 807 := rfl
  refine ⟨by omega, fun well stuck => ?_⟩
  have created := Machine.exec_invariant_forall Created
    (fun _ _ _ _ _ created well taken => created_turn created well (turn_of_step taken))
    created_start well ran
  rw [Created] at created
  rcases main_ended inv stuck with returned | ⟨i, lost⟩
  · rw [returned] at created
    obtain ⟨value, member⟩ := created
    rw [printed_run ran value member] at member
    exact ⟨returned, member⟩
  · rw [lost] at created
    exact created.elim

theorem stuck_of_returned {system : System} (inv : Inv system) (returned : system.main = .returned)
    (event : Event) : step system event = none := by
  have ended := inv.awaits
  rw [returned] at ended
  cases event with
  | create made => simp [step, returned]
  | join => simp [step, returned]
  | print => simp [step, returned]
  | thread id =>
      have gone : system.pc id = .ended := ended id
      simp [step, threadStep, gone]

/-- Both threads are created, and take their rounds in turns. -/
def turns : List Event :=
  [.create true, .create true, .thread 0, .thread 1] ++
    (List.replicate rounds (List.replicate 4 (.thread 0) ++ List.replicate 4 (.thread 1))).flatten ++
    [.join, .join, .print]

theorem ends_turns :
    ∃ last calls, exec step start turns = some (last, calls) ∧ turns.length ≤ 807 ∧
      last.main = .returned ∧ Call.total 200 ∈ calls := by
  have runs : (exec step start turns).map (fun result => result.1.main) = some .returned := by
    decide +kernel
  have created : ∀ event ∈ turns, event ≠ .create false := by decide +kernel
  obtain ⟨⟨last, calls⟩, ran, returned⟩ := Option.map_eq_some_iff.mp runs
  obtain ⟨short, whole⟩ := ends_run turns last calls ran
  exact ⟨last, calls, ran, short, whole created (stuck_of_returned (inv_run ran) returned)⟩

end NetworkTest.MutexCount
