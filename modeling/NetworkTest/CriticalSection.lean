import Mathlib.Data.List.Count
import Mathlib.Logic.Function.Basic

/-!
Threads that change one shared value, each round of it behind one lock: lock,
load, store, unlock. The load and the store are two steps, between which every
other thread may take its own; what the lock gives is that the value is always
that of the stores made one after the other.
-/

namespace NetworkTest.CriticalSection

universe u v
variable {Thread : Type u} {Value : Type v}

inductive Phase (Value : Type v) where
  | outside
  | locked
  | loaded (value : Value)
  | stored

/-- The stores of a round that has not come to its unlock. -/
def Phase.open_ : Phase Value → Nat
  | .stored => 1
  | _ => 0

def Phase.made : Phase Value → Nat
  | .outside => 0
  | .locked => 1
  | .loaded _ => 2
  | .stored => 3

/-- `stores` are the threads that have stored, in the order of their stores. -/
structure Shared (Thread : Type u) (Value : Type v) where
  owner : Option Thread
  value : Value
  phase : Thread → Phase Value
  stores : List Thread

def fresh (value : Value) : Shared Thread Value where
  owner := none
  value := value
  phase := fun _ => .outside
  stores := []

/-- Only the owner of the lock is inside, what it has loaded is still the value,
and the value is that of the stores in their order. -/
structure Serial (update : Thread → Value → Value) (initial : Value)
    (shared : Shared Thread Value) : Prop where
  owned : ∀ thread, shared.phase thread ≠ .outside ↔ shared.owner = some thread
  current : ∀ thread value, shared.phase thread = .loaded value → value = shared.value
  serial : shared.value = shared.stores.foldl (fun value thread => update thread value) initial

variable {update : Thread → Value → Value} {initial : Value} {shared next : Shared Thread Value}
  {thread : Thread}

theorem serial_fresh : Serial update initial (fresh initial : Shared Thread Value) := by
  constructor
  case owned => simp [fresh]
  case current => simp [fresh]
  case serial => rfl

/-- Who is inside owns the lock, so two threads inside are one. -/
theorem Serial.exclusive (serial : Serial update initial shared) {other : Thread}
    (inside : shared.phase thread ≠ .outside) (otherInside : shared.phase other ≠ .outside) :
    thread = other := by
  have owner := (serial.owned thread).mp inside
  rw [(serial.owned other).mp otherInside] at owner
  exact (Option.some.inj owner).symm

theorem Serial.others (serial : Serial update initial shared) {other : Thread}
    (inside : shared.phase thread ≠ .outside) (differs : other ≠ thread) :
    shared.phase other = .outside := by
  by_contra otherInside
  exact differs (serial.exclusive otherInside inside)

variable [DecidableEq Thread]

/-- The thread's next step; none while another holds the lock it asks for. -/
def go (update : Thread → Value → Value) (shared : Shared Thread Value) (thread : Thread) :
    Option (Shared Thread Value) :=
  match shared.phase thread, shared.owner with
  | .outside, none =>
      some { shared with
        owner := some thread
        phase := Function.update shared.phase thread .locked }
  | .outside, some _ => none
  | .locked, _ =>
      some { shared with phase := Function.update shared.phase thread (.loaded shared.value) }
  | .loaded value, _ =>
      some { shared with
        value := update thread value
        phase := Function.update shared.phase thread .stored
        stores := shared.stores ++ [thread] }
  | .stored, _ =>
      some { shared with
        owner := none
        phase := Function.update shared.phase thread .outside }

inductive Turn (update : Thread → Value → Value) (shared : Shared Thread Value)
    (thread : Thread) : Shared Thread Value → Prop where
  | lock (before : shared.phase thread = .outside) (free : shared.owner = none) :
      Turn update shared thread { shared with
        owner := some thread
        phase := Function.update shared.phase thread .locked }
  | load (before : shared.phase thread = .locked) :
      Turn update shared thread { shared with
        phase := Function.update shared.phase thread (.loaded shared.value) }
  | store (value : Value) (before : shared.phase thread = .loaded value) :
      Turn update shared thread { shared with
        value := update thread value
        phase := Function.update shared.phase thread .stored
        stores := shared.stores ++ [thread] }
  | unlock (before : shared.phase thread = .stored) :
      Turn update shared thread { shared with
        owner := none
        phase := Function.update shared.phase thread .outside }

theorem turn_of_go {update : Thread → Value → Value} {shared next : Shared Thread Value}
    {thread : Thread} (gone : go update shared thread = some next) :
    Turn update shared thread next := by
  unfold go at gone
  split at gone
  case h_1 before free =>
      cases gone
      exact .lock before free
  case h_2 => contradiction
  case h_3 before =>
      cases gone
      exact .load before
  case h_4 value before =>
      cases gone
      exact .store value before
  case h_5 before =>
      cases gone
      exact .unlock before

theorem owned_of_inside (serial : Serial update initial shared) {phase : Phase Value}
    (inside : shared.phase thread ≠ .outside) (still : phase ≠ .outside) (other : Thread) :
    Function.update shared.phase thread phase other ≠ .outside ↔
      shared.owner = some other := by
  have owner := (serial.owned thread).mp inside
  by_cases same : other = thread
  · subst same
    simp [still, owner]
  · rw [Function.update_of_ne same]
    exact serial.owned other

theorem serial_turn (serial : Serial update initial shared)
    (turn : Turn update shared thread next) : Serial update initial next := by
  cases turn with
  | lock before free =>
      have nobody : ∀ other, shared.phase other = .outside := by
        intro other
        by_contra inside
        have owner := (serial.owned other).mp inside
        rw [free] at owner
        contradiction
      constructor
      case owned =>
          intro other
          by_cases same : other = thread
          · simp [same]
          · simp [same, nobody, Ne.symm same]
      case current =>
          intro other value loaded
          by_cases same : other = thread
          · simp [same] at loaded
          · simp [same, nobody] at loaded
      case serial => exact serial.serial
  | load before =>
      have inside : shared.phase thread ≠ .outside := by simp [before]
      constructor
      case owned => exact owned_of_inside serial inside (by simp)
      case current =>
          intro other value loaded
          by_cases same : other = thread
          · subst same
            simpa using loaded.symm
          · simp only [Function.update_of_ne same] at loaded
            exact serial.current other value loaded
      case serial => exact serial.serial
  | store value before =>
      have inside : shared.phase thread ≠ .outside := by simp [before]
      constructor
      case owned => exact owned_of_inside serial inside (by simp)
      case current =>
          intro other later loaded
          by_cases same : other = thread
          · simp [same] at loaded
          · simp [same, serial.others inside same] at loaded
      case serial =>
          -- nobody has stored since this thread loaded
          have read := serial.current thread value before
          rw [List.foldl_append, ← serial.serial, ← read]
          rfl
  | unlock before =>
      have inside : shared.phase thread ≠ .outside := by simp [before]
      constructor
      case owned =>
          intro other
          by_cases same : other = thread
          · simp [same]
          · simp [same, serial.others inside same]
      case current =>
          intro other value loaded
          by_cases same : other = thread
          · simp [same] at loaded
          · simp [same, serial.others inside same] at loaded
      case serial => exact serial.serial

theorem waits_iff : go update shared thread = none ↔
    shared.phase thread = .outside ∧ shared.owner ≠ none := by
  unfold go
  split <;> simp_all

/-- Whoever waits, waits for a thread that can go on. -/
theorem Serial.goes (serial : Serial update initial shared)
    (waits : go update shared thread = none) :
    ∃ other, shared.phase other ≠ .outside ∧ (go update shared other).isSome = true := by
  obtain ⟨_, taken⟩ := waits_iff.mp waits
  obtain ⟨other, owner⟩ := Option.ne_none_iff_exists'.mp taken
  have inside := (serial.owned other).mpr owner
  refine ⟨other, inside, ?_⟩
  rw [Option.isSome_iff_ne_none]
  intro stays
  exact inside (waits_iff.mp stays).1

theorem turn_other (turn : Turn update shared thread next) {other : Thread}
    (differs : other ≠ thread) : next.phase other = shared.phase other := by
  cases turn <;> exact Function.update_of_ne differs ..

theorem turn_of_stored (turn : Turn update shared thread next)
    (stored : shared.phase thread = .stored) : next.phase thread = .outside := by
  cases turn with
  | unlock _ => exact Function.update_self ..
  | lock here => simp [here] at stored
  | load here => simp [here] at stored
  | store value here => simp [here] at stored

theorem turn_made (turn : Turn update shared thread next)
    (inside : shared.phase thread ≠ .stored) :
    (next.phase thread).made = (shared.phase thread).made + 1 := by
  cases turn with
  | lock here free => simp [here, Phase.made]
  | load here => simp [here, Phase.made]
  | store value here => simp [here, Phase.made]
  | unlock here => exact absurd here inside

/-- Each thread has made one store in every round it has finished, and one more
where it has not unlocked yet. -/
def Rounds (shared : Shared Thread Value) (finished : Thread → Nat) : Prop :=
  ∀ thread, shared.stores.count thread = finished thread + (shared.phase thread).open_

theorem rounds_turn {finished : Thread → Nat} (rounds : Rounds shared finished)
    (turn : Turn update shared thread next) (inside : shared.phase thread ≠ .stored) :
    Rounds next finished := by
  intro other
  have before := rounds other
  by_cases same : other = thread
  · subst same
    cases turn with
    | lock here free => simpa [here, Phase.open_] using before
    | load here => simpa [here, Phase.open_] using before
    | store value here => simpa [here, Phase.open_] using before
    | unlock here => exact absurd here inside
  · rw [turn_other turn same, ← before]
    cases turn with
    | store value here => simp [Ne.symm same]
    | _ => rfl

theorem rounds_unlock {finished : Thread → Nat} (rounds : Rounds shared finished)
    (turn : Turn update shared thread next) (stored : shared.phase thread = .stored) :
    Rounds next (Function.update finished thread (finished thread + 1)) := by
  intro other
  have before := rounds other
  cases turn with
  | unlock _ =>
      by_cases same : other = thread
      · subst same
        simpa [stored, Phase.open_] using before
      · simpa [same] using before
  | lock here => simp [here] at stored
  | load here => simp [here] at stored
  | store value here => simp [here] at stored

end NetworkTest.CriticalSection
