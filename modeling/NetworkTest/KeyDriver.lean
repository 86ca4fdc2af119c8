import NetworkTest.Machine

/-!
The life cycle of the key driver, fri/signal_keybutton/el2440_key.c: loading
and unloading of the module, and the probes and removals that the driver core
makes while the driver is registered. What is followed is what the driver holds.
-/

namespace NetworkTest.KeyDriver

open Machine (Step exec Along)

/-- The character device and the lines EINT0, EINT2, EINT8 and EINT19. -/
structure Held where
  chrdev : Bool
  lines : Fin 4 → Bool

def Held.none : Held := ⟨false, fun _ => false⟩

/-- What a function returns, and what the driver holds then. -/
structure Returned where
  value : Int
  held : Held

/-- `el2440_keybutton_probe`; `ret` are the results of `request_irq`. -/
def el2440_keybutton_probe (held : Held) (ret : Fin 4 → Int) : Returned where
  value := if ret 0 ≠ 0 ∨ ret 1 ≠ 0 ∨ ret 2 ≠ 0 ∨ ret 3 ≠ 0 then ret 0 else 0
  held := { held with lines := fun i => held.lines i || ret i == 0 }

def el2440_keybutton_remove (held : Held) : Held := { held with lines := fun _ => false }

/-- `el2440_keybutton_init`, given the results of `register_chrdev` and
`driver_register`. -/
def el2440_keybutton_init (held : Held) (result driver : Int) : Returned :=
  if result < 0 then { value := result, held := held }
  else { value := driver, held := { held with chrdev := true } }

/-- `el2440_keybutton_exit` up to `driver_unregister`. -/
def el2440_keybutton_exit (held : Held) : Held := { held with chrdev := false }

/-- `attaching` and `detaching` are inside `driver_register` and
`driver_unregister`. -/
inductive Pc where
  | absent
  | attaching
  | loaded
  | detaching
  deriving DecidableEq

/-- `bound` is what the driver core remembers: a probe returned 0 and the device
has not been removed since. -/
structure System where
  pc : Pc
  bound : Bool
  held : Held

/-- The results of the registrations are 0 or negative; what is held already
cannot be registered again. -/
inductive Event where
  | init (result driver : Int)
  | attached
  | probe (ret : Fin 4 → Int)
  | remove
  | exit
  | detached

/-- A call reports what its function returned, whether one of its registrations
failed, and what was held before and after. -/
inductive Call where
  | returned (value : Int) (failed : Bool) (before after : Held)
  | exited (after : Held)

def step : Step System Event Call := fun system event =>
  match event with
  | .init result driver =>
      if system.pc = .absent ∧ result ≤ 0 ∧ driver ≤ 0 ∧
          (result = 0 → system.held.chrdev = false) then
        let done := el2440_keybutton_init system.held result driver
        if done.value < 0 then
          some ({ system with held := done.held },
            [.returned done.value (decide (result < 0 ∨ driver < 0)) system.held done.held])
        else some ({ system with held := done.held, pc := .attaching }, [])
      else none
  | .attached =>
      if system.pc = .attaching then
        some ({ system with pc := .loaded }, [.returned 0 false system.held system.held])
      else none
  | .probe ret =>
      if (system.pc = .attaching ∨ system.pc = .loaded) ∧ system.bound = false ∧
          ∀ i, ret i ≤ 0 ∧ (ret i = 0 → system.held.lines i = false) then
        let done := el2440_keybutton_probe system.held ret
        some ({ system with held := done.held, bound := decide (done.value = 0) },
          [.returned done.value (decide (∃ i, ret i < 0)) system.held done.held])
      else none
  | .remove =>
      if (system.pc = .loaded ∨ system.pc = .detaching) ∧ system.bound = true then
        some ({ system with held := el2440_keybutton_remove system.held, bound := false }, [])
      else none
  | .exit =>
      if system.pc = .loaded then
        some ({ system with held := el2440_keybutton_exit system.held, pc := .detaching }, [])
      else none
  | .detached =>
      if system.pc = .detaching ∧ system.bound = false then
        some ({ system with pc := .absent }, [.exited system.held])
      else none

def start : System := ⟨.absent, false, .none⟩

inductive Turn (system : System) : Event → System → List Call → Prop where
  | refused (result driver : Int) (failed : result < 0) :
      Turn system (.init result driver) system [.returned result true system.held system.held]
  | initFails (driver : Int) (free : system.held.chrdev = false) (failed : driver < 0) :
      Turn system (.init 0 driver)
        { system with held := { system.held with chrdev := true } }
        [.returned driver true system.held { system.held with chrdev := true }]
  | registers (absent : system.pc = .absent) :
      Turn system (.init 0 0)
        { system with held := { system.held with chrdev := true }, pc := .attaching } []
  | attached (here : system.pc = .attaching) :
      Turn system .attached { system with pc := .loaded }
        [.returned 0 false system.held system.held]
  | probes (ret : Fin 4 → Int) (here : system.pc = .attaching ∨ system.pc = .loaded)
      (free : system.bound = false) (range : ∀ i, ret i ≤ 0)
      (busy : ∀ i, ret i = 0 → system.held.lines i = false) :
      Turn system (.probe ret)
        { system with
          held := (el2440_keybutton_probe system.held ret).held
          bound := decide ((el2440_keybutton_probe system.held ret).value = 0) }
        [.returned (el2440_keybutton_probe system.held ret).value (decide (∃ i, ret i < 0))
          system.held (el2440_keybutton_probe system.held ret).held]
  | removes (here : system.pc = .loaded ∨ system.pc = .detaching) :
      Turn system .remove
        { system with held := { system.held with lines := fun _ => false }, bound := false } []
  | exits :
      Turn system .exit
        { system with held := { system.held with chrdev := false }, pc := .detaching } []
  | detached (here : system.pc = .detaching) (free : system.bound = false) :
      Turn system .detached { system with pc := .absent } [.exited system.held]

theorem turn_of_step {system next : System} {event : Event} {made : List Call}
    (taken : step system event = some (next, made)) : Turn system event next made := by
  cases event with
  | init result driver =>
      simp only [step, Option.ite_none_right_eq_some] at taken
      obtain ⟨⟨absent, low, lowDriver, busy⟩, taken⟩ := taken
      rw [el2440_keybutton_init] at taken
      rcases Int.lt_or_eq_of_le low with failed | rfl
      · simp only [failed, if_true, true_or, decide_true, Option.some.injEq, Prod.mk.injEq] at taken
        obtain ⟨rfl, rfl⟩ := taken
        exact .refused result driver failed
      · simp only [Int.lt_irrefl, if_false, false_or] at taken
        rcases Int.lt_or_eq_of_le lowDriver with failed | rfl
        · simp only [failed, if_true, decide_true, Option.some.injEq, Prod.mk.injEq] at taken
          obtain ⟨rfl, rfl⟩ := taken
          exact .initFails driver (busy rfl) failed
        · simp only [Int.lt_irrefl, if_false, Option.some.injEq, Prod.mk.injEq] at taken
          obtain ⟨rfl, rfl⟩ := taken
          exact .registers absent
  | attached =>
      simp only [step, Option.ite_none_right_eq_some, Option.some.injEq, Prod.mk.injEq] at taken
      obtain ⟨here, rfl, rfl⟩ := taken
      exact .attached here
  | probe ret =>
      simp only [step, Option.ite_none_right_eq_some, Option.some.injEq, Prod.mk.injEq] at taken
      obtain ⟨⟨here, free, each⟩, rfl, rfl⟩ := taken
      exact .probes ret here free (fun i => (each i).1) (fun i => (each i).2)
  | remove =>
      simp only [step, Option.ite_none_right_eq_some, Option.some.injEq, Prod.mk.injEq] at taken
      obtain ⟨⟨here, _⟩, rfl, rfl⟩ := taken
      exact .removes here
  | exit =>
      simp only [step, Option.ite_none_right_eq_some, Option.some.injEq, Prod.mk.injEq] at taken
      obtain ⟨_, rfl, rfl⟩ := taken
      exact .exits
  | detached =>
      simp only [step, Option.ite_none_right_eq_some, Option.some.injEq, Prod.mk.injEq] at taken
      obtain ⟨⟨here, free⟩, rfl, rfl⟩ := taken
      exact .detached here free

/-- An error is returned exactly when a registration failed, and then nothing is
kept of the call; after the exit nothing is held. -/
def Balanced : Call → Prop
  | .returned value failed before after =>
      (value < 0 ↔ failed = true) ∧ (value < 0 → after = before)
  | .exited after => after = .none

/-- `driver_register` does not fail behind a `register_chrdev` that succeeded,
and the four requests of a probe succeed all or fail all. -/
def AllOrNone : Event → Prop
  | .init result driver => result = 0 → driver = 0
  | .probe ret => (∀ i, ret i = 0) ∨ ∀ i, ret i ≠ 0
  | _ => True

instance : (event : Event) → Decidable (AllOrNone event)
  | .init result driver => inferInstanceAs (Decidable (result = 0 → driver = 0))
  | .probe ret => inferInstanceAs (Decidable ((∀ i, ret i = 0) ∨ ∀ i, ret i ≠ 0))
  | .attached => isTrue trivial
  | .remove => isTrue trivial
  | .exit => isTrue trivial
  | .detached => isTrue trivial

/-- The device is held while the module is loaded, the lines while the driver is
bound. -/
structure Inv (system : System) : Prop where
  chrdev : system.held.chrdev = true ↔ system.pc = .attaching ∨ system.pc = .loaded
  lines : ∀ i, system.held.lines i = system.bound
  absent : system.pc = .absent → system.bound = false

theorem inv_start : Inv start := by
  constructor <;> simp [start, Held.none]

theorem inv_turn {system next : System} {event : Event} {made : List Call} (inv : Inv system)
    (registered : AllOrNone event) (turn : Turn system event next made) : Inv next := by
  obtain ⟨chrdev, lines, absent⟩ := inv
  cases turn with
  | refused result driver failed => exact ⟨chrdev, lines, absent⟩
  | initFails driver free failed =>
      have success := registered rfl
      omega
  | registers here => exact ⟨by simp, lines, by simp⟩
  | attached here => exact ⟨by simpa [here] using chrdev, lines, by simp⟩
  | probes ret here free range busy =>
      refine ⟨chrdev, fun i => ?_, fun gone => ?_⟩
      · simp only [el2440_keybutton_probe, lines, free, Bool.false_or]
        rcases registered with granted | refused
        · simp [granted]
        · simp [refused]
      · rw [gone] at here
        simp at here
  | removes here => exact ⟨chrdev, by simp, by simp⟩
  | exits => exact ⟨by simp, lines, by simp⟩
  | detached here free => exact ⟨by simpa [here] using chrdev, lines, fun _ => free⟩

end NetworkTest.KeyDriver
