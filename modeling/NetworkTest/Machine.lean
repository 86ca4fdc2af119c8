import Mathlib.Data.List.Basic

/-!
Programs seen from the system-call interface. A step consumes one event (the
result the environment chose for the pending call) and yields the next state
together with the calls made on the way; `none` means that the event cannot
happen in that state. Runs are finite and prefix-closed, so a statement about
the last state of every run is a statement about every state reached.
-/

namespace NetworkTest.Machine

universe u v w x
variable {State : Type u} {Event : Type v} {Call : Type w}

abbrev Step (State : Type u) (Event : Type v) (Call : Type w) :=
  State → Event → Option (State × List Call)

def exec (step : Step State Event Call) : State → List Event → Option (State × List Call)
  | state, [] => some (state, [])
  | state, event :: rest =>
      match step state event with
      | none => none
      | some (next, made) =>
          match exec step next rest with
          | none => none
          | some (last, later) => some (last, made ++ later)

/-- Every step of the run meets `allowed`. -/
def Along (step : Step State Event Call) (allowed : State → Event → Prop) :
    State → List Event → Prop
  | _, [] => True
  | state, event :: rest =>
      allowed state event ∧
        ∀ next made, step state event = some (next, made) → Along step allowed next rest

/-- The number of steps of the run that do not meet `allowed`. -/
def misses (step : Step State Event Call) (allowed : State → Event → Prop)
    [∀ state event, Decidable (allowed state event)] : State → List Event → Nat
  | _, [] => 0
  | state, event :: rest =>
      (if allowed state event then 0 else 1) +
        match step state event with
        | none => 0
        | some (next, _) => misses step allowed next rest

/-- Every state of the run meets `good`, the first and the last too. -/
def Throughout (step : Step State Event Call) (good : State → Prop) : State → List Event → Prop
  | state, [] => good state
  | state, event :: rest =>
      good state ∧ ∀ next made, step state event = some (next, made) →
        Throughout step good next rest

variable {step : Step State Event Call} {allowed : State → Event → Prop}

theorem exec_cons_iff (state last : State) (event : Event) (rest : List Event)
    (calls : List Call) :
    exec step state (event :: rest) = some (last, calls) ↔
      ∃ next made later, step state event = some (next, made) ∧
        exec step next rest = some (last, later) ∧ calls = made ++ later := by
  constructor
  · intro ran
    cases taken : step state event with
    | none => simp [exec, taken] at ran
    | some pair =>
        obtain ⟨next, made⟩ := pair
        cases tail : exec step next rest with
        | none => simp [exec, taken, tail] at ran
        | some pair =>
            obtain ⟨final, later⟩ := pair
            simp only [exec, taken, tail, Option.some.injEq, Prod.mk.injEq] at ran
            obtain ⟨rfl, rfl⟩ := ran
            exact ⟨next, made, later, rfl, tail, rfl⟩
  · rintro ⟨next, made, later, taken, tail, rfl⟩
    simp [exec, taken, tail]

theorem exec_single {state next : State} {event : Event} {made : List Call}
    (taken : step state event = some (next, made)) :
    exec step state [event] = some (next, made) := by
  simp [exec, taken]

theorem exec_of_isSome {state : State} {events : List Event}
    (runs : (exec step state events).isSome = true) :
    ∃ last calls, exec step state events = some (last, calls) := by
  obtain ⟨⟨last, calls⟩, ran⟩ := Option.isSome_iff_exists.mp runs
  exact ⟨last, calls, ran⟩

theorem exec_append_iff (state last : State) (events rest : List Event) (calls : List Call) :
    exec step state (events ++ rest) = some (last, calls) ↔
      ∃ middle made later, exec step state events = some (middle, made) ∧
        exec step middle rest = some (last, later) ∧ calls = made ++ later := by
  induction events generalizing state calls with
  | nil => simp [exec]
  | cons event events ih =>
      rw [List.cons_append, exec_cons_iff]
      constructor
      · rintro ⟨next, made, later, taken, tail, rfl⟩
        obtain ⟨middle, first, second, head, follows, rfl⟩ := (ih next later).mp tail
        exact ⟨middle, made ++ first, second,
          (exec_cons_iff ..).mpr ⟨next, made, first, taken, head, rfl⟩, follows,
          (List.append_assoc ..).symm⟩
      · rintro ⟨middle, made, later, head, follows, rfl⟩
        obtain ⟨next, first, second, taken, tail, rfl⟩ := (exec_cons_iff ..).mp head
        exact ⟨next, first, second ++ later, taken,
          (ih next _).mpr ⟨middle, second, later, tail, follows, rfl⟩,
          List.append_assoc ..⟩

theorem exec_invariant_from (inv : List Call → State → Prop)
    (keeps : ∀ before state event next made, inv before state → allowed state event →
      step state event = some (next, made) → inv (before ++ made) next)
    {before : List Call} {start last : State} {events : List Event} {calls : List Call}
    (holds : inv before start) (guarded : Along step allowed start events)
    (ran : exec step start events = some (last, calls)) : inv (before ++ calls) last := by
  induction events generalizing before start calls with
  | nil =>
      simp only [exec, Option.some.injEq, Prod.mk.injEq] at ran
      obtain ⟨rfl, rfl⟩ := ran
      simpa using holds
  | cons event rest ih =>
      obtain ⟨next, made, later, taken, tail, rfl⟩ := (exec_cons_iff ..).mp ran
      have kept := keeps before start event next made holds guarded.1 taken
      rw [← List.append_assoc]
      exact ih kept (guarded.2 next made taken) tail

/-- The rule for whole runs: `inv` relates the calls made so far to the state,
and each step that meets `allowed` keeps it. -/
theorem exec_invariant_along (inv : List Call → State → Prop)
    (keeps : ∀ before state event next made, inv before state → allowed state event →
      step state event = some (next, made) → inv (before ++ made) next)
    {start last : State} {events : List Event} {calls : List Call}
    (holds : inv [] start) (guarded : Along step allowed start events)
    (ran : exec step start events = some (last, calls)) : inv calls last := by
  simpa using exec_invariant_from inv keeps holds guarded ran

/-- What a state records of the events, step by step, in states that meet the
invariant. -/
theorem exec_records_from {Item : Type x} {recorded : State → List Item}
    {shows : Event → List Item} (inv : State → Prop)
    (records : ∀ state event next made, inv state → step state event = some (next, made) →
      inv next ∧ recorded next = recorded state ++ shows event)
    {start last : State} {events : List Event} {calls : List Call} (holds : inv start)
    (ran : exec step start events = some (last, calls)) :
    recorded last = recorded start ++ events.flatMap shows := by
  induction events generalizing start calls with
  | nil =>
      simp only [exec, Option.some.injEq, Prod.mk.injEq] at ran
      rw [ran.1, List.flatMap_nil, List.append_nil]
  | cons event rest ih =>
      obtain ⟨next, made, later, taken, tail, rfl⟩ := (exec_cons_iff ..).mp ran
      obtain ⟨kept, shown⟩ := records start event next made holds taken
      rw [ih kept tail, shown, List.flatMap_cons, List.append_assoc]

theorem exec_records {Item : Type x} {recorded : State → List Item} {shows : Event → List Item}
    (records : ∀ state event next made, step state event = some (next, made) →
      recorded next = recorded state ++ shows event)
    {start last : State} {events : List Event} {calls : List Call}
    (ran : exec step start events = some (last, calls)) :
    recorded last = recorded start ++ events.flatMap shows :=
  exec_records_from (fun _ => True)
    (fun state event next made _ taken => ⟨trivial, records state event next made taken⟩)
    trivial ran

/-- A machine that can follow each step of another can follow its runs. -/
theorem exec_follows {Other : Type u} {Made : Type w} {other : Step Other Event Made}
    (related : State → Other → Prop)
    (follows : ∀ state image event next made, related state image →
      step state event = some (next, made) →
        ∃ target copies, other image event = some (target, copies) ∧ related next target)
    {start last : State} {image : Other} {events : List Event} {calls : List Call}
    (holds : related start image) (ran : exec step start events = some (last, calls)) :
    ∃ final copies, exec other image events = some (final, copies) ∧ related last final := by
  induction events generalizing start image calls with
  | nil =>
      simp only [exec, Option.some.injEq, Prod.mk.injEq] at ran
      obtain ⟨rfl, rfl⟩ := ran
      exact ⟨image, [], rfl, holds⟩
  | cons event rest ih =>
      obtain ⟨next, made, later, taken, tail, rfl⟩ := (exec_cons_iff ..).mp ran
      obtain ⟨target, copies, followed, kept⟩ := follows _ _ _ _ _ holds taken
      obtain ⟨final, after, finished, still⟩ := ih kept tail
      exact ⟨final, copies ++ after,
        (exec_cons_iff ..).mpr ⟨target, copies, after, followed, finished, rfl⟩, still⟩

/-- A machine that makes one call a step: `inv` holds before the step with this
number, and `good` of its call. -/
theorem exec_numbered (inv : Nat → State → Prop) (good : Nat → Call → Prop)
    {events : List Event}
    (keeps : ∀ number state event next made, inv number state → events[number]? = some event →
      step state event = some (next, made) →
        inv (number + 1) next ∧ ∃ call, made = [call] ∧ good number call)
    {start last : State} {calls : List Call} (holds : inv 0 start)
    (ran : exec step start events = some (last, calls)) :
    calls.length = events.length ∧
      ∀ number call, calls[number]? = some call → good number call := by
  -- the induction is on what is left of the run
  have later : ∀ rest done state calls, events = done ++ rest → inv done.length state →
      exec step state rest = some (last, calls) →
        calls.length = rest.length ∧
          ∀ number call, calls[number]? = some call → good (done.length + number) call := by
    intro rest
    induction rest with
    | nil =>
        intro done state calls _ _ ran
        simp only [exec, Option.some.injEq, Prod.mk.injEq] at ran
        obtain ⟨_, rfl⟩ := ran
        simp
    | cons event rest ih =>
        intro done state calls whole holds ran
        obtain ⟨next, made, after, taken, tail, rfl⟩ := (exec_cons_iff ..).mp ran
        have here : events[done.length]? = some event := by
          rw [whole, List.getElem?_append_right (Nat.le_refl _), Nat.sub_self,
            List.getElem?_cons_zero]
        obtain ⟨kept, call, rfl, first⟩ := keeps done.length state event next made holds here taken
        obtain ⟨length, others⟩ := ih (done ++ [event]) next after (by rw [whole]; simp)
          (by rw [List.length_append]; exact kept) tail
        refine ⟨by simp [length], fun number call at_number => ?_⟩
        cases number with
        | zero =>
            cases at_number
            exact first
        | succ number =>
            have good := others number call at_number
            rwa [List.length_append, List.length_singleton, Nat.add_assoc,
              Nat.add_comm 1 number] at good
  simpa using later events [] start calls rfl holds ran

theorem along_cons_iff {state next : State} {event : Event} {rest : List Event}
    {made : List Call} (taken : step state event = some (next, made)) :
    Along step allowed state (event :: rest) ↔
      allowed state event ∧ Along step allowed next rest := by
  simp [Along, taken]

theorem along_trivial (start : State) (events : List Event) :
    Along step (fun _ _ => True) start events := by
  induction events generalizing start with
  | nil => trivial
  | cons event rest ih => exact ⟨trivial, fun next _ _ => ih next⟩

theorem exec_invariant (inv : List Call → State → Prop)
    (keeps : ∀ before state event next made, inv before state →
      step state event = some (next, made) → inv (before ++ made) next)
    {start last : State} {events : List Event} {calls : List Call}
    (holds : inv [] start)
    (ran : exec step start events = some (last, calls)) : inv calls last :=
  @exec_invariant_along _ _ _ step (fun _ _ => True) inv
    (fun before state event next made holds _ => keeps before state event next made holds)
    start last events calls holds (along_trivial start events) ran

/-- What every step guarantees of its own calls holds of all calls of a run. -/
theorem exec_calls (good : Call → Prop)
    (shows : ∀ state event next made, step state event = some (next, made) →
      ∀ call ∈ made, good call)
    {start last : State} {events : List Event} {calls : List Call}
    (ran : exec step start events = some (last, calls)) : ∀ call ∈ calls, good call := by
  refine exec_invariant (fun calls _ => ∀ call ∈ calls, good call) ?_ (by simp) ran
  intro before state event next made holds taken call member
  rcases List.mem_append.mp member with old | new
  · exact holds call old
  · exact shows state event next made taken call new

theorem along_mono {weaker : State → Event → Prop} (start : State) (events : List Event)
    (implies : ∀ state event, allowed state event → weaker state event)
    (guarded : Along step allowed start events) : Along step weaker start events := by
  induction events generalizing start with
  | nil => trivial
  | cons event rest ih =>
      exact ⟨implies start event guarded.1,
        fun next made taken => ih next (guarded.2 next made taken)⟩

theorem along_congr {other : State → Event → Prop} (start : State) (events : List Event)
    (same : ∀ state event, allowed state event ↔ other state event) :
    Along step allowed start events ↔ Along step other start events :=
  ⟨along_mono start events fun state event => (same state event).mp,
    along_mono start events fun state event => (same state event).mpr⟩

/-- What a run meets it meets with the invariant of its states. -/
theorem along_weaken {weaker : State → Event → Prop} (inv : State → Prop)
    (keeps : ∀ state event next made, inv state → step state event = some (next, made) → inv next)
    (implies : ∀ state event next made, inv state → step state event = some (next, made) →
      allowed state event → weaker state event)
    {start last : State} {events : List Event} {calls : List Call} (holds : inv start)
    (ran : exec step start events = some (last, calls))
    (guarded : Along step allowed start events) : Along step weaker start events := by
  induction events generalizing start calls with
  | nil => trivial
  | cons event rest ih =>
      obtain ⟨next, made, later, taken, tail, rfl⟩ := (exec_cons_iff ..).mp ran
      obtain ⟨met, follows⟩ := (along_cons_iff taken).mp guarded
      exact (along_cons_iff taken).mpr ⟨implies start event next made holds taken met,
        ih (keeps start event next made holds taken) tail follows⟩

theorem along_of_forall {good : Event → Prop} (start : State) (events : List Event)
    (all : ∀ event ∈ events, good event) (guarded : Along step allowed start events) :
    Along step (fun state event => allowed state event ∧ good event) start events := by
  induction events generalizing start with
  | nil => trivial
  | cons event rest ih =>
      rw [List.forall_mem_cons] at all
      exact ⟨⟨guarded.1, all.1⟩,
        fun next made taken => ih next all.2 (guarded.2 next made taken)⟩

theorem exec_invariant_forall {good : Event → Prop} (inv : List Call → State → Prop)
    (keeps : ∀ before state event next made, inv before state → good event →
      step state event = some (next, made) → inv (before ++ made) next)
    {start last : State} {events : List Event} {calls : List Call} (holds : inv [] start)
    (all : ∀ event ∈ events, good event)
    (ran : exec step start events = some (last, calls)) : inv calls last :=
  exec_invariant_along inv
    (fun before state event next made holds met => keeps before state event next made holds met.2)
    holds (along_of_forall start events all (along_trivial start events)) ran

theorem misses_zero_iff [∀ state event, Decidable (allowed state event)]
    (start : State) (events : List Event) :
    misses step allowed start events = 0 ↔ Along step allowed start events := by
  induction events generalizing start with
  | nil => simp [misses, Along]
  | cons event rest ih =>
      cases taken : step start event with
      | none => simp [misses, Along, taken]
      | some pair =>
          obtain ⟨next, made⟩ := pair
          simp [misses, Along, taken, ih]

/-- `inv count state` counts the steps that missed `allowed` so far. -/
theorem exec_misses [∀ state event, Decidable (allowed state event)]
    (inv : Nat → State → Prop)
    (hit : ∀ count state event next made, inv count state → allowed state event →
      step state event = some (next, made) → inv count next)
    (miss : ∀ count state event next made, inv count state → ¬ allowed state event →
      step state event = some (next, made) → inv (count + 1) next)
    {count : Nat} {start last : State} {events : List Event} {calls : List Call}
    (holds : inv count start)
    (ran : exec step start events = some (last, calls)) :
    inv (count + misses step allowed start events) last := by
  induction events generalizing count start calls with
  | nil =>
      simp only [exec, Option.some.injEq, Prod.mk.injEq] at ran
      obtain ⟨rfl, rfl⟩ := ran
      simpa [misses] using holds
  | cons event rest ih =>
      obtain ⟨next, made, later, taken, tail, rfl⟩ := (exec_cons_iff ..).mp ran
      by_cases met : allowed start event
      · have kept := ih (hit count start event next made holds met taken) tail
        simpa [misses, taken, met] using kept
      · have kept := ih (miss count start event next made holds met taken) tail
        simpa [misses, taken, met, Nat.add_assoc] using kept

/-- If the calls of a step already show that it met `allowed`, then a run
whose calls are all good meets `allowed` at every step. The invariant `inv`
may be used for the steps on the way. -/
theorem along_of_calls (good : Call → Prop) (inv : State → Prop)
    (keeps : ∀ state event next made, inv state →
      step state event = some (next, made) → inv next)
    (shows : ∀ state event next made, inv state → step state event = some (next, made) →
      (∀ call ∈ made, good call) → allowed state event)
    {start last : State} {events : List Event} {calls : List Call} (holds : inv start)
    (ran : exec step start events = some (last, calls))
    (safe : ∀ call ∈ calls, good call) : Along step allowed start events := by
  induction events generalizing start calls with
  | nil => trivial
  | cons event rest ih =>
      obtain ⟨next, made, later, taken, tail, rfl⟩ := (exec_cons_iff ..).mp ran
      refine ⟨shows start event next made holds taken
        (fun call member => safe call (List.mem_append_left _ member)), ?_⟩
      intro other madeOther same
      rw [taken] at same
      cases same
      exact ih (keeps start event next made holds taken) tail
        (fun call member => safe call (List.mem_append_right _ member))

/-- If each step's calls are all good exactly when it meets `allowed`, the same
goes for runs. -/
theorem calls_good_iff_along (good : Call → Prop) (inv : State → Prop)
    (keeps : ∀ state event next made, inv state → allowed state event →
      step state event = some (next, made) → inv next)
    (shows : ∀ state event next made, inv state → step state event = some (next, made) →
      ((∀ call ∈ made, good call) ↔ allowed state event))
    {start last : State} {events : List Event} {calls : List Call} (holds : inv start)
    (ran : exec step start events = some (last, calls)) :
    (∀ call ∈ calls, good call) ↔ Along step allowed start events := by
  induction events generalizing start calls with
  | nil =>
      simp only [exec, Option.some.injEq, Prod.mk.injEq] at ran
      obtain ⟨rfl, rfl⟩ := ran
      simp [Along]
  | cons event rest ih =>
      obtain ⟨next, made, later, taken, tail, rfl⟩ := (exec_cons_iff ..).mp ran
      have head := shows start event next made holds taken
      rw [List.forall_mem_append, along_cons_iff taken, head]
      constructor
      · rintro ⟨met, others⟩
        exact ⟨met, (ih (keeps start event next made holds met taken) tail).mp others⟩
      · rintro ⟨met, follows⟩
        exact ⟨met, (ih (keeps start event next made holds met taken) tail).mpr follows⟩

theorem throughout_start {good : State → Prop} {start : State} {events : List Event}
    (all : Throughout step good start events) : good start := by
  cases events with
  | nil => exact all
  | cons event rest => exact all.1

theorem throughout_last {good : State → Prop} {start last : State} {events : List Event}
    {calls : List Call} (all : Throughout step good start events)
    (ran : exec step start events = some (last, calls)) : good last := by
  induction events generalizing start calls with
  | nil =>
      cases ran
      exact all
  | cons event rest ih =>
      obtain ⟨next, made, later, taken, tail, rfl⟩ := (exec_cons_iff ..).mp ran
      exact ih (all.2 next made taken) tail

/-- If each step out of a good state leads to a good state exactly when it meets
`allowed`, then a run stays in good states exactly when all its steps meet it. -/
theorem throughout_iff_along {good : State → Prop} (inv : State → Prop)
    (keeps : ∀ state event next made, inv state → good state → good next →
      step state event = some (next, made) → inv next)
    (shows : ∀ state event next made, inv state → good state →
      step state event = some (next, made) → (good next ↔ allowed state event))
    {start last : State} {events : List Event} {calls : List Call} (holds : inv start)
    (sound : good start) (ran : exec step start events = some (last, calls)) :
    Throughout step good start events ↔ Along step allowed start events := by
  induction events generalizing start calls with
  | nil => simp [Throughout, Along, sound]
  | cons event rest ih =>
      obtain ⟨next, made, later, taken, tail, rfl⟩ := (exec_cons_iff ..).mp ran
      have head := shows start event next made holds sound taken
      have kept := fun reached => keeps start event next made holds sound reached taken
      simp only [Throughout, Along, taken, Option.some.injEq, Prod.mk.injEq, sound, true_and]
      constructor
      · intro all
        have follows := all next made ⟨rfl, rfl⟩
        have reached := throughout_start follows
        refine ⟨head.mp reached, ?_⟩
        rintro _ _ ⟨rfl, rfl⟩
        exact (ih (kept reached) reached tail).mp follows
      · rintro ⟨met, follows⟩
        have reached := head.mpr met
        rintro _ _ ⟨rfl, rfl⟩
        exact (ih (kept reached) reached tail).mpr (follows next made ⟨rfl, rfl⟩)

theorem along_iff_forall {met : Event → Prop} {start last : State} {events : List Event}
    {calls : List Call} (ran : exec step start events = some (last, calls)) :
    Along step (fun _ event => met event) start events ↔ ∀ event ∈ events, met event := by
  induction events generalizing start calls with
  | nil => simp [Along]
  | cons event rest ih =>
      obtain ⟨next, made, later, taken, tail, rfl⟩ := (exec_cons_iff ..).mp ran
      rw [List.forall_mem_cons, Along, taken]
      apply and_congr_right
      intro _
      constructor
      · intro follows
        exact (ih tail).mp (follows next made rfl)
      · rintro all _ _ ⟨rfl, rfl⟩
        exact (ih tail).mpr all

theorem throughout_iff_forall {good : State → Prop} {met : Event → Prop}
    (shows : ∀ state event next made, good state → step state event = some (next, made) →
      (good next ↔ met event))
    {start last : State} {events : List Event} {calls : List Call} (sound : good start)
    (ran : exec step start events = some (last, calls)) :
    Throughout step good start events ↔ ∀ event ∈ events, met event := by
  rw [← along_iff_forall ran]
  apply throughout_iff_along (fun _ => True) (fun _ _ _ _ _ _ _ _ => trivial) _ trivial sound ran
  intro state event next made _ here taken
  exact shows state event next made here taken

end NetworkTest.Machine
