import NetworkTest.Machine

/-!
How one part of a machine, a process, a thread or the machine as a whole, comes
to its end. The steps of the part are the events that `own` names; of these
only the allowed ones happen from here on, whatever the other parts do.
-/

namespace NetworkTest.Endings

open Machine (Step exec)

universe u v w
variable {State : Type u} {Event : Type v} {Call : Type w}

/-- The part makes only so many steps more, all calls on the way are quiet, and
it can go on until it is gone. -/
structure Ends (step : Step State Event Call) (own allowed : Event → Prop) [DecidablePred own]
    (quiet : Call → Prop) (gone : State → Prop) (state : State) : Prop where
  bounded : ∃ bound, ∀ events last calls, (∀ event ∈ events, own event → allowed event) →
    exec step state events = some (last, calls) → events.countP (fun event => own event) ≤ bound
  quietly : ∀ events last calls, (∀ event ∈ events, own event → allowed event) →
    exec step state events = some (last, calls) → ∀ call ∈ calls, quiet call
  moves : ∀ events last calls, (∀ event ∈ events, own event → allowed event) →
    exec step state events = some (last, calls) →
      gone last ∨ ∃ event, own event ∧ allowed event ∧ (step last event).isSome

variable {step : Step State Event Call} {own allowed : Event → Prop} [DecidablePred own]
  {quiet : Call → Prop} {gone : State → Prop}

theorem measured_run (inv : State → Prop) (measure : State → Nat)
    (keeps : ∀ state event next made, inv state → (own event → allowed event) →
      step state event = some (next, made) →
        inv next ∧ (∀ call ∈ made, quiet call) ∧
          measure next + (if own event then 1 else 0) ≤ measure state)
    {events : List Event} {start last : State} {calls : List Call}
    (only : ∀ event ∈ events, own event → allowed event) (holds : inv start)
    (ran : exec step start events = some (last, calls)) :
    inv last ∧ (∀ call ∈ calls, quiet call) ∧
      measure last + events.countP (fun event => own event) ≤ measure start := by
  induction events generalizing start calls with
  | nil =>
      simp only [exec, Option.some.injEq, Prod.mk.injEq] at ran
      obtain ⟨rfl, rfl⟩ := ran
      simpa using holds
  | cons event rest ih =>
      obtain ⟨next, made, later, taken, tail, rfl⟩ := (Machine.exec_cons_iff ..).mp ran
      rw [List.forall_mem_cons] at only
      obtain ⟨kept, silent, lower⟩ := keeps start event next made holds only.1 taken
      obtain ⟨there, others, count⟩ := ih only.2 kept tail
      refine ⟨there, List.forall_mem_append.mpr ⟨silent, others⟩, ?_⟩
      rw [List.countP_cons]
      simp only [decide_eq_true_eq]
      omega

theorem ends_of_measure (inv : State → Prop) (measure : State → Nat)
    (keeps : ∀ state event next made, inv state → (own event → allowed event) →
      step state event = some (next, made) →
        inv next ∧ (∀ call ∈ made, quiet call) ∧
          measure next + (if own event then 1 else 0) ≤ measure state)
    (moves : ∀ state, inv state →
      gone state ∨ ∃ event, own event ∧ allowed event ∧ (step state event).isSome)
    {state : State} (holds : inv state) : Ends step own allowed quiet gone state := by
  constructor
  case bounded =>
      refine ⟨measure state, fun events last calls only ran => ?_⟩
      exact Nat.le_of_add_left_le (measured_run inv measure keeps only holds ran).2.2
  case quietly =>
      intro events last calls only ran
      exact (measured_run inv measure keeps only holds ran).2.1
  case moves =>
      intro events last calls only ran
      exact moves last (measured_run inv measure keeps only holds ran).1

/-- An own step that leads back to where it is possible again goes on for ever. -/
theorem not_ends_of_loop (inv : State → Prop)
    (again : ∀ state, inv state → ∃ event next made, own event ∧ allowed event ∧
      step state event = some (next, made) ∧ inv next)
    {state : State} (holds : inv state) : ¬ Ends step own allowed quiet gone state := by
  have long : ∀ count state, inv state → ∃ events last calls,
      (∀ event ∈ events, own event ∧ allowed event) ∧ events.length = count ∧
        exec step state events = some (last, calls) := by
    intro count
    induction count with
    | zero => exact fun state _ => ⟨[], state, [], by simp, rfl, rfl⟩
    | succ count ih =>
        intro state holds
        obtain ⟨event, next, made, mine, met, taken, kept⟩ := again state holds
        obtain ⟨events, last, calls, all, length, ran⟩ := ih next kept
        refine ⟨event :: events, last, made ++ calls,
          List.forall_mem_cons.mpr ⟨⟨mine, met⟩, all⟩, by rw [List.length_cons, length], ?_⟩
        exact (Machine.exec_cons_iff ..).mpr ⟨next, made, calls, taken, ran, rfl⟩
  intro ends
  obtain ⟨bound, bounded⟩ := ends.bounded
  obtain ⟨events, last, calls, all, length, ran⟩ := long (bound + 1) state holds
  have count : events.countP (fun event => own event) = events.length :=
    List.countP_eq_length.mpr fun event member => decide_eq_true (all event member).1
  have few := bounded events last calls (fun event member _ => (all event member).2) ran
  omega

theorem not_ends_of_loud {state last : State} {events : List Event} {calls : List Call}
    (only : ∀ event ∈ events, own event → allowed event)
    (ran : exec step state events = some (last, calls)) {call : Call} (made : call ∈ calls)
    (loud : ¬ quiet call) : ¬ Ends step own allowed quiet gone state :=
  fun ends => loud (ends.quietly events last calls only ran call made)

end NetworkTest.Endings
