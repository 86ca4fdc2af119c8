import Mathlib.Data.List.Basic
import NetworkTest.Machine

/-!
Calls that are made only after others: each call of a run is judged by the calls
before it, whatever step has made it.
-/

namespace NetworkTest.Precedence

open Machine (Step exec)

universe u v w
variable {State : Type u} {Event : Type v} {Call : Type w}

/-- Each call is good behind those before it. -/
def Preceded (good : List Call → Call → Prop) (calls : List Call) : Prop :=
  ∀ before call after, calls = before ++ call :: after → good before call

theorem preceded_nil (good : List Call → Call → Prop) : Preceded good [] := by
  intro before call after split
  simp at split

theorem preceded_append {good : List Call → Call → Prop} {calls made : List Call}
    (first : Preceded good calls)
    (second : ∀ before call after, made = before ++ call :: after → good (calls ++ before) call) :
    Preceded good (calls ++ made) := by
  intro before call after split
  rcases List.append_eq_append_iff.mp split with ⟨rest, rfl, inside⟩ | ⟨rest, rfl, outside⟩
  · exact second rest call after inside
  · cases rest with
    | nil =>
        have same := second [] call after outside.symm
        simpa using same
    | cons head tail =>
        obtain ⟨rfl, _⟩ := List.cons.inj outside
        exact first before call tail rfl

theorem preceded_concat {good : List Call → Call → Prop} {calls : List Call} {call : Call}
    (first : Preceded good calls) (last : good calls call) : Preceded good (calls ++ [call]) := by
  apply preceded_append first
  intro before other after split
  cases before with
  | nil =>
      obtain ⟨rfl, _⟩ := List.cons.inj split
      rwa [List.append_nil]
  | cons head tail =>
      obtain ⟨_, nothing⟩ := List.cons.inj split
      simp at nothing

theorem preceded_of_forall {good : List Call → Call → Prop} {calls made : List Call}
    (first : Preceded good calls) (all : ∀ call ∈ made, ∀ before, good before call) :
    Preceded good (calls ++ made) := by
  apply preceded_append first
  intro before call after split
  exact all call (by simp [split]) _

/-- What every step preserves along with its invariant, a run does. -/
theorem exec_preceded {step : Step State Event Call} {good : List Call → Call → Prop}
    (inv : List Call → State → Prop)
    (keeps : ∀ before state event next made, inv before state → Preceded good before →
      step state event = some (next, made) →
        inv (before ++ made) next ∧ Preceded good (before ++ made))
    {start last : State} {events : List Event} {calls : List Call} (holds : inv [] start)
    (ran : exec step start events = some (last, calls)) : Preceded good calls :=
  (Machine.exec_invariant (fun calls state => inv calls state ∧ Preceded good calls)
    (fun before state event next made both taken =>
      keeps before state event next made both.1 both.2 taken)
    ⟨holds, preceded_nil good⟩ ran).2

end NetworkTest.Precedence
