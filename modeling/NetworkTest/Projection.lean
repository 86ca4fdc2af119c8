import Mathlib.Logic.Function.Basic
import NetworkTest.Machine

/-!
The parts of a system. Where each step of the whole is a step of the part or
leaves it as it is, what the part does in a run of the whole is a run of the
part by itself, so what holds of all its runs holds of it in every interleaving.
-/

namespace NetworkTest.Projection

open Machine (Step exec Along)

universe u v w x y z t
variable {State : Type u} {Event : Type v} {Call : Type w} {Part : Type x} {Act : Type y}
  {Made : Type z}

/-- `view` says which events are steps of the part, and `shows` which calls are
the part's. -/
theorem exec_projects {whole : Step State Event Call} {part : Step Part Act Made}
    (look : State → Part) (view : Event → Option Act) (shows : Call → Option Made)
    (silent : ∀ state event next made, whole state event = some (next, made) →
      view event = none → look next = look state ∧ made.filterMap shows = [])
    (steps : ∀ state event act next made, whole state event = some (next, made) →
      view event = some act → part (look state) act = some (look next, made.filterMap shows))
    {start last : State} {events : List Event} {calls : List Call}
    (ran : exec whole start events = some (last, calls)) :
    exec part (look start) (events.filterMap view) =
      some (look last, calls.filterMap shows) := by
  induction events generalizing start calls with
  | nil =>
      cases ran
      rfl
  | cons event rest ih =>
      obtain ⟨next, made, later, taken, tail, rfl⟩ := (Machine.exec_cons_iff ..).mp ran
      have ends := ih tail
      rw [List.filterMap_append]
      cases seen : view event with
      | none =>
          obtain ⟨same, nothing⟩ := silent start event next made taken seen
          rw [List.filterMap_cons_none seen, nothing, List.nil_append, ← same]
          exact ends
      | some act =>
          rw [List.filterMap_cons_some seen]
          exact (Machine.exec_cons_iff ..).mpr ⟨look next, made.filterMap shows, _,
            steps start event act next made taken seen, ends, rfl⟩

theorem along_projects {whole : Step State Event Call} {part : Step Part Act Made}
    {allowed : State → Event → Prop} {good : Part → Act → Prop} (look : State → Part)
    (view : Event → Option Act) (shows : Call → Option Made)
    (silent : ∀ state event next made, whole state event = some (next, made) →
      view event = none → look next = look state ∧ made.filterMap shows = [])
    (steps : ∀ state event act next made, whole state event = some (next, made) →
      view event = some act → part (look state) act = some (look next, made.filterMap shows))
    (implies : ∀ state event act, allowed state event → view event = some act →
      good (look state) act)
    {start last : State} {events : List Event} {calls : List Call}
    (guarded : Along whole allowed start events)
    (ran : exec whole start events = some (last, calls)) :
    Along part good (look start) (events.filterMap view) := by
  induction events generalizing start calls with
  | nil => trivial
  | cons event rest ih =>
      obtain ⟨next, made, later, taken, tail, rfl⟩ := (Machine.exec_cons_iff ..).mp ran
      obtain ⟨met, follows⟩ := (Machine.along_cons_iff taken).mp guarded
      cases seen : view event with
      | none =>
          rw [List.filterMap_cons_none seen, ← (silent start event next made taken seen).1]
          exact ih follows tail
      | some act =>
          rw [List.filterMap_cons_some seen]
          apply (Machine.along_cons_iff (steps start event act next made taken seen)).mpr
          exact ⟨implies start event act met seen, ih follows tail⟩

section Product

variable {Index : Type t} [DecidableEq Index]

/-- Any number of parts side by side, each with its own state. -/
def product (part : Step Part Act Made) :
    Step (Index → Part) (Index × Act) (Index × Made) := fun parts event =>
  match part (parts event.1) event.2 with
  | none => none
  | some (next, made) =>
      some (Function.update parts event.1 next, made.map (Prod.mk event.1))

def mine {α : Type w} (index : Index) (pair : Index × α) : Option α :=
  if pair.1 = index then some pair.2 else none

theorem mine_self {α : Type w} (index : Index) (items : List α) :
    (items.map (Prod.mk index)).filterMap (mine index) = items := by
  induction items with
  | nil => rfl
  | cons item rest ih => simpa [mine] using ih

theorem mine_other {α : Type w} {index other : Index} (differs : other ≠ index)
    (items : List α) : (items.map (Prod.mk other)).filterMap (mine index) = [] := by
  induction items with
  | nil => rfl
  | cons item rest ih => simp [mine, differs]

theorem product_projects {part : Step Part Act Made} {start last : Index → Part}
    {events : List (Index × Act)} {calls : List (Index × Made)}
    (ran : exec (product part) start events = some (last, calls)) (index : Index) :
    exec part (start index) (events.filterMap (mine index)) =
      some (last index, calls.filterMap (mine index)) := by
  refine exec_projects (fun parts => parts index) (mine index) (mine index) ?silent ?steps ran
  case silent =>
      intro parts event next made taken other
      have differs : event.1 ≠ index := by
        intro same
        simp [mine, same] at other
      simp only [product] at taken
      split at taken
      · contradiction
      · cases taken
        exact ⟨Function.update_of_ne differs.symm .., mine_other differs _⟩
  case steps =>
      intro parts event act next made taken own
      obtain ⟨other, event⟩ := event
      simp only [mine, Option.ite_none_right_eq_some, Option.some.injEq] at own
      obtain ⟨rfl, rfl⟩ := own
      simp only [product] at taken
      split at taken
      · contradiction
      case h_2 after calls stepped =>
          cases taken
          rw [stepped, mine_self, Function.update_self]

end Product

end NetworkTest.Projection
