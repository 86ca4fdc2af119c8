import Mathlib.Data.List.Basic

/-!
Functions that read a memory cell by cell, where what is read decides where to read
next, and the offsets that they read. A function that stays below a length has the
same result in every memory that is the same there.
-/

namespace NetworkTest.FieldReads

universe u v w
variable {Cell : Type u} {Value : Type v} {Result : Type w}

inductive Reads (Cell : Type u) (Value : Type v) where
  | done (value : Value)
  | read (offset : Nat) (next : Cell → Reads Cell Value)

namespace Reads

def bind : Reads Cell Value → (Value → Reads Cell Result) → Reads Cell Result
  | .done value, follow => follow value
  | .read offset next, follow => .read offset fun cell => bind (next cell) follow

instance : Monad (Reads Cell) where
  pure := .done
  bind := bind

def cell (offset : Nat) : Reads Cell Cell := .read offset .done

def block (offset : Nat) : Nat → Reads Cell (List Cell)
  | 0 => pure []
  | count + 1 => do
      let first ← cell offset
      let rest ← block (offset + 1) count
      return first :: rest

def run (memory : Nat → Cell) : Reads Cell Value → Value
  | .done value => value
  | .read offset next => run memory (next (memory offset))

def offsets (memory : Nat → Cell) : Reads Cell Value → List Nat
  | .done _ => []
  | .read offset next => offset :: offsets memory (next (memory offset))

/-- Every offset read is below `length`. -/
def Within (length : Nat) (memory : Nat → Cell) (reader : Reads Cell Value) : Prop :=
  ∀ offset ∈ reader.offsets memory, offset < length

variable {length : Nat} {memory other : Nat → Cell}

@[simp] theorem run_pure (value : Value) : (pure value : Reads Cell Value).run memory = value := rfl

@[simp] theorem within_pure (value : Value) :
    Within length memory (pure value : Reads Cell Value) := by
  intro offset member
  cases member

-- not by `rfl`, so that `simp` replaces it in the instances of a test as well
@[simp] theorem run_cell (offset : Nat) : (cell offset).run memory = memory offset := by
  rw [cell, run, run]

@[simp] theorem within_cell (offset : Nat) :
    Within length memory (cell offset) ↔ offset < length := by
  simp [Within, cell, offsets]

theorem run_bind_from (reader : Reads Cell Value) (follow : Value → Reads Cell Result) :
    (reader.bind follow).run memory = (follow (reader.run memory)).run memory := by
  induction reader with
  | done value => rfl
  | read offset next ih => exact ih (memory offset)

theorem offsets_bind_from (reader : Reads Cell Value) (follow : Value → Reads Cell Result) :
    (reader.bind follow).offsets memory =
      reader.offsets memory ++ (follow (reader.run memory)).offsets memory := by
  induction reader with
  | done value => rfl
  | read offset next ih => exact congrArg (offset :: ·) (ih (memory offset))

@[simp] theorem run_ite (test : Prop) [Decidable test] (yes no : Reads Cell Value) :
    (if test then yes else no).run memory =
      if test then yes.run memory else no.run memory := by
  split <;> rfl

@[simp] theorem within_ite (test : Prop) [Decidable test] (yes no : Reads Cell Value) :
    Within length memory (if test then yes else no) ↔
      (test → Within length memory yes) ∧ (¬ test → Within length memory no) := by
  by_cases met : test <;> simp [met]

section Follows
variable {Value Result : Type v}

@[simp] theorem run_bind (reader : Reads Cell Value) (follow : Value → Reads Cell Result) :
    (reader >>= follow).run memory = (follow (reader.run memory)).run memory :=
  run_bind_from reader follow

@[simp] theorem within_bind (reader : Reads Cell Value) (follow : Value → Reads Cell Result) :
    Within length memory (reader >>= follow) ↔
      Within length memory reader ∧ Within length memory (follow (reader.run memory)) := by
  rw [Within, show (reader >>= follow).offsets memory = _ from offsets_bind_from reader follow,
    List.forall_mem_append, Within, Within]

end Follows

@[simp] theorem run_block (offset count : Nat) :
    (block offset count).run memory = (List.range count).map fun k => memory (offset + k) := by
  induction count generalizing offset with
  | zero => rfl
  | succ count ih =>
      rw [block, run_bind, run_cell, run_bind, ih, run_pure, List.range_succ_eq_map, List.map_cons,
        List.map_map]
      congr 1
      apply List.map_congr_left
      intro k _
      exact congrArg memory (Nat.add_right_comm offset 1 k)

@[simp] theorem within_block (offset count : Nat) :
    Within length memory (block offset count) ↔ count = 0 ∨ offset + count ≤ length := by
  induction count generalizing offset with
  | zero => simp [block]
  | succ count ih =>
      rw [block, within_bind, within_cell, within_bind, ih]
      simp only [within_pure, and_true]
      omega

theorem offsets_congr {reader : Reads Cell Value} (same : ∀ i, i < length → memory i = other i)
    (within : Within length memory reader) :
    reader.offsets other = reader.offsets memory ∧ reader.run other = reader.run memory := by
  induction reader with
  | done value => exact ⟨rfl, rfl⟩
  | read offset next ih =>
      obtain ⟨inside, rest⟩ := List.forall_mem_cons.mp within
      obtain ⟨places, result⟩ := ih (memory offset) rest
      rw [offsets, offsets, run, run, ← same offset inside]
      exact ⟨congrArg (offset :: ·) places, result⟩

theorem within_congr {reader : Reads Cell Value} (same : ∀ i, i < length → memory i = other i) :
    Within length memory reader ↔ Within length other reader := by
  constructor
  · intro within
    rw [Within, (offsets_congr same within).1]
    exact within
  · intro within
    rw [Within, (offsets_congr (fun i inside => (same i inside).symm) within).1]
    exact within

end Reads

/-- A function that looks at a message of `length` cells and reports it or not: it reads
no cell behind the message, does not report one that is too short for it, and what it
reports is the same whatever lies behind the message. -/
structure Confined (length : Nat) (memory : Nat → Cell) (reader : Reads Cell (Option Value)) :
    Prop where
  inside : ∀ offset ∈ reader.offsets memory, offset < length
  short : (∃ offset ∈ reader.offsets memory, length ≤ offset) → reader.run memory = none
  same : ∀ other : Nat → Cell, (∀ i, i < length → memory i = other i) →
    reader.run other = reader.run memory

theorem confined_iff {length : Nat} {memory : Nat → Cell} {reader : Reads Cell (Option Value)} :
    Confined length memory reader ↔ reader.Within length memory := by
  constructor
  · intro confined
    exact confined.inside
  · intro within
    refine ⟨within, ?_, fun other same => (Reads.offsets_congr same within).2⟩
    rintro ⟨offset, member, behind⟩
    exact absurd (within offset member) (Nat.not_lt_of_le behind)

end NetworkTest.FieldReads
