import Mathlib.Data.List.Basic

/-!
What a function of a driver does with the block it allocates: the calls of
`kmalloc` and `kfree`, and the bytes of the block it reads or writes between them.
-/

namespace NetworkTest.KernelBuffer

inductive Access where
  | kmalloc (count : Nat) (ok : Bool)
  /-- `count` bytes of the block from the byte `first` on. -/
  | touch (first count : Nat)
  | kfree
  deriving DecidableEq

def kmallocs : List Access → Nat
  | [] => 0
  | .kmalloc _ ok :: rest => (if ok then 1 else 0) + kmallocs rest
  | .touch _ _ :: rest => kmallocs rest
  | .kfree :: rest => kmallocs rest

def kfrees : List Access → Nat
  | [] => 0
  | .kmalloc _ _ :: rest => kfrees rest
  | .touch _ _ :: rest => kfrees rest
  | .kfree :: rest => 1 + kfrees rest

/-- The function gives back all that it has been given. -/
def Balanced (accesses : List Access) : Prop := kmallocs accesses = kfrees accesses

/-- Nothing is touched outside the block, which has `room` bytes at first; the
pointer of a `kmalloc` that failed and that of a freed block have none. -/
def Inside : Nat → List Access → Prop
  | _, [] => True
  | _, .kmalloc count ok :: rest => Inside (if ok then count else 0) rest
  | room, .touch first count :: rest => (count = 0 ∨ first + count ≤ room) ∧ Inside room rest
  | _, .kfree :: rest => Inside 0 rest

def Refused (accesses : List Access) : Prop := ∃ count, .kmalloc count false ∈ accesses

def block (count : Nat) (ok : Bool) (touched : List (Nat × Nat)) (freed : Bool) : List Access :=
  .kmalloc count ok :: touched.map (fun part => .touch part.1 part.2) ++
    if freed then [.kfree] else []

section Touches
variable (touched : List (Nat × Nat)) (rest : List Access)

theorem kmallocs_touches :
    kmallocs (touched.map (fun part => .touch part.1 part.2) ++ rest) = kmallocs rest := by
  induction touched with
  | nil => rfl
  | cons part others ih => exact ih

theorem kfrees_touches :
    kfrees (touched.map (fun part => .touch part.1 part.2) ++ rest) = kfrees rest := by
  induction touched with
  | nil => rfl
  | cons part others ih => exact ih

theorem inside_touches (room : Nat) :
    Inside room (touched.map (fun part => .touch part.1 part.2) ++ rest) ↔
      (∀ part ∈ touched, part.2 = 0 ∨ part.1 + part.2 ≤ room) ∧ Inside room rest := by
  induction touched with
  | nil => simp
  | cons part others ih =>
      rw [List.map_cons, List.cons_append, Inside, ih, List.forall_mem_cons, and_assoc]

end Touches

theorem balanced_block (count : Nat) (ok : Bool) (touched : List (Nat × Nat)) (freed : Bool) :
    Balanced (block count ok touched freed) ↔ ok = freed := by
  rw [Balanced, block, List.cons_append, kmallocs, kfrees, kmallocs_touches, kfrees_touches]
  cases ok <;> cases freed <;> simp [kmallocs, kfrees]

theorem inside_block (room count : Nat) (ok : Bool) (touched : List (Nat × Nat)) (freed : Bool) :
    Inside room (block count ok touched freed) ↔
      ∀ part ∈ touched, part.2 = 0 ∨ part.1 + part.2 ≤ if ok then count else 0 := by
  rw [block, List.cons_append, Inside, inside_touches]
  cases freed <;> simp [Inside]

theorem refused_block (count : Nat) (ok : Bool) (touched : List (Nat × Nat)) (freed : Bool) :
    Refused (block count ok touched freed) ↔ ok = false := by
  cases freed <;> simp [Refused, block, eq_comm]

end NetworkTest.KernelBuffer
