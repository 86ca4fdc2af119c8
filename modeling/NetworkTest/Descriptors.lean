import Mathlib.Data.List.Nodup
import NetworkTest.CBuffer

/-!
Descriptor tables: a process names its open connections by small integers,
which the kernel gives out and takes back. Connections are numbered in the
order in which they were accepted and are never renamed, so a number tells
apart two connections that used the same descriptor one after the other.
-/

namespace NetworkTest.Descriptors

open CBuffer (Bytes BUFSIZ)

/-- What the kernel has behind a descriptor number. -/
inductive Target where
  | closed
  | listening
  | connection (number : Nat)
  deriving DecidableEq

/-- The open connections of a process: descriptor and connection number. -/
abbrev Table := List (Int × Nat)

def lookup (fd : Int) : Table → Target
  | [] => .closed
  | (key, number) :: rest => if fd = key then .connection number else lookup fd rest

/-- A count of bytes with the bytes themselves, or -1. -/
inductive ReadResult where
  | bytes (data : Bytes)
  | error
  deriving DecidableEq

/-- A read into a buffer of `BUFSIZ` bytes transfers at most that many, and
only from a connection. -/
def readPossible (target : Target) : ReadResult → Bool
  | .error => true
  | .bytes data => decide (data.length ≤ BUFSIZ) &&
      match target with
      | .connection _ => true
      | _ => false

theorem lookup_closed_iff (fd : Int) (opened : Table) :
    lookup fd opened = .closed ↔ fd ∉ opened.map Prod.fst := by
  induction opened with
  | nil => simp [lookup]
  | cons entry rest ih =>
      obtain ⟨key, number⟩ := entry
      by_cases same : fd = key <;> simp [lookup, same, ih]

theorem lookup_filter_ne {fd other : Int} (opened : Table) (differs : fd ≠ other) :
    lookup fd (opened.filter (fun entry => entry.1 ≠ other)) = lookup fd opened := by
  induction opened with
  | nil => rfl
  | cons entry rest ih =>
      obtain ⟨key, number⟩ := entry
      by_cases removed : key = other
      · have apart : fd ≠ key := fun same => differs (same.trans removed)
        simpa [lookup, removed, differs] using ih
      · rw [List.filter_cons_of_pos (by simp [removed])]
        simp only [lookup, ih]

theorem lookup_eq_iff {fd : Int} {number : Nat} {opened : Table}
    (unique : (opened.map Prod.fst).Nodup) :
    lookup fd opened = .connection number ↔ (fd, number) ∈ opened := by
  induction opened with
  | nil => simp [lookup]
  | cons entry rest ih =>
      obtain ⟨key, value⟩ := entry
      rw [List.map_cons, List.nodup_cons] at unique
      by_cases same : fd = key
      · subst same
        have absent : (fd, number) ∉ rest := fun member =>
          unique.1 (List.mem_map.mpr ⟨(fd, number), member, rfl⟩)
        simp [lookup, absent, eq_comm]
      · simp [lookup, same, ih unique.2]

theorem opened_perm_cons_filter {opened : Table} {fd : Int}
    (unique : (opened.map Prod.fst).Nodup) (member : fd ∈ opened.map Prod.fst) :
    (opened.map Prod.fst).Perm
      (fd :: (opened.filter (fun entry => entry.1 ≠ fd)).map Prod.fst) := by
  have kept : (opened.filter (fun entry => entry.1 ≠ fd)).map Prod.fst =
      (opened.map Prod.fst).erase fd := by
    rw [unique.erase_eq_filter, List.filter_map]
    congr 1
    apply List.filter_congr
    intro entry _
    simp [bne, Function.comp_apply, beq_eq_decide]
  rw [kept]
  exact List.perm_cons_erase member

theorem opened_numbers_filter {opened : Table} {fd : Int} {number : Nat}
    (unique : (opened.map Prod.fst).Nodup) (numbers : (opened.map Prod.snd).Nodup)
    (entry : (fd, number) ∈ opened) :
    (opened.filter (fun entry => entry.1 ≠ fd)).map Prod.snd =
      (opened.map Prod.snd).filter (fun other => other ≠ number) := by
  rw [List.filter_map]
  congr 1
  apply List.filter_congr
  rintro ⟨key, value⟩ member
  have sameKey : key = fd → value = number := by
    rintro rfl
    exact congrArg Prod.snd (List.inj_on_of_nodup_map unique member entry rfl)
  have sameNumber : value = number → key = fd := by
    rintro rfl
    exact congrArg Prod.fst (List.inj_on_of_nodup_map numbers member entry rfl)
  simp only [Function.comp_apply, decide_eq_decide]
  exact not_congr ⟨sameKey, sameNumber⟩

end NetworkTest.Descriptors
