import Mathlib.Data.List.Basic

/-!
Removal from an unordered table: the last entry takes the place of the removed
one. Order is lost, multiplicity is not, and nothing but the removed entry and
the moved one changes its place.
-/

namespace NetworkTest.SwapRemove

universe u
variable {Entry : Type u}

def swapRemove (table : List Entry) (i : Nat) : List Entry :=
  match table.getLast? with
  | none => table
  | some last => (table.set i last).dropLast

theorem swapRemove_last (front : List Entry) (entry : Entry) :
    swapRemove (front ++ [entry]) front.length = front := by
  simp [swapRemove]

theorem swapRemove_middle (front middle : List Entry) (entry last : Entry) :
    swapRemove (front ++ entry :: (middle ++ [last])) front.length =
      front ++ last :: middle := by
  have ending : (front ++ entry :: (middle ++ [last])).getLast? = some last := by
    rw [← List.cons_append, ← List.append_assoc, List.getLast?_concat]
  rw [swapRemove, ending]
  simp only [List.set_append_right _ _ (Nat.le_refl _), Nat.sub_self, List.set_cons_zero]
  rw [← List.cons_append, ← List.append_assoc, List.dropLast_concat]

theorem swapRemove_cases {table : List Entry} {i : Nat} {entry : Entry}
    (found : table[i]? = some entry) :
    ∃ front, front.length = i ∧
      ((table = front ++ [entry] ∧ swapRemove table i = front) ∨
        ∃ middle last, table = front ++ entry :: (middle ++ [last]) ∧
          swapRemove table i = front ++ last :: middle) := by
  obtain ⟨front, back, rfl, rfl⟩ : ∃ front back, table = front ++ entry :: back ∧
      front.length = i := by
    obtain ⟨inside, rfl⟩ := List.getElem?_eq_some_iff.mp found
    refine ⟨table.take i, table.drop (i + 1), ?_, by simp; omega⟩
    rw [← List.drop_eq_getElem_cons inside, List.take_append_drop]
  refine ⟨front, rfl, ?_⟩
  rcases List.eq_nil_or_concat back with rfl | ⟨middle, last, rfl⟩
  · exact Or.inl ⟨rfl, swapRemove_last front entry⟩
  · rw [List.concat_eq_append]
    exact Or.inr ⟨middle, last, rfl, swapRemove_middle front middle entry last⟩

theorem swapRemove_perm {table : List Entry} {i : Nat} {entry : Entry}
    (found : table[i]? = some entry) : table.Perm (entry :: swapRemove table i) := by
  obtain ⟨front, _, ⟨rfl, removed⟩ | ⟨middle, last, rfl, removed⟩⟩ := swapRemove_cases found
  · rw [removed]
    exact List.perm_append_singleton entry front
  · rw [removed]
    refine List.perm_middle.trans (List.Perm.cons entry ?_)
    exact (List.perm_append_singleton last middle).append_left front

theorem swapRemove_length {table : List Entry} {i : Nat} {entry : Entry}
    (found : table[i]? = some entry) : (swapRemove table i).length + 1 = table.length := by
  simpa using (swapRemove_perm found).length_eq.symm

/-- Behind the removed place the table only loses its last entry. -/
theorem swapRemove_drop {table : List Entry} {i : Nat} {entry : Entry}
    (found : table[i]? = some entry) :
    (swapRemove table i).drop (i + 1) = (table.drop (i + 1)).dropLast := by
  obtain ⟨front, rfl, ⟨rfl, removed⟩ | ⟨middle, last, rfl, removed⟩⟩ := swapRemove_cases found
  · simp [removed]
  · simp [removed, List.drop_append]

/-- A program that scans and removes at once, advancing past the removed
place, meets behind it only entries it has not scanned yet. -/
theorem mem_swapRemove_drop {table : List Entry} {i : Nat} {entry other : Entry}
    (found : table[i]? = some entry) (member : other ∈ (swapRemove table i).drop (i + 1)) :
    other ∈ table.drop (i + 1) := by
  rw [swapRemove_drop found] at member
  exact (List.dropLast_sublist _).subset member

end NetworkTest.SwapRemove
