import Mathlib.Data.List.Basic

/-!
Tables looked up by place: what is found after an entry has been put behind the
others or in the place of one.
-/

namespace NetworkTest.Lookup

universe u
variable {Entry : Type u} {table : List Entry} {new entry : Entry} {i j : Nat}

theorem found_append (found : (table ++ [new])[j]? = some entry) :
    table[j]? = some entry ∨ j = table.length ∧ entry = new := by
  rcases Nat.lt_or_ge j table.length with old | behind
  · rw [List.getElem?_append_left old] at found
    exact .inl found
  · rw [List.getElem?_append_right behind, List.getElem?_singleton] at found
    split at found
    case isTrue zero => exact .inr ⟨by omega, (Option.some.inj found).symm⟩
    case isFalse => cases found

theorem found_set (found : (table.set i new)[j]? = some entry) :
    (j = i ∧ entry = new) ∨ (j ≠ i ∧ table[j]? = some entry) := by
  by_cases same : i = j
  · subst same
    rw [List.getElem?_set_self'] at found
    cases old : table[i]? with
    | none => simp [old] at found
    | some _ =>
        rw [old] at found
        exact .inl ⟨rfl, (Option.some.inj found).symm⟩
  · rw [List.getElem?_set_ne same] at found
    exact .inr ⟨Ne.symm same, found⟩

end NetworkTest.Lookup
