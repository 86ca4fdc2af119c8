import Mathlib.Algebra.Ring.Nat
import Mathlib.Data.List.Basic

/-!
Ones' complement addition: what is carried out of a word is added in at its
other end. Words are numbers below `base`. The sum of a list of words is known
from its residue modulo `base - 1`, but for the two zeros, 0 and `base - 1`.
-/

namespace NetworkTest.OnesComplement

variable {base : Nat}

/-- Addition with the carry put back in. -/
def add (base left right : Nat) : Nat :=
  if left + right < base then left + right else left + right - (base - 1)

def sum (base : Nat) (words : List Nat) : Nat := words.foldl (add base) 0

/-- The part above the word added to the part inside it. -/
def fold (base value : Nat) : Nat := value % base + value / base

theorem fold_mod (value : Nat) : fold base value % (base - 1) = value % (base - 1) := by
  cases base with
  | zero => simp [fold]
  | succ last =>
      have split := Nat.mod_add_div value (last + 1)
      have whole : value = fold (last + 1) value + last * (value / (last + 1)) := by
        rw [Nat.add_mul] at split
        rw [fold]
        omega
      conv_rhs => rw [whole]
      rw [Nat.add_one_sub_one, Nat.add_mul_mod_self_left]

theorem fold_lt {value : Nat} (two : 2 ≤ base) (above : base ≤ value) :
    fold base value < value := by
  have split := Nat.mod_add_div value base
  have upper : 0 < value / base := Nat.div_pos above (by omega)
  have wider : 2 * (value / base) ≤ base * (value / base) := Nat.mul_le_mul_right _ two
  rw [fold]
  omega

theorem add_mod (left right : Nat) :
    add base left right % (base - 1) = (left + right) % (base - 1) := by
  rw [add]
  split
  case isTrue => rfl
  case isFalse beyond => rw [← Nat.mod_eq_sub_mod (by omega)]

theorem add_lt {left right : Nat} (small : left < base) (other : right < base) :
    add base left right < base := by
  rw [add]
  split <;> omega

theorem add_pos {left right : Nat} (two : 2 ≤ base) (some : 0 < left + right) :
    0 < add base left right := by
  rw [add]
  split <;> omega

/-- What is below `base` is known from its residue, but for the two zeros. -/
theorem eq_of_mod {left right : Nat} (two : 2 ≤ base) (small : left < base) (other : right < base)
    (zeros : 0 < left ↔ 0 < right) (same : left % (base - 1) = right % (base - 1)) :
    left = right := by
  rcases Nat.lt_or_ge left (base - 1) with below | last
  · rw [Nat.mod_eq_of_lt below] at same
    rcases Nat.lt_or_ge right (base - 1) with inside | full
    · rwa [Nat.mod_eq_of_lt inside] at same
    · rw [show right = base - 1 by omega, Nat.mod_self] at same
      omega
  · rw [show left = base - 1 by omega, Nat.mod_self] at same
    rcases Nat.lt_or_ge right (base - 1) with inside | full
    · rw [Nat.mod_eq_of_lt inside] at same
      omega
    · omega

theorem fold_pos_iff (value : Nat) : 0 < fold base value ↔ 0 < value := by
  have split := Nat.mod_add_div value base
  constructor
  · intro positive
    rcases Nat.eq_zero_or_pos value with rfl | some
    · simp [fold] at positive
    · exact some
  · intro positive
    rcases Nat.eq_zero_or_pos (value / base) with none | some
    · rw [none, Nat.mul_zero, Nat.add_zero] at split
      rw [fold, split]
      exact Nat.lt_of_lt_of_le positive (Nat.le_add_right ..)
    · exact Nat.lt_of_lt_of_le some (Nat.le_add_left ..)

/-- Two folds are enough below the square of `base`. -/
theorem fold_fold_lt {value : Nat} (two : 2 ≤ base) (square : value < base * base) :
    fold base (fold base value) < base := by
  have upper : value / base < base := Nat.div_lt_of_lt_mul square
  have lower : value % base < base := Nat.mod_lt value (by omega)
  have folded : fold base value = value % base + value / base := rfl
  rcases Nat.lt_or_ge (fold base value) base with inside | beyond
  · rwa [fold, Nat.mod_eq_of_lt inside, Nat.div_eq_of_lt inside, Nat.add_zero]
  · have carry : fold base value / base = 1 :=
      Nat.div_eq_of_lt_le (by omega) (by omega)
    have rest : fold base value % base = fold base value - base := by
      rw [Nat.mod_eq_sub_mod beyond, Nat.mod_eq_of_lt (by omega)]
    rw [fold, carry, rest]
    omega

section Sum

variable {words : List Nat}

theorem foldl_mod (start : Nat) :
    words.foldl (add base) start % (base - 1) = (start + words.sum) % (base - 1) := by
  induction words generalizing start with
  | nil => rfl
  | cons word words ih =>
      rw [List.foldl_cons, ih, List.sum_cons, ← Nat.add_assoc]
      rw [Nat.add_mod, add_mod, ← Nat.add_mod]

theorem foldl_lt {start : Nat} (small : start < base) (each : ∀ word ∈ words, word < base) :
    words.foldl (add base) start < base := by
  induction words generalizing start with
  | nil => exact small
  | cons word words ih =>
      rw [List.forall_mem_cons] at each
      exact ih (add_lt small each.1) each.2

theorem foldl_pos {start : Nat} (two : 2 ≤ base) (some : 0 < start + words.sum) :
    0 < words.foldl (add base) start := by
  induction words generalizing start with
  | nil => simpa using some
  | cons word words ih =>
      apply ih
      rw [List.sum_cons] at some
      rcases Nat.eq_zero_or_pos (start + word) with none | more
      · omega
      · have positive := add_pos two more
        omega

theorem foldl_zero (two : 2 ≤ base) (zero : words.sum = 0) : words.foldl (add base) 0 = 0 := by
  induction words with
  | nil => rfl
  | cons word words ih =>
      rw [List.sum_cons] at zero
      rw [List.foldl_cons, add, if_pos (by omega), show 0 + word = 0 by omega]
      exact ih (by omega)

theorem sum_lt (two : 2 ≤ base) (each : ∀ word ∈ words, word < base) : sum base words < base :=
  foldl_lt (by omega) each

theorem sum_mod : sum base words % (base - 1) = words.sum % (base - 1) := by
  rw [sum, foldl_mod, Nat.zero_add]

theorem sum_pos_iff (two : 2 ≤ base) : 0 < sum base words ↔ 0 < words.sum := by
  constructor
  · intro positive
    by_contra none
    have zero : sum base words = 0 := foldl_zero two (by omega)
    omega
  · exact fun some => foldl_pos two (by omega)

/-- A sum is the zero of all ones if its residue is 0 and not all words are 0. -/
theorem sum_eq_last_iff (two : 2 ≤ base) (each : ∀ word ∈ words, word < base) :
    sum base words = base - 1 ↔ 0 < words.sum ∧ words.sum % (base - 1) = 0 := by
  have residue : sum base words % (base - 1) = words.sum % (base - 1) := sum_mod
  have small : sum base words < base := sum_lt two each
  constructor
  · intro last
    rw [last, Nat.mod_self] at residue
    exact ⟨(sum_pos_iff two).mp (by omega), residue.symm⟩
  · rintro ⟨some, zero⟩
    have positive : 0 < sum base words := (sum_pos_iff two).mpr some
    rw [zero] at residue
    obtain ⟨count, multiple⟩ := Nat.dvd_of_mod_eq_zero residue
    have one : count = 1 := by
      have above : 0 < count := Nat.pos_of_mul_pos_left (multiple ▸ positive)
      by_contra other
      have many : (base - 1) * 2 ≤ (base - 1) * count := Nat.mul_le_mul_left _ (by omega)
      omega
    rw [multiple, one, Nat.mul_one]

end Sum

end NetworkTest.OnesComplement
