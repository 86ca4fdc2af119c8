import Mathlib.Order.Basic

/-!
Streaks: how many positions in a row have a property. A counter that starts
again when it reaches its limit knows a streak modulo the limit. Two streaks,
one within the other, reach multiples of the limit at the same positions only
if the narrow one is as long as the wide one there.
-/

namespace NetworkTest.Streaks

/-- The length of the streak that ends before the position. -/
def streak (holds : Nat → Prop) [DecidablePred holds] : Nat → Nat
  | 0 => 0
  | position + 1 => if holds position then streak holds position + 1 else 0

/-- A positive multiple of the limit. -/
def Reaches (limit length : Nat) : Prop := length ≠ 0 ∧ length % limit = 0

instance (limit length : Nat) : Decidable (Reaches limit length) :=
  inferInstanceAs (Decidable (_ ∧ _))

/-- The counter after one more element of the streak. -/
def count (limit value : Nat) : Nat := if value + 1 = limit then 0 else value + 1

variable {limit : Nat}

theorem count_mod (positive : 0 < limit) (length : Nat) :
    count limit (length % limit) = (length + 1) % limit := by
  have small := Nat.mod_lt length positive
  have parts : length + 1 = limit * (length / limit) + (length % limit + 1) := by
    rw [← Nat.add_assoc, Nat.div_add_mod]
  rw [parts, Nat.mul_add_mod, count]
  split
  case isTrue full => rw [full, Nat.mod_self]
  case isFalse more => exact (Nat.mod_eq_of_lt (by omega)).symm

/-- The counter starts again where the limit is reached. -/
theorem reaches_succ_iff (positive : 0 < limit) (length : Nat) :
    Reaches limit (length + 1) ↔ length % limit + 1 = limit := by
  rw [Reaches, ← count_mod positive, count]
  split
  case isTrue full => simp [full]
  case isFalse more => simp [more]

theorem not_reaches_zero : ¬ Reaches limit 0 := fun reaches => reaches.1 rfl

/-- The narrow streak is as long as the wide one, or it has begun after the last
multiple of the limit. -/
def Abreast (limit first second : Nat) : Prop := first = second ∨ first < second % limit

inductive Next (first second : Nat) : Nat → Nat → Prop where
  | both : Next first second (first + 1) (second + 1)
  | wide : Next first second 0 (second + 1)
  | neither : Next first second 0 0

section

variable {first second later last : Nat}

theorem Abreast.reaches_iff (positive : 0 < limit) (abreast : Abreast limit first second) :
    Reaches limit first ↔ Reaches limit second := by
  rcases abreast with rfl | less
  · rfl
  · have small := Nat.mod_lt second positive
    constructor
    · rintro ⟨some, multiple⟩
      rw [Nat.mod_eq_of_lt (by omega)] at multiple
      exact absurd multiple some
    · rintro ⟨_, multiple⟩
      omega

theorem Abreast.eq_of_reaches (abreast : Abreast limit first second)
    (reaches : Reaches limit second) : first = second := by
  rcases abreast with same | less
  · exact same
  · have multiple := reaches.2
    omega

theorem Abreast.next (positive : 0 < limit) (abreast : Abreast limit first second)
    (goes : Next first second later last) :
    Abreast limit later last ∨ (¬ Reaches limit later ∧ Reaches limit last ∧ later ≠ last) := by
  have counted := count_mod positive second
  rw [count] at counted
  cases goes with
  | neither => exact .inl (.inl rfl)
  | wide =>
      -- the narrow streak is lost: that counts where the wide one is full
      by_cases full : second % limit + 1 = limit
      · exact .inr ⟨not_reaches_zero, (reaches_succ_iff positive second).mpr full, by omega⟩
      · rw [if_neg full] at counted
        exact .inl (.inr (by omega))
  | both =>
      rcases abreast with rfl | less
      · exact .inl (.inl rfl)
      · by_cases full : second % limit + 1 = limit
        · have small := Nat.mod_le second limit
          have begun : first % limit = first := Nat.mod_eq_of_lt (by omega)
          refine .inr ⟨?_, (reaches_succ_iff positive second).mpr full, by omega⟩
          rw [reaches_succ_iff positive, begun]
          omega
        · rw [if_neg full] at counted
          exact .inl (.inr (by omega))

end

theorem forall_iff_of_next {well good : Nat → Prop} (start : well 0)
    (next : ∀ position, well position → (good (position + 1) ↔ well (position + 1)))
    (last : Nat) :
    (∀ position < last, good (position + 1)) ↔ ∀ position < last, well (position + 1) := by
  induction last with
  | zero => simp
  | succ last ih =>
      rw [Nat.forall_lt_succ_right, Nat.forall_lt_succ_right, ih]
      refine and_congr_right fun before => next last ?_
      cases last with
      | zero => exact start
      | succ last => exact before last (Nat.lt_succ_self last)

section

variable {narrow wide : Nat → Prop} [DecidablePred narrow] [DecidablePred wide]

theorem streak_next (within : ∀ position, narrow position → wide position) (position : Nat) :
    Next (streak narrow position) (streak wide position)
      (streak narrow (position + 1)) (streak wide (position + 1)) := by
  rw [streak, streak]
  by_cases inner : narrow position
  · rw [if_pos inner, if_pos (within position inner)]
    exact .both
  · rw [if_neg inner]
    by_cases outer : wide position
    · rw [if_pos outer]
      exact .wide
    · rw [if_neg outer]
      exact .neither

/-- The two streaks reach the limit together everywhere if and only if the
narrow one is as long as the wide one wherever that reaches it. -/
theorem reaches_together_iff (positive : 0 < limit)
    (within : ∀ position, narrow position → wide position) (last : Nat) :
    (∀ position < last, (Reaches limit (streak narrow (position + 1)) ↔
        Reaches limit (streak wide (position + 1)))) ↔
      ∀ position < last, Reaches limit (streak wide (position + 1)) →
        streak narrow (position + 1) = streak wide (position + 1) := by
  have start : Abreast limit (streak narrow 0) (streak wide 0) := .inl rfl
  have together := @forall_iff_of_next
    (fun position => Abreast limit (streak narrow position) (streak wide position))
    (fun position => (Reaches limit (streak narrow position) ↔
      Reaches limit (streak wide position))) start ?together last
  have equal := @forall_iff_of_next
    (fun position => Abreast limit (streak narrow position) (streak wide position))
    (fun position => Reaches limit (streak wide position) →
      streak narrow position = streak wide position) start ?equal last
  · exact together.trans equal.symm
  case together =>
      intro position abreast
      refine ⟨fun same => ?_, fun later => later.reaches_iff positive⟩
      rcases abreast.next positive (streak_next within position) with later | ⟨none, reaches, _⟩
      · exact later
      · exact absurd (same.mpr reaches) none
  case equal =>
      intro position abreast
      refine ⟨fun equal => ?_, fun later => later.eq_of_reaches⟩
      rcases abreast.next positive (streak_next within position) with later | ⟨_, reaches, other⟩
      · exact later
      · exact absurd (equal reaches) other

end

end NetworkTest.Streaks
